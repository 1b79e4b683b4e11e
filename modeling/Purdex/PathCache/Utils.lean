/-
Helpers of the path cache: the keys of its scopes, the two normalizers, and the lists of directories.
-/
import Purdex.Files.Lexical
import Purdex.Json.Value
import Mathlib

namespace Purdex.PathCache

open Joined Json

def maxDirsPerScope : Nat := 50

def maxDirBytes : Nat := 4096

def maxCwdBytes : Nat := 4096

/-! ## Keys -/

def scopeSep : Char := '\x00'

def scopeKey (hostId cwd : String) : String := hostId ++ String.singleton scopeSep ++ cwd

/-- What is before the first separator and what is behind it, if both are something. -/
def parseScopeKey (key : String) : Option (String × String) :=
  match cut scopeSep key.toList with
  | none => none
  | some (hostId, cwd) => if hostId = [] ∨ cwd = [] then none else some (String.ofList hostId, String.ofList cwd)

/-! ## Normalizers -/

/-- Code units of UTF-16. -/
def units (l : List Char) : Nat := (l.map fun c => if c.toNat < 0x10000 then 1 else 2).sum

def hasControlOrNul (s : String) : Bool := s.toList.any fun c => c.toNat < 0x20 || c.toNat = 0x7F

/-- What both normalizers ask of a text. -/
def accepts (maxBytes : Nat) (raw : String) : Bool := Files.isAbs raw && units raw.toList ≤ maxBytes && !hasControlOrNul raw

/-- The loop over the segments: one more of them, behind the parts so far. -/
def pushSegment (parts : List String) (seg : String) : List String :=
  if seg = "" ∨ seg = "." then parts else if seg = ".." then parts.dropLast else parts ++ [seg]

def normalizeDir (raw : String) : Option String :=
  if accepts maxDirBytes raw then
    let parts := ((raw.toList.splitOn '/').map String.ofList).foldl pushSegment []
    some (if parts = [] then "/" else "/" ++ String.ofList (['/'].intercalate (parts.map String.toList)))
  else none

def normalizeCwd (raw : String) : Option String :=
  if accepts maxCwdBytes raw then
    let trimmed := raw.toList.rdropWhile (· = '/')
    some (if trimmed = [] then "/" else String.ofList trimmed)
  else none

/-- What is before the last slash, if that is something. -/
def dirname (p : String) : String :=
  let front := (p.toList.rdropWhile (· ≠ '/')).dropLast
  if front = [] then "/" else String.ofList front

/-! ## Lists of directories -/

structure PathCacheEntry where
  dir : String
  sessionCode : String
  touchedAt : ℚ
  deriving DecidableEq

def upsertEntry (list : Option (List PathCacheEntry)) (entry : PathCacheEntry) : List PathCacheEntry :=
  (entry :: (list.getD []).filter (·.dir ≠ entry.dir)).take maxDirsPerScope

def byRecency (list : List PathCacheEntry) : List PathCacheEntry := list.mergeSort fun a b => b.touchedAt ≤ a.touchedAt

/-- An empty code asks about no session. -/
def rankCandidates (list : List PathCacheEntry) (currentSessionCode : Option String) : List PathCacheEntry :=
  match currentSessionCode with
  | none => byRecency list
  | some code =>
    if code = "" then byRecency list
    else byRecency (list.filter (·.sessionCode = code)) ++ byRecency (list.filter (·.sessionCode ≠ code))

/-- A number of a text that is not rounded to an infinity. -/
def isFinite (n : ℚ) : Bool := -(2 ^ 1024 - 2 ^ 970) < n && n < 2 ^ 1024 - 2 ^ 970

/-- An item that is an object with a directory. -/
def entryOf : Raw → Option PathCacheEntry
  | .obj fields =>
    match fields.lookup "dir" with
    | some (.str raw) => (normalizeDir raw).map fun dir =>
      { dir
        sessionCode := match fields.lookup "sessionCode" with
          | some (.str sessionCode) => sessionCode
          | _ => ""
        touchedAt := match fields.lookup "touchedAt" with
          | some (.num n) => if isFinite n then n else 0
          | _ => 0 }
    | _ => none
  | _ => none

/-- The loop over the items; what was seen is what is clean so far. -/
def sanitizeItems : List Raw → List PathCacheEntry → List PathCacheEntry
  | [], cleaned => cleaned
  | item :: items, cleaned =>
    match entryOf item with
    | none => sanitizeItems items cleaned
    | some entry =>
      if entry.dir ∈ cleaned.map (·.dir) then sanitizeItems items cleaned
      else if maxDirsPerScope ≤ (cleaned ++ [entry]).length then cleaned ++ [entry]
      else sanitizeItems items (cleaned ++ [entry])

def sanitizeEntries : Raw → List PathCacheEntry
  | .arr items => sanitizeItems items []
  | _ => []

end Purdex.PathCache
