/-
The search for files of a name: which directories are walked, which files are let through, and where the walk is cut.
-/
import Purdex.Files.Walk
import Purdex.Text.Glob
import Purdex.Runtime.Daemon

namespace Purdex.Fs

open Files
open Purdex.Runtime (trimSpace)

/-! ## Requests -/

structure SearchQuery where
  basename : String
  deriving Repr, DecidableEq

structure SearchRoot where
  absolute : String
  deriving Repr, DecidableEq

structure SearchLimits where
  maxResults : Int
  maxDepth : Int
  deriving Repr, DecidableEq

structure SearchFilters where
  excludeDirs : List String
  excludeBasenameGlobs : List String
  respectGitignore : Option Bool
  deriving Repr, DecidableEq

structure SearchRequest where
  mode : String
  query : SearchQuery
  roots : List SearchRoot
  limits : SearchLimits
  filters : SearchFilters
  deriving Repr, DecidableEq

structure SearchMatch where
  path : String
  modTime : Int
  sizeBytes : Int
  root : String
  deriving Repr, DecidableEq

structure SearchResponse where
  matched : List SearchMatch
  isPartial : Bool
  deriving Repr, DecidableEq

inductive SearchError
  | unsupportedMode (mode : String)
  | basenameRequired
  | gitignoreParse
  deriving Repr, DecidableEq

def SearchError.message : SearchError → String
  | .unsupportedMode mode => "unsupported search mode: " ++ mode
  | .basenameRequired => "query.basename required"
  | .gitignoreParse => "gitignore parse failure"

def defaultSearchMaxResults : Int := 50

def defaultSearchMaxDepth : Int := 8

def hardCapMaxResults : Int := 200

def mandatoryExcludeDirs : List String := ["node_modules", ".git", ".cache", "dist", ".pnpm-store", ".next", ".turbo"]

def mandatoryExcludeBasenameGlobs : List String := ["*.lock", "*.log"]

namespace SearchRequest

variable (req : SearchRequest)

def maxResults : Int :=
  let n := if req.limits.maxResults ≤ 0 then defaultSearchMaxResults else req.limits.maxResults
  if n > hardCapMaxResults then hardCapMaxResults else n

def maxDepth : Int := if req.limits.maxDepth ≤ 0 then defaultSearchMaxDepth else req.limits.maxDepth

def excludeDirs : List String := mandatoryExcludeDirs ++ req.filters.excludeDirs.filter (· ≠ "")

def excludeGlobs : List String := mandatoryExcludeBasenameGlobs ++ req.filters.excludeBasenameGlobs

def respectGI : Bool := req.filters.respectGitignore.getD true

end SearchRequest

/-! ## What is ignored -/

/-- How many brackets are open so far. A stray closing one does not matter. -/
def balancedFrom : Nat → List Char → Bool
  | n, [] => n = 0
  | n, ['\\'] => n = 0
  | n, '\\' :: _ :: cs => balancedFrom n cs
  | n, '[' :: cs => balancedFrom (n + 1) cs
  | n, ']' :: cs => balancedFrom (n - 1) cs
  | n, _ :: cs => balancedFrom n cs

def bracketsBalanced (s : String) : Bool := balancedFrom 0 s.toList

def lines (content : String) : List String := (content.toList.splitOn '\n').map String.ofList

def trimCR (raw : String) : String := String.ofList (raw.toList.reverse.dropWhile (· = '\r')).reverse

/-- Whether every pattern can be compiled, as far as its brackets tell. -/
def preflightGitignore (content : String) : Bool :=
  (lines content).all fun raw =>
    match (trimSpace (trimCR raw)).toList with
    | [] | '#' :: _ => true
    | '!' :: cs => bracketsBalanced (String.ofList cs)
    | cs => bracketsBalanced (String.ofList cs)

/-! ## The outside -/

/-- Times are in nanoseconds. -/
structure FileInfo where
  modTime : Int
  size : Int
  deriving Repr, DecidableEq

/-- What is at the paths of the roots, with what `Info` says of each leaf, and what is in the files that can be read. -/
structure Disk where
  lstat : String → Option (Node (Option FileInfo))
  readFile : String → Option String
  valid : ∀ path node, lstat path = some node → node.Valid

inductive ContextError
  | deadlineExceeded
  | canceled
  deriving Repr, DecidableEq

/-- `sort.Slice` by a later time. It is open which of equal times comes first. -/
structure SliceSort where
  sort : List SearchMatch → List SearchMatch
  perm : ∀ l, (sort l).Perm l
  newest : ∀ l, (sort l).Pairwise fun a b => ¬a.modTime < b.modTime

/-- The disk, the matcher of patterns to ignore, the sort, and what the context says when it is asked for the n-th time. -/
structure Env where
  disk : Disk
  compileIgnoreLines : List String → String → Bool
  slice : SliceSort
  ctxErr : Nat → Option ContextError

/-! ## The walk -/

structure Progress where
  matched : List SearchMatch
  isPartial : Bool
  asked : Nat
  deriving Repr, DecidableEq

def depth (rel : String) : Int := if rel = "." then 0 else rel.toList.count '/'

section Engine

variable (env : Env) (req : SearchRequest)

def skipsDir (gi : Option (String → Bool)) (root path name rel : String) : Bool :=
  (path ≠ root && req.excludeDirs.contains name) || (rel ≠ "." && gi.any (· (rel ++ "/"))) || req.maxDepth < depth rel

def letsThrough (gi : Option (String → Bool)) (rel name : String) : Bool :=
  depth rel ≤ req.maxDepth && !req.excludeGlobs.any (Glob.isMatch · name) && !gi.any (· rel) && name = req.query.basename

def addMatch (m : SearchMatch) (s : Progress) : Verdict ContextError × Progress :=
  let matched := s.matched ++ [m]
  if req.maxResults ≤ matched.length then (.skipAll, { s with matched := matched, isPartial := true })
  else (.next, { s with matched := matched })

/-- What is not a directory. -/
def visitFile (gi : Option (String → Bool)) (root path name rel : String) (info : Option FileInfo) (s : Progress) :
    Verdict ContextError × Progress :=
  if letsThrough req gi rel name then
    match info with
    | none => (.next, s)
    | some info => addMatch req ⟨path, info.modTime, info.size, root⟩ s
  else (.next, s)

/-- What could not be read is skipped, and the walk goes on. -/
def visit (gi : Option (String → Bool)) (root : String) : WalkFunc (Option FileInfo) Progress ContextError := fun path d s =>
  match d with
  | .unread _ | .missing => (.next, s)
  | .dir name =>
    match env.ctxErr s.asked with
    | some err => (.fail err, { s with asked := s.asked + 1 })
    | none =>
      match rel root path with
      | none => (.next, { s with asked := s.asked + 1 })
      | some rel => (if skipsDir req gi root path name rel then .skipDir else .next, { s with asked := s.asked + 1 })
  | .leaf name info =>
    match env.ctxErr s.asked with
    | some err => (.fail err, { s with asked := s.asked + 1 })
    | none =>
      match rel root path with
      | none => (.next, { s with asked := s.asked + 1 })
      | some rel => visitFile req gi root path name rel info { s with asked := s.asked + 1 }

/-- The patterns of a root, if they are respected and there are any. -/
def loadGitignore (root : SearchRoot) : Except SearchError (Option (String → Bool)) :=
  if req.respectGI then
    match env.disk.readFile (join root.absolute ".gitignore") with
    | none => .ok none
    | some data => if preflightGitignore data then .ok (some (env.compileIgnoreLines (lines data))) else .error .gitignoreParse
  else .ok none

/-- The walks fail with errors of the context only. -/
def searchRoots : List SearchRoot → Progress → Except SearchError Progress
  | [], s => .ok s
  | root :: rest, s => do
    let gi ← loadGitignore env req root
    match walkDir (visit env req gi root.absolute) env.disk.lstat root.absolute s with
    | (some _, s') => .ok { s' with isPartial := true }
    | (none, s') => if s'.isPartial then .ok s' else searchRoots rest s'

def search : Except SearchError SearchResponse := do
  let mode := if req.mode = "" then "basename" else req.mode
  if mode ≠ "basename" then .error (.unsupportedMode mode)
  else if req.query.basename = "" then .error .basenameRequired
  else
    let s ← searchRoots env req req.roots ⟨[], false, 0⟩
    .ok ⟨env.slice.sort s.matched, s.isPartial⟩

end Engine

end Purdex.Fs
