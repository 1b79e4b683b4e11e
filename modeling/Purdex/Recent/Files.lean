/-
The recent files: a list by when they were opened, with one entry for each file, whose entries follow a rename of their file or of a folder
above it.
-/
import Purdex.Lists.Slots
import Purdex.Panes.Content
import Mathlib.Data.Rat.Defs
import Mathlib.Algebra.Order.Ring.Rat

namespace Purdex.Recent

open Panes

/-! ## What a rename touches, and where it lands -/

def isSameFileSource : FileSource → FileSource → Bool
  | .daemon hostId, .daemon hostId' => hostId = hostId'
  | .local, .local => true
  | .inapp, .inapp => true
  | _, _ => false

def isPathUnder (path old : String) : Bool := path = old || (old ++ "/").toList.isPrefixOf path.toList

def remapPathUnder (path old new : String) : String := String.ofList (new.toList ++ path.toList.drop old.toList.length)

theorem isSameFileSource_iff {a b : FileSource} : isSameFileSource a b = true ↔ a = b := by
  cases a <;> cases b <;> simp [isSameFileSource]

/-- What is under a path has the path, and behind it nothing or a slash. -/
theorem isPathUnder_iff {path old : String} :
    isPathUnder path old = true ↔ ∃ suffix, path.toList = old.toList ++ suffix ∧ (suffix = [] ∨ ∃ rest, suffix = '/' :: rest) := by
  rw [isPathUnder, Bool.or_eq_true, decide_eq_true_iff, List.isPrefixOf_iff_prefix, String.toList_append]
  constructor
  · rintro (rfl | ⟨rest, hrest⟩)
    · exact ⟨[], (List.append_nil _).symm, .inl rfl⟩
    · rw [List.append_assoc] at hrest
      exact ⟨'/' :: rest, hrest.symm, .inr ⟨rest, rfl⟩⟩
  · rintro ⟨suffix, hpath, rfl | ⟨rest, rfl⟩⟩
    · rw [List.append_nil] at hpath
      exact .inl (String.toList_inj.1 hpath)
    · refine .inr ⟨rest, ?_⟩
      rw [hpath, List.append_assoc]
      rfl

theorem remapPathUnder_eq {path old new : String} {suffix : List Char} (h : path.toList = old.toList ++ suffix) :
    (remapPathUnder path old new).toList = new.toList ++ suffix := by
  rw [remapPathUnder, String.toList_ofList, h, List.drop_left]

theorem remapPathUnder_injective {path path' old new : String} (h : isPathUnder path old = true) (h' : isPathUnder path' old = true)
    (heq : remapPathUnder path old new = remapPathUnder path' old new) : path = path' := by
  obtain ⟨suffix, hpath, -⟩ := isPathUnder_iff.1 h
  obtain ⟨suffix', hpath', -⟩ := isPathUnder_iff.1 h'
  have hlist := congrArg String.toList heq
  rw [remapPathUnder_eq hpath, remapPathUnder_eq hpath'] at hlist
  rw [← String.toList_inj, hpath, hpath', List.append_cancel_left hlist]

/-! ## Entries -/

inductive RecentFileKind where
  | editor
  | imagePreview
  | pdfPreview
  deriving Repr, DecidableEq

structure RecentFileEntry where
  source : FileSource
  path : String
  name : String
  kind : RecentFileKind
  openedAt : ℚ
  deriving Repr, DecidableEq

def recentKey (source : FileSource) (path : String) : String :=
  (match source with
    | .daemon hostId => "daemon:" ++ hostId
    | .local => "local"
    | .inapp => "inapp") ++ " " ++ path

def nameOf (path : String) : String :=
  match (path.toList.splitOn '/').getLast? with
  | some (c :: cs) => String.ofList (c :: cs)
  | _ => path

namespace RecentFileEntry

def key (f : RecentFileEntry) : String := recentKey f.source f.path

/-- The file itself. -/
def identity (f : RecentFileEntry) : FileSource × String := (f.source, f.path)

def isPathAffectedBy (source : FileSource) (old : String) (f : RecentFileEntry) : Bool :=
  isSameFileSource f.source source && isPathUnder f.path old

/-- The entry under its new path. -/
def move (old new : String) (f : RecentFileEntry) : RecentFileEntry :=
  { f with path := remapPathUnder f.path old new, name := nameOf (remapPathUnder f.path old new) }

end RecentFileEntry

/-! ## The actions -/

def maxRecent : Nat := 50

def addRecent (entry : RecentFileEntry) (files : List RecentFileEntry) : List RecentFileEntry :=
  (entry :: files.filter (·.key ≠ entry.key)).take maxRecent

structure Renaming where
  slots : Slots RecentFileEntry String
  changed : Bool

/-- The entry that is renamed says what the joined one is, and the newer of the two when it was opened. -/
def Renaming.step (source : FileSource) (old new : String) (r : Renaming) (file : RecentFileEntry) : Renaming :=
  let affected := file.isPathAffectedBy source old
  let renamed := if affected then file.move old new else file
  { slots := r.slots.place RecentFileEntry.key renamed fun existing =>
      { (if affected then renamed else existing) with openedAt := max existing.openedAt renamed.openedAt }
    changed := r.changed || affected || (r.slots.indexByKey renamed.key).isSome }

def renamePath (source : FileSource) (old new : String) (files : List RecentFileEntry) : List RecentFileEntry :=
  let r := files.foldl (Renaming.step source old new) ⟨.empty, false⟩
  if r.changed then r.slots.next else files

def removePath (source : FileSource) (path : String) (files : List RecentFileEntry) : List RecentFileEntry :=
  files.filter fun f => !f.isPathAffectedBy source path

inductive RecentOp where
  | addRecent (entry : RecentFileEntry)
  | renamePath (source : FileSource) (old new : String)
  | removePath (source : FileSource) (path : String)
  | clear
  deriving Repr, DecidableEq

def RecentOp.apply : RecentOp → List RecentFileEntry → List RecentFileEntry
  | .addRecent entry, files => Recent.addRecent entry files
  | .renamePath source old new, files => Recent.renamePath source old new files
  | .removePath source path, files => Recent.removePath source path files
  | .clear, _ => []

def run (ops : List RecentOp) : List RecentFileEntry := ops.foldl (fun files op => op.apply files) []

end Purdex.Recent
