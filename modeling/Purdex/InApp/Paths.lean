/-
Paths of the In-App storage: everything lies under one root, a path is a list of names with slashes between them.
-/
import Purdex.Text.Joined
import Purdex.Text.Utf16

namespace Purdex.InApp

open Utf16

/-! ## Texts -/

/-- The units of a text of ASCII characters. -/
def ascii (s : String) : Units := s.toList.map fun c => UInt16.ofNat c.toNat

def slash : UInt16 := 0x2F

def backslash : UInt16 := 0x5C

/-! ## Paths -/

def storageRoot : Units := ascii "/buffer"

/-- The pieces of all segments, with a slash before them when the first segment has one. -/
def join (segs : List Units) : Units :=
  let parts := segs.flatMap fun seg => (seg.splitOn slash).filter (· ≠ [])
  let leading := if ∃ seg ∈ segs.head?, [slash] <+: seg then [slash] else []
  leading ++ [slash].intercalate parts

def relativeToRoot (path : Units) : Units :=
  if path = storageRoot then []
  else if storageRoot ++ [slash] <+: path then path.drop (storageRoot ++ [slash]).length
  else path

/-- A name that can stand between slashes. -/
structure NameOk (name : Units) : Prop where
  nonempty : name ≠ []
  unslashed : slash ∉ name
  plain : backslash ∉ name
  noNul : 0 ∉ name
  here : name ≠ ascii "."
  above : name ≠ ascii ".."

/-- The key of what has these names below the root. -/
def keyOf (names : List Units) : Units := [slash].intercalate ([] :: ascii "buffer" :: names)

section Paths

variable {names above : List Units} {name path rest : Units}

theorem intercalate_append {segs : List Units} (h : segs ≠ []) {more : List Units} (hmore : more ≠ []) :
    [slash].intercalate (segs ++ more) = [slash].intercalate segs ++ slash :: [slash].intercalate more := by
  induction segs with
  | nil => exact absurd rfl h
  | cons seg segs ih =>
    cases segs with
    | nil =>
      rw [List.singleton_append, List.intercalate_cons_of_ne_nil hmore, List.intercalate_singleton, List.append_assoc,
        List.singleton_append]
    | cons seg' segs =>
      rw [List.cons_append, List.intercalate_cons_of_ne_nil (List.append_ne_nil_of_left_ne_nil (List.cons_ne_nil _ _) _),
        ih (List.cons_ne_nil _ _), List.intercalate_cons_cons, List.append_assoc, List.append_assoc, List.append_assoc]

theorem unslashed_splitOn : ∀ seg ∈ path.splitOn slash, slash ∉ seg := Joined.not_mem_splitOn

theorem unslashed_buffer : slash ∉ ascii "buffer" := by decide

theorem unslashed_segments (h : ∀ name ∈ names, slash ∉ name) : ∀ seg ∈ [] :: ascii "buffer" :: names, slash ∉ seg :=
  List.forall_mem_cons.2 ⟨List.not_mem_nil, List.forall_mem_cons.2 ⟨unslashed_buffer, h⟩⟩

theorem splitOn_keyOf (h : ∀ name ∈ names, slash ∉ name) : (keyOf names).splitOn slash = [] :: ascii "buffer" :: names :=
  List.splitOn_intercalate slash (unslashed_segments h) (List.cons_ne_nil _ _)

theorem keyOf_injective (h : ∀ name ∈ names, slash ∉ name) (h' : ∀ name ∈ above, slash ∉ name) (heq : keyOf names = keyOf above) :
    names = above := by
  have hsplit := congrArg (List.splitOn slash) heq
  rw [splitOn_keyOf h, splitOn_keyOf h'] at hsplit
  exact (List.cons.inj (List.cons.inj hsplit).2).2

theorem keyOf_append (h : names ≠ []) : keyOf (above ++ names) = keyOf above ++ slash :: [slash].intercalate names := by
  rw [keyOf, keyOf, ← List.cons_append, ← List.cons_append]
  exact intercalate_append (List.cons_ne_nil _ _) h

theorem keyOf_concat : keyOf (above ++ [name]) = keyOf above ++ slash :: name := by
  rw [keyOf_append (List.cons_ne_nil _ _), List.intercalate_singleton]

theorem keyOf_nil : keyOf [] = storageRoot := by decide

theorem keyOf_eq (h : names ≠ []) : keyOf names = storageRoot ++ slash :: [slash].intercalate names := by
  rw [← keyOf_nil, ← keyOf_append h, List.nil_append]

/-- A key with the key of a directory and a slash in front is of names below that directory. -/
theorem names_of_below (h : ∀ name ∈ names, slash ∉ name) (habove : ∀ name ∈ above, slash ∉ name)
    (heq : keyOf names = keyOf above ++ slash :: rest) : names = above ++ rest.splitOn slash := by
  have hsplit := congrArg (List.splitOn slash) heq
  rw [splitOn_keyOf h, List.splitOn_append_cons_self, splitOn_keyOf habove] at hsplit
  exact (List.cons.inj (List.cons.inj hsplit).2).2

theorem relativeToRoot_keyOf (h : names ≠ []) : relativeToRoot (keyOf names) = [slash].intercalate names := by
  have hkey : keyOf names = (storageRoot ++ [slash]) ++ [slash].intercalate names := by
    rw [keyOf_eq h, List.append_assoc, List.singleton_append]
  have hne : keyOf names ≠ storageRoot := fun heq => by
    have hlength := congrArg List.length heq
    rw [hkey, List.length_append, List.length_append, List.length_singleton] at hlength
    omega
  rw [relativeToRoot, if_neg hne, if_pos ⟨_, hkey.symm⟩, hkey, List.drop_left]

/-- Joined behind the root, a relative path is a key. -/
theorem join_root (h : ∀ seg ∈ path.splitOn slash, seg ≠ []) : join [storageRoot, path] = keyOf (path.splitOn slash) := by
  have hroot : (storageRoot.splitOn slash).filter (· ≠ []) = [ascii "buffer"] := by decide
  have hparts : (path.splitOn slash).filter (· ≠ []) = path.splitOn slash :=
    List.filter_eq_self.2 fun seg hseg => decide_eq_true (h seg hseg)
  have hleading : ∃ seg ∈ [storageRoot, path].head?, [slash] <+: seg := ⟨storageRoot, rfl, by decide⟩
  simp only [join, List.flatMap_cons, List.flatMap_nil, List.append_nil, hroot, hparts, if_pos hleading, List.singleton_append]
  rw [keyOf, List.intercalate_cons_of_ne_nil (List.cons_ne_nil _ _), List.nil_append, List.singleton_append]

/-- Joined behind a directory, a name is a key in it. -/
theorem join_name (h : ∀ name ∈ above, NameOk name) (hname : NameOk name) : join [keyOf above, name] = keyOf (above ++ [name]) := by
  have habove : ((keyOf above).splitOn slash).filter (· ≠ []) = ascii "buffer" :: above := by
    rw [splitOn_keyOf fun name hmem => (h name hmem).unslashed, List.filter_cons, if_neg (by simp)]
    refine List.filter_eq_self.2 fun seg hseg => decide_eq_true ?_
    rcases List.mem_cons.1 hseg with rfl | hseg
    · decide
    · exact (h seg hseg).nonempty
  have hpiece : (name.splitOn slash).filter (· ≠ []) = [name] := by
    rw [List.splitOn_eq_singleton hname.unslashed, List.filter_singleton, decide_eq_true hname.nonempty, cond_true]
  have hleading : ∃ seg ∈ [keyOf above, name].head?, [slash] <+: seg := by
    refine ⟨keyOf above, rfl, [slash].intercalate (ascii "buffer" :: above), ?_⟩
    rw [keyOf, List.intercalate_cons_of_ne_nil (List.cons_ne_nil _ _), List.nil_append]
  simp only [join, List.flatMap_cons, List.flatMap_nil, List.append_nil, habove, hpiece, if_pos hleading]
  rw [keyOf, List.intercalate_cons_of_ne_nil (List.cons_ne_nil _ _), List.nil_append]
  rfl

end Paths

end Purdex.InApp
