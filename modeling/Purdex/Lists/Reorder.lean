/-
Putting elements of a list elsewhere: splices, and orders that are given by someone who may not know
the list as it is.
-/
import Mathlib.Data.List.Perm.Basic
import Mathlib.Data.List.Perm.Subperm
import Mathlib.Data.List.Nodup

namespace Reorder

variable {α : Type}

/-! ## Splices -/

/-- Where a splice begins: from the end where the index is negative. -/
def spliceStart (l : List α) (i : Int) : Nat := if i < 0 then (l.length + i).toNat else i.toNat

/-- `splice(i, 0, ...items)`. -/
def spliceAt (l : List α) (i : Int) (items : List α) : List α := l.take (spliceStart l i) ++ items ++ l.drop (spliceStart l i)

/-- `splice(i, 1)`. -/
def spliceOut (l : List α) (i : Int) : List α := l.eraseIdx (spliceStart l i)

theorem spliceAt_perm (l : List α) (i : Int) (items : List α) : (spliceAt l i items).Perm (items ++ l) := by
  unfold spliceAt
  refine (List.perm_append_comm.append_right _).trans ?_
  rw [List.append_assoc, List.take_append_drop]

section Moves

variable [DecidableEq α]

/-- The first place of `a`, and -1 where it has none. -/
def indexOf (l : List α) (a : α) : Int := (l.idxOf? a).elim (-1) Int.ofNat

theorem spliceOut_indexOf {l : List α} {a : α} (h : a ∈ l) : spliceOut l (indexOf l a) = l.erase a := by
  rw [List.erase_eq_eraseIdx, spliceOut, indexOf]
  cases hidx : l.idxOf? a with
  | none => exact absurd h (List.idxOf?_eq_none_iff.1 hidx)
  | some i =>
    have hstart : spliceStart l (Int.ofNat i) = i := if_neg (by simp)
    rw [Option.elim_some, hstart]

/-- Taking an element out and putting it back elsewhere. -/
theorem splice_move_perm {l : List α} {a : α} (h : a ∈ l) (i : Int) : (spliceAt (spliceOut l (indexOf l a)) i [a]).Perm l := by
  rw [spliceOut_indexOf h]
  exact (spliceAt_perm _ _ _).trans (List.perm_cons_erase h).symm

/-- The same where the element is filtered out. -/
theorem cons_filter_perm {l : List α} {a : α} (hnodup : l.Nodup) (h : a ∈ l) : (a :: l.filter (· ≠ a)).Perm l := by
  refine (List.perm_ext_iff_of_nodup ?_ hnodup).2 fun b => ?_
  · rw [List.nodup_cons]
    exact ⟨by simp, hnodup.filter _⟩
  · rw [List.mem_cons, List.mem_filter, decide_eq_true_eq]
    by_cases hb : b = a
    · simp [hb, h]
    · simp [hb]

/-! ## Orders from outside -/

/-- The elements of `newOrder` that are known, each once. -/
def knownOnce (known newOrder : List α) : List α :=
  newOrder.foldl (fun filtered a => if a ∈ known ∧ a ∉ filtered then filtered ++ [a] else filtered) []

theorem mem_knownOnce {known newOrder : List α} {a : α} : a ∈ knownOnce known newOrder ↔ a ∈ newOrder ∧ a ∈ known := by
  have hfold : ∀ l acc : List α, a ∈ l.foldl (fun filtered a => if a ∈ known ∧ a ∉ filtered then filtered ++ [a] else filtered) acc ↔
      a ∈ acc ∨ (a ∈ l ∧ a ∈ known) := by
    intro l
    induction l with
    | nil => simp
    | cons b rest ih =>
      intro acc
      rw [List.foldl_cons, ih]
      by_cases hb : b ∈ known ∧ b ∉ acc
      · rw [if_pos hb]
        rw [List.mem_append, List.mem_singleton, List.mem_cons]
        constructor
        · rintro ((h | rfl) | h)
          · exact .inl h
          · exact .inr ⟨.inl rfl, hb.1⟩
          · exact .inr ⟨.inr h.1, h.2⟩
        · rintro (h | ⟨rfl | h, hk⟩)
          · exact .inl (.inl h)
          · exact .inl (.inr rfl)
          · exact .inr ⟨h, hk⟩
      · rw [if_neg hb]
        rw [List.mem_cons]
        constructor
        · rintro (h | h)
          · exact .inl h
          · exact .inr ⟨.inr h.1, h.2⟩
        · rintro (h | ⟨rfl | h, hk⟩)
          · exact .inl h
          · exact .inl (by_contra fun hacc => hb ⟨hk, hacc⟩)
          · exact .inr ⟨h, hk⟩
  rw [knownOnce, hfold]
  simp

theorem nodup_knownOnce (known newOrder : List α) : (knownOnce known newOrder).Nodup := by
  have hfold : ∀ l acc : List α, acc.Nodup →
      (l.foldl (fun filtered a => if a ∈ known ∧ a ∉ filtered then filtered ++ [a] else filtered) acc).Nodup := by
    intro l
    induction l with
    | nil => exact fun acc h => h
    | cons b rest ih =>
      intro acc h
      rw [List.foldl_cons]
      refine ih _ ?_
      split
      · rename_i hb
        exact List.nodup_append.2 ⟨h, List.nodup_singleton _, by rintro a ha _ (_ | ⟨_, ⟨⟩⟩) rfl; exact hb.2 ha⟩
      · exact h
  exact hfold _ _ List.nodup_nil

/-- What `newOrder` names of the known elements, and behind that what it does not. -/
theorem knownOnce_append_perm {known newOrder : List α} (h : known.Nodup) :
    (knownOnce known newOrder ++ known.filter (· ∉ knownOnce known newOrder)).Perm known := by
  refine (List.perm_ext_iff_of_nodup ?_ h).2 fun a => ?_
  · refine List.nodup_append.2 ⟨nodup_knownOnce _ _, h.filter _, ?_⟩
    rintro a ha b hb rfl
    exact (by simpa using hb : a ∈ known ∧ a ∉ knownOnce known newOrder).2 ha
  · simp only [List.mem_append, List.mem_filter, decide_eq_true_eq, mem_knownOnce]
    tauto

end Moves

end Reorder
