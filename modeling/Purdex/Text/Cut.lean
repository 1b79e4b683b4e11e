/-
A text cut at the first place a pattern stands. A pattern whose first letter comes only once in it does not overlap itself, so what is in
front of one can be told from what is behind it.
-/
import Mathlib.Data.List.Infix

namespace Cut

variable {α : Type} [DecidableEq α]

/-- What is before the pattern and what is behind it. -/
def cut (pat : List α) : List α → Option (List α × List α)
  | [] => if pat = [] then some ([], []) else none
  | a :: l =>
    if pat <+: a :: l then some ([], (a :: l).drop pat.length)
    else (cut pat l).map fun (front, back) => (a :: front, back)

variable {pat l front back : List α}

theorem cut_some (h : cut pat l = some (front, back)) : l = front ++ pat ++ back := by
  induction l generalizing front with
  | nil =>
    rw [cut] at h
    split at h
    · rename_i hpat
      cases h
      rw [hpat]
      rfl
    · cases h
  | cons a l ih =>
    rw [cut] at h
    split at h
    · rename_i hpat
      cases h
      obtain ⟨rest, hrest⟩ := hpat
      rw [← hrest, List.drop_left, List.nil_append]
    · obtain ⟨⟨front', back'⟩, hcut, heq⟩ := Option.map_eq_some_iff.1 h
      cases heq
      rw [ih hcut]
      rfl

theorem cut_eq_none : cut pat l = none ↔ ¬pat <:+: l := by
  induction l with
  | nil =>
    rw [cut, List.infix_nil]
    split <;> simp_all
  | cons a l ih =>
    rw [cut, List.infix_cons_iff]
    split
    · rename_i hpat
      simp [hpat]
    · rename_i hpat
      rw [Option.map_eq_none_iff, ih]
      simp [hpat]

theorem length_of_cut (h : cut pat l = some (front, back)) : l.length = front.length + pat.length + back.length := by
  rw [cut_some h, List.length_append, List.length_append]

/-! ## Patterns that begin with a letter of their own -/

section First

variable {a : α} {tail : List α}

/-- A text without the first letter is passed over. -/
theorem cut_append_left {piece : List α} (h : a ∉ piece) (l : List α) :
    cut (a :: tail) (piece ++ l) = (cut (a :: tail) l).map fun (front, back) => (piece ++ front, back) := by
  induction piece with
  | nil =>
    rw [List.nil_append]
    cases cut (a :: tail) l <;> rfl
  | cons b piece ih =>
    obtain ⟨hb, hpiece⟩ := not_or.1 (mt List.mem_cons.2 h)
    have hpre : ¬a :: tail <+: b :: (piece ++ l) := fun hp => hb (List.cons_prefix_cons.1 hp).1
    rw [List.cons_append, cut, if_neg hpre, ih hpiece, Option.map_map]
    rfl

/-- No occurrence begins in front of the first and reaches into it. -/
theorem cut_append_self (ha : a ∉ tail) (hfree : ¬a :: tail <:+: front) (back : List α) :
    cut (a :: tail) (front ++ (a :: tail) ++ back) = some (front, back) := by
  induction front with
  | nil =>
    have hpre : a :: tail <+: a :: (tail ++ back) := List.prefix_append (a :: tail) back
    rw [List.nil_append, List.cons_append, cut, if_pos hpre, ← List.cons_append, List.drop_left]
  | cons b front ih =>
    have hpre : ¬a :: tail <+: b :: front ++ (a :: tail ++ back) := by
      intro hp
      rcases List.prefix_or_prefix_of_prefix hp (List.prefix_append (b :: front) _) with hin | hover
      · exact hfree hin.isInfix
      · obtain ⟨rest, hrest⟩ := hover
        obtain ⟨rfl, htail⟩ := List.cons.inj hrest
        obtain ⟨more, hmore⟩ := hp
        rw [← hrest, List.append_assoc] at hmore
        have hreach := List.append_cancel_left hmore
        cases rest with
        | nil => exact hfree (by rw [← hrest, List.append_nil])
        | cons c rest =>
          have hc := (List.cons.inj hreach).1
          exact ha (htail ▸ hc ▸ List.mem_append_right front List.mem_cons_self)
    rw [List.cons_append, List.cons_append, cut, if_neg (by rwa [List.append_assoc]), ih fun h => hfree (List.infix_cons h)]
    rfl

/-- The one pattern is passed over in search of the other. -/
theorem cut_other {tail' : List α} (ha : a ∉ tail') (hne : ¬a :: tail <+: a :: tail') (hne' : ¬a :: tail' <+: a :: tail) (l : List α) :
    cut (a :: tail) (a :: tail' ++ l) = (cut (a :: tail) l).map fun (front, back) => (a :: tail' ++ front, back) := by
  have hpre : ¬a :: tail <+: a :: (tail' ++ l) := by
    intro hp
    rcases List.prefix_or_prefix_of_prefix hp (List.prefix_append (a :: tail') l) with h | h
    · exact hne h
    · exact hne' h
  rw [List.cons_append, cut, if_neg hpre, cut_append_left ha, Option.map_map]
  rfl

end First

end Cut
