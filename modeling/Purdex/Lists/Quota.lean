/-
The first few elements of each class: every class has a quota or none, and an element is kept as long as its class has some of it left.
-/
import Mathlib.Data.List.Basic
import Mathlib.Data.List.TakeWhile
import Mathlib.Logic.Function.Basic

namespace Quota

variable {α κ : Type} [DecidableEq κ] {cls : α → κ} {left left' : κ → Option Nat} {l : List α} {a : α} {c : κ}

/-- `none` is no quota at all. -/
def quota (cls : α → κ) : (κ → Option Nat) → List α → List α
  | _, [] => []
  | left, a :: l =>
    match left (cls a) with
    | none => a :: quota cls left l
    | some 0 => quota cls left l
    | some (n + 1) => a :: quota cls (Function.update left (cls a) (some n)) l

attribute [local simp] quota

theorem quota_of_none (h : left (cls a) = none) : quota cls left (a :: l) = a :: quota cls left l := by simp [h]

theorem quota_of_zero (h : left (cls a) = some 0) : quota cls left (a :: l) = quota cls left l := by simp [h]

theorem quota_of_succ {n : Nat} (h : left (cls a) = some (n + 1)) :
    quota cls left (a :: l) = a :: quota cls (Function.update left (cls a) (some n)) l := by simp [h]

theorem quota_sublist (left : κ → Option Nat) (l : List α) : (quota cls left l).Sublist l := by
  induction l generalizing left with
  | nil => exact List.Sublist.refl _
  | cons a l ih =>
    rcases hleft : left (cls a) with _ | _ | n
    · rw [quota_of_none hleft]
      exact (ih left).cons_cons a
    · rw [quota_of_zero hleft]
      exact (ih left).cons a
    · rw [quota_of_succ hleft]
      exact (ih _).cons_cons a

/-- What is kept of one class. -/
def ofClass (cls : α → κ) (c : κ) (l : List α) : List α := l.filter fun a => cls a = c

theorem ofClass_cons_self (h : cls a = c) : ofClass cls c (a :: l) = a :: ofClass cls c l := List.filter_cons_of_pos (by simpa using h)

theorem ofClass_cons_of_ne (h : cls a ≠ c) : ofClass cls c (a :: l) = ofClass cls c l := List.filter_cons_of_neg (by simpa using h)

/-- As many as `n` allows. -/
def upTo (n : Option Nat) (l : List α) : List α := n.elim l fun n => l.take n

@[simp] theorem upTo_none : upTo none l = l := rfl

@[simp] theorem upTo_zero : upTo (some 0) l = [] := rfl

theorem ofClass_quota (left : κ → Option Nat) (l : List α) : ofClass cls c (quota cls left l) = upTo (left c) (ofClass cls c l) := by
  induction l generalizing left with
  | nil => cases left c <;> simp [ofClass, upTo]
  | cons a l ih =>
    by_cases hc : cls a = c
    · rcases hleft : left (cls a) with _ | _ | n
      · rw [quota_of_none hleft, ofClass_cons_self hc, ofClass_cons_self hc, ih, ← hc, hleft]
        rfl
      · rw [quota_of_zero hleft, ih, ← hc, hleft]
        rfl
      · rw [quota_of_succ hleft, ofClass_cons_self hc, ofClass_cons_self hc, ih, ← hc, hleft, Function.update_self]
        rfl
    · rw [ofClass_cons_of_ne hc]
      rcases hleft : left (cls a) with _ | _ | n
      · rw [quota_of_none hleft, ofClass_cons_of_ne hc, ih]
      · rw [quota_of_zero hleft, ih]
      · rw [quota_of_succ hleft, ofClass_cons_of_ne hc, ih, Function.update_of_ne (Ne.symm hc)]

theorem mem_iff_ofClass : a ∈ l ↔ a ∈ ofClass cls (cls a) l := by
  rw [ofClass, List.mem_filter]
  simp

theorem mem_quota : a ∈ quota cls left l ↔ a ∈ upTo (left (cls a)) (ofClass cls (cls a) l) := by
  rw [← ofClass_quota]
  exact mem_iff_ofClass

/-- Whoever is not among the first `n` has `n` in front. -/
theorem pairwise_take {R : α → α → Prop} {n : Nat} (h : l.Pairwise R) (hmem : a ∈ l) (hout : a ∉ l.take n) :
    (l.take n).length = n ∧ ∀ b ∈ l.take n, R b a := by
  rw [← List.take_append_drop n l, List.mem_append] at hmem
  have hdrop := hmem.resolve_left hout
  refine ⟨?_, fun b hb => ?_⟩
  · have hpos := List.length_pos_of_mem hdrop
    rw [List.length_drop] at hpos
    rw [List.length_take]
    omega
  · rw [← List.take_append_drop n l] at h
    exact (List.pairwise_append.1 h).2.2 b hb a hdrop

end Quota
