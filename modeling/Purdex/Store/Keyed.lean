/-
Tables with a primary key, one row a key, and a statement that gives a row another key. Where the other key is taken the
statement fails; the same statement with its keys exchanged takes it back, or not.
-/
import Mathlib.Logic.Function.Basic

variable {κ ρ : Type} [DecidableEq κ]

/-- A table by its primary key. -/
abbrev Keyed (κ ρ : Type) := κ → Option ρ

namespace Keyed

/-- `UPDATE t SET key = new WHERE key = old`, which fails on the key of another row. -/
def rekey (old new : κ) (t : Keyed κ ρ) : Option (Keyed κ ρ) :=
  if old = new then some t
  else match t old with
    | none => some t
    | some row => if (t new).isSome then none else some (Function.update (Function.update t new (some row)) old none)

variable {t t' : Keyed κ ρ} {old new key : κ} {row : ρ}

theorem rekey_self : rekey old old t = some t := if_pos rfl

theorem rekey_none (h : t old = none) : rekey old new t = some t := by
  unfold rekey
  rw [h]
  exact ite_self _

theorem rekey_some (hne : old ≠ new) (hold : t old = some row) (hnew : t new = none) :
    rekey old new t = some (Function.update (Function.update t new (some row)) old none) := by
  simp [rekey, hne, hold, hnew]

/-- The row moves, and the others stay. -/
theorem rekey_spec (hne : old ≠ new) (h : rekey old new t = some t') :
    t old = none ∧ t' = t ∨
      ∃ row, t old = some row ∧ t new = none ∧ t' = Function.update (Function.update t new (some row)) old none := by
  cases hold : t old with
  | none =>
    rw [rekey_none hold] at h
    exact .inl ⟨rfl, (Option.some.inj h).symm⟩
  | some row =>
    cases hnew : t new with
    | some other => simp [rekey, hne, hold, hnew] at h
    | none =>
      rw [rekey_some hne hold hnew] at h
      exact .inr ⟨row, rfl, rfl, (Option.some.inj h).symm⟩

theorem rekey_other (h : rekey old new t = some t') (hkey : key ≠ old) (hrow : t key = some row) : t' key = some row := by
  by_cases hne : old = new
  · rw [hne, rekey_self] at h
    exact Option.some.inj h ▸ hrow
  · rcases rekey_spec hne h with ⟨-, rfl⟩ | ⟨row', -, hnew, rfl⟩
    · exact hrow
    · have hkey' : key ≠ new := fun heq => by simp [heq, hnew] at hrow
      rw [Function.update_of_ne hkey, Function.update_of_ne hkey', hrow]

/-- The statement is its own inverse but for a row that was under the new key from the start. -/
theorem rekey_back_iff (h : rekey old new t = some t') : rekey new old t' = some t ↔ old = new ∨ t old ≠ none ∨ t new = none := by
  by_cases hne : old = new
  · subst hne
    rw [rekey_self] at h ⊢
    exact iff_of_true (congrArg some (Option.some.inj h).symm) (.inl rfl)
  · rcases rekey_spec hne h with ⟨hold, rfl⟩ | ⟨row, hold, hnew, rfl⟩
    · cases hnew : t' new with
      | none => exact iff_of_true (rekey_none hnew) (.inr (.inr rfl))
      | some row =>
        refine iff_of_false (fun heq => ?_) (by simp [hne, hold])
        rw [rekey_some (Ne.symm hne) hnew hold] at heq
        have hgone := congrFun (Option.some.inj heq) new
        rw [Function.update_self, hnew] at hgone
        cases hgone
    · refine iff_of_true ?_ (.inr (.inl (by simp [hold])))
      have hold' : Function.update (Function.update t new (some row)) old none old = none := Function.update_self _ _ _
      have hnew' : Function.update (Function.update t new (some row)) old none new = some row := by
        rw [Function.update_of_ne (Ne.symm hne), Function.update_self]
      rw [rekey_some (Ne.symm hne) hnew' hold']
      refine congrArg some (funext fun key => ?_)
      by_cases hkey : key = new
      · rw [hkey, Function.update_self, hnew]
      · rw [Function.update_of_ne hkey]
        by_cases hkey' : key = old
        · rw [hkey', Function.update_self, hold]
        · rw [Function.update_of_ne hkey', Function.update_of_ne hkey', Function.update_of_ne hkey]

/-- Taking back never meets a key that is taken. -/
theorem rekey_back_isSome (h : rekey old new t = some t') : (rekey new old t').isSome := by
  by_cases hne : old = new
  · rw [hne, rekey_self]
    rfl
  · rcases rekey_spec hne h with ⟨hold, rfl⟩ | ⟨row, hold, hnew, rfl⟩
    · cases hnew : t' new with
      | none => rw [rekey_none hnew]; rfl
      | some row => rw [rekey_some (Ne.symm hne) hnew hold]; rfl
    · rw [(rekey_back_iff h).2 (.inr (.inl (by simp [hold])))]
      rfl

end Keyed
