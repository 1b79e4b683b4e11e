/-
The states that a machine gets to, by moves that can be made and are allowed, in any order.
-/

namespace Conc

variable {σ μ : Type} {step : μ → σ → Option σ} {s₀ s s' : σ} {ok ok' : σ → μ → Prop}

inductive Reach (step : μ → σ → Option σ) (s₀ : σ) (ok : σ → μ → Prop) : σ → Prop where
  | init : Reach step s₀ ok s₀
  | step {s s' : σ} {m : μ} : Reach step s₀ ok s → ok s m → step m s = some s' → Reach step s₀ ok s'

/-- The induction rule: what a move keeps where it may use that the state before it is reached. -/
theorem Reach.invariant {P : σ → Prop} (h0 : P s₀) (hs : ∀ s s' m, Reach step s₀ ok s → P s → ok s m → step m s = some s' → P s')
    (hr : Reach step s₀ ok s) : P s := by
  induction hr with
  | init => exact h0
  | step hr hok hstep ih => exact hs _ _ _ hr ih hok hstep

theorem Reach.mono (hmono : ∀ s m, ok s m → ok' s m) (hr : Reach step s₀ ok s) : Reach step s₀ ok' s := by
  induction hr with
  | init => exact .init
  | step _ hok hstep ih => exact ih.step (hmono _ _ hok) hstep

/-- Make moves one after another, as long as they are allowed. -/
def playAll (step : μ → σ → Option σ) (okB : σ → μ → Bool) : List μ → σ → Option σ
  | [], s => some s
  | m :: ms, s => if okB s m then (step m s).bind (playAll step okB ms) else none

theorem Reach.playAll {okB : σ → μ → Bool} (hok : ∀ s m, okB s m = true → ok s m) {ms : List μ} (hr : Reach step s₀ ok s)
    (h : playAll step okB ms s = some s') : Reach step s₀ ok s' := by
  induction ms generalizing s with
  | nil => exact Option.some.inj h ▸ hr
  | cons m ms ih =>
    rw [Conc.playAll] at h
    split at h
    · rename_i hb
      obtain ⟨t, ht, hrest⟩ := Option.bind_eq_some_iff.1 h
      exact ih (hr.step (hok s m hb) ht) hrest
    · cases h

/-! ## Runs of which every move is as it should be -/

section Always

variable {next : σ → μ → σ} {P Q : σ → μ → Prop}

/-- Every move of the run is made where `P` has it made. -/
def Always (next : σ → μ → σ) (P : σ → μ → Prop) : σ → List μ → Prop
  | _, [] => True
  | s, m :: ms => P s m ∧ Always next P (next s m) ms

/-- What a move does where the invariant holds settles what runs do from there. -/
theorem always_iff {Inv : σ → Prop} (hmove : ∀ s m, Inv s → (P s m ↔ Q s m)) (hkeep : ∀ s m, Inv s → P s m → Inv (next s m)) :
    ∀ (ms : List μ) {s : σ}, Inv s → (Always next P s ms ↔ Always next Q s ms)
  | [], _, _ => Iff.rfl
  | m :: ms, s, hs => by
    rw [Always, Always, hmove s m hs]
    refine and_congr_right fun hm => ?_
    exact always_iff hmove hkeep ms (hkeep s m hs ((hmove s m hs).2 hm))

end Always

end Conc
