/-
Threads by their stages: a thread is a value that says how far it is, and takes one step at a time on the shared state,
with the others in between. What holds over whole runs, of the system or of each of its threads.
-/
import Purdex.Conc.Chan
import Mathlib.Logic.Function.Basic

namespace Conc

/-! ## Systems and their steps -/

/-- What the `i`-th thread does at its turn with what the outside gives it, unless it has to wait; and what the outside
does by itself. -/
structure Stages (σ τ ε ω : Type) where
  act : Nat → ε → τ → σ → Option (τ × σ)
  tick : ω → σ → σ

/-- The shared state, and the threads in the order they began. -/
structure Staged (σ τ : Type) where
  shared : σ
  threads : List τ

inductive Move (τ ε ω : Type) where
  | start (t : τ)
  | turn (i : Nat) (e : ε)
  | outside (o : ω)

/-- A move that was made, and where. -/
structure Moved (σ τ ε ω : Type) where
  move : Move τ ε ω
  pre : Staged σ τ

variable {σ τ ε ω : Type} (m : Stages σ τ ε ω)

namespace Stages

def step : Move τ ε ω → Staged σ τ → Option (Staged σ τ)
  | .start t, w => some { w with threads := w.threads ++ [t] }
  | .turn i e, w => w.threads[i]?.bind fun t => (m.act i e t w.shared).map fun (t', s') => ⟨s', w.threads.set i t'⟩
  | .outside o, w => some { w with shared := m.tick o w.shared }

variable {m} {w w' : Staged σ τ} {mv : Move τ ε ω}

/-- Everything a move can do. -/
theorem step_cases (h : m.step mv w = some w') :
    (∃ t, mv = .start t ∧ w' = ⟨w.shared, w.threads ++ [t]⟩) ∨
    (∃ i e t t' s', mv = .turn i e ∧ w.threads[i]? = some t ∧ m.act i e t w.shared = some (t', s') ∧ w' = ⟨s', w.threads.set i t'⟩) ∨
    ∃ o, mv = .outside o ∧ w' = ⟨m.tick o w.shared, w.threads⟩ := by
  cases mv with
  | start t => exact .inl ⟨t, rfl, (Option.some.inj h).symm⟩
  | turn i e =>
    obtain ⟨t, ht, hmap⟩ := Option.bind_eq_some_iff.1 h
    obtain ⟨⟨t', s'⟩, hact, rfl⟩ := Option.map_eq_some_iff.1 hmap
    exact .inr (.inl ⟨i, e, t, t', s', rfl, ht, hact, rfl⟩)
  | outside o => exact .inr (.inr ⟨o, rfl, (Option.some.inj h).symm⟩)

theorem step_turn {i : Nat} {e : ε} {t t' : τ} {s' : σ} (ht : w.threads[i]? = some t) (hact : m.act i e t w.shared = some (t', s')) :
    m.step (.turn i e) w = some ⟨s', w.threads.set i t'⟩ := by
  simp only [step, ht, Option.bind_some, hact, Option.map_some]

/-! ## Runs -/

variable (m) in
/-- The runs from an initial state by moves that `ok` allows, each with the moves it made, newest first. -/
inductive Runs (Init : Staged σ τ → Prop) (ok : Staged σ τ → Move τ ε ω → Prop) : Staged σ τ → List (Moved σ τ ε ω) → Prop where
  | init {w : Staged σ τ} : Init w → Runs Init ok w []
  | step {w w' : Staged σ τ} {tr : List (Moved σ τ ε ω)} {mv : Move τ ε ω} : Runs Init ok w tr → ok w mv → m.step mv w = some w' →
      Runs Init ok w' (⟨mv, w⟩ :: tr)

variable {Init : Staged σ τ → Prop} {ok : Staged σ τ → Move τ ε ω → Prop} {tr : List (Moved σ τ ε ω)}

/-- The induction rule, for what may speak of the moves as well. -/
theorem Runs.invariant {P : Staged σ τ → List (Moved σ τ ε ω) → Prop} (h0 : ∀ w, Init w → P w [])
    (hs : ∀ w w' tr mv, m.Runs Init ok w tr → P w tr → ok w mv → m.step mv w = some w' → P w' (⟨mv, w⟩ :: tr))
    (hr : m.Runs Init ok w tr) : P w tr := by
  induction hr with
  | init hinit => exact h0 _ hinit
  | step hr hok hst ih => exact hs _ _ _ _ hr ih hok hst

/-- Every move of a run was made in a state that a run gets to, and allowed there. -/
theorem Runs.of_append {d : Moved σ τ ε ω} {newer older : List (Moved σ τ ε ω)} (hr : m.Runs Init ok w tr) (heq : tr = newer ++ d :: older) :
    m.Runs Init ok d.pre older ∧ ok d.pre d.move := by
  induction hr generalizing newer with
  | init _ => simp at heq
  | step hr hok hst ih =>
    cases newer with
    | nil =>
      obtain ⟨rfl, rfl⟩ := List.cons.inj heq
      exact ⟨hr, hok⟩
    | cons d' newer => exact ih (List.cons.inj heq).2

theorem Runs.of_mem {d : Moved σ τ ε ω} (hr : m.Runs Init ok w tr) (hd : d ∈ tr) : ∃ older, m.Runs Init ok d.pre older ∧ ok d.pre d.move := by
  obtain ⟨newer, older, heq⟩ := List.append_of_mem hd
  exact ⟨older, hr.of_append heq⟩

/-- Play moves, refusing those that `ok` does not allow. -/
def play (m : Stages σ τ ε ω) (ok : Staged σ τ → Move τ ε ω → Bool) : List (Move τ ε ω) → Staged σ τ → List (Moved σ τ ε ω) →
    Option (Staged σ τ × List (Moved σ τ ε ω))
  | [], w, tr => some (w, tr)
  | mv :: mvs, w, tr => if ok w mv then (m.step mv w).bind fun w' => play m ok mvs w' (⟨mv, w⟩ :: tr) else none

theorem Runs.play {okB : Staged σ τ → Move τ ε ω → Bool} (hok : ∀ w mv, okB w mv = true → ok w mv) : ∀ {mvs : List (Move τ ε ω)}
    {w w' : Staged σ τ} {tr tr' : List (Moved σ τ ε ω)}, m.Runs Init ok w tr → m.play okB mvs w tr = some (w', tr') → m.Runs Init ok w' tr'
  | [], _, _, _, _, hr, h => by
    obtain ⟨rfl, rfl⟩ := Prod.mk.inj (Option.some.inj h)
    exact hr
  | mv :: mvs, w, _, _, _, hr, h => by
    simp only [Stages.play] at h
    split at h
    · rename_i hb
      obtain ⟨w₁, hst, hrest⟩ := Option.bind_eq_some_iff.1 h
      exact Runs.play hok (hr.step (hok w mv hb) hst) hrest
    · cases h

end Stages

/-! ## Registries -/

section Registries

variable {κ : Type} {f : τ → Option κ} {reg : κ → Option Nat} {ts : List τ} {t t' u : τ} {i j : Nat} {k : κ}

/-- A registry with the threads that are entered under a key: each of them, and no other. -/
def Tracks (reg : κ → Option Nat) (ts : List τ) (f : τ → Option κ) : Prop :=
  ∀ k j, reg k = some j ↔ ∃ t, ts[j]? = some t ∧ f t = some k

theorem Tracks.of_get (h : Tracks reg ts f) (hget : ts[i]? = some t) (ht : f t = some k) : reg k = some i := (h k i).2 ⟨t, hget, ht⟩

/-- Only one thread is entered under a key. -/
theorem Tracks.unique (h : Tracks reg ts f) (hi : ts[i]? = some t) (hj : ts[j]? = some u) (ht : f t = some k) (hu : f u = some k) : i = j :=
  Option.some.inj ((h.of_get hi ht).symm.trans (h.of_get hj hu))

theorem Tracks.append (h : Tracks reg ts f) (ht : f t = none) : Tracks reg (ts ++ [t]) f := fun k j => by
  rw [h k j]
  constructor
  · rintro ⟨u, hu, huk⟩
    exact ⟨u, getElem?_append_of_some hu, huk⟩
  · rintro ⟨u, hu, huk⟩
    rcases of_getElem?_append hu with hu | ⟨-, rfl⟩
    · exact ⟨u, hu, huk⟩
    · rw [ht] at huk
      cases huk

/-- A thread that stays where it is entered. -/
theorem Tracks.set (h : Tracks reg ts f) (hget : ts[i]? = some t) (hf : f t' = f t) : Tracks reg (ts.set i t') f := fun k j => by
  rw [h k j]
  constructor
  · rintro ⟨u, hu, huk⟩
    by_cases hij : i = j
    · subst hij
      obtain rfl := Option.some.inj (hget.symm.trans hu)
      exact ⟨t', (getElem?_set_of_some hget i).trans (if_pos rfl), hf.trans huk⟩
    · exact ⟨u, (getElem?_set_of_some hget j).trans ((if_neg hij).trans hu), huk⟩
  · rintro ⟨u, hu, huk⟩
    rw [getElem?_set_of_some hget] at hu
    split at hu
    · rename_i hij
      subst hij
      obtain rfl := Option.some.inj hu
      exact ⟨t, hget, hf.symm.trans huk⟩
    · exact ⟨u, hu, huk⟩

variable [DecidableEq κ]

/-- A thread enters itself where nobody is. -/
theorem Tracks.claim (h : Tracks reg ts f) (hget : ts[i]? = some t) (hnone : reg k = none) (ht : f t = none) (ht' : f t' = some k) :
    Tracks (Function.update reg k (some i)) (ts.set i t') f := fun k' j => by
  rw [Function.update_apply]
  constructor
  · split
    · rintro ⟨⟩
      rename_i hk
      exact ⟨t', (getElem?_set_of_some hget i).trans (if_pos rfl), hk ▸ ht'⟩
    · intro hreg
      obtain ⟨u, hu, huk⟩ := (h k' j).1 hreg
      have hij : i ≠ j := fun heq => by
        subst heq
        obtain rfl := Option.some.inj (hget.symm.trans hu)
        rw [ht] at huk
        cases huk
      exact ⟨u, (getElem?_set_of_some hget j).trans ((if_neg hij).trans hu), huk⟩
  · rintro ⟨u, hu, huk⟩
    rw [getElem?_set_of_some hget] at hu
    split at hu
    · rename_i hij
      subst hij
      obtain rfl := Option.some.inj hu
      rw [if_pos (Option.some.inj (huk.symm.trans ht'))]
    · have hreg := h.of_get hu huk
      rw [if_neg (fun hk => by rw [hk, hnone] at hreg; cases hreg), hreg]

/-- A thread leaves. -/
theorem Tracks.release (h : Tracks reg ts f) (hget : ts[i]? = some t) (ht : f t = some k) (ht' : f t' = none) :
    Tracks (Function.update reg k none) (ts.set i t') f := fun k' j => by
  rw [Function.update_apply]
  constructor
  · split
    · nofun
    · intro hreg
      rename_i hk
      obtain ⟨u, hu, huk⟩ := (h k' j).1 hreg
      have hij : i ≠ j := fun heq => by
        subst heq
        obtain rfl := Option.some.inj (hget.symm.trans hu)
        exact hk (Option.some.inj (huk.symm.trans ht))
      exact ⟨u, (getElem?_set_of_some hget j).trans ((if_neg hij).trans hu), huk⟩
  · rintro ⟨u, hu, huk⟩
    rw [getElem?_set_of_some hget] at hu
    split at hu
    · obtain rfl := Option.some.inj hu
      rw [ht'] at huk
      cases huk
    · rename_i hij
      have hk : k' ≠ k := fun heq => hij (h.unique hget hu ht (heq ▸ huk))
      rw [if_neg hk, h.of_get hu huk]

end Registries

end Conc
