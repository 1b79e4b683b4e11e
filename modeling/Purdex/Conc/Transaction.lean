/-
Transactions: statements against a database of which any may fail, committed together or rolled back.
-/
import Mathlib.Logic.Basic

namespace Conc

variable {σ ε α β : Type}

/-! ## What may fail -/

theorem except_bind_ok {x : Except ε α} {f : α → Except ε β} {b : β} :
    (x >>= f) = .ok b ↔ ∃ a, x = .ok a ∧ f a = .ok b := by
  cases x with
  | error e => exact ⟨nofun, fun ⟨_, h, _⟩ => nomatch h⟩
  | ok a => exact ⟨fun h => ⟨a, rfl, h⟩, fun ⟨_, h, hf⟩ => (Except.ok.inj h) ▸ hf⟩

theorem except_seq_ok {x : Except ε Unit} {y : Except ε β} {b : β} :
    (x >>= fun _ => y) = .ok b ↔ x = .ok () ∧ y = .ok b := by
  rw [except_bind_ok]
  exact ⟨fun ⟨_, h⟩ => h, fun h => ⟨(), h⟩⟩

/-! ## Transactions -/

/-- The body of a transaction. The statements are numbered, and `faults` says which of them fail. -/
def Tx (σ ε α : Type) : Type := (faults : Nat → Option ε) → Nat → σ → Except ε (α × Nat × σ)

namespace Tx

def pure (a : α) : Tx σ ε α := fun _ n s => .ok (a, n, s)

def bind (m : Tx σ ε α) (f : α → Tx σ ε β) : Tx σ ε β := fun faults n s =>
  match m faults n s with
  | .ok (a, n, s) => f a faults n s
  | .error e => .error e

instance : Monad (Tx σ ε) where
  pure := pure
  bind := bind

/-- Give the transaction up. -/
def abort (e : ε) : Tx σ ε α := fun _ _ _ => .error e

/-- One call out of the transaction, which fails by itself or does what `run` says. -/
def statement (run : σ → Except ε (α × σ)) : Tx σ ε α := fun faults n s =>
  match faults n with
  | some e => .error e
  | none => (run s).map fun (a, s) => (a, n + 1, s)

/-- A statement that only reads. -/
def query (read : σ → Except ε α) : Tx σ ε α := statement fun s => (read s).map (·, s)

/-- `m` returns only what `Q` holds of, from `s`. -/
def Returns (m : Tx σ ε α) (s : σ) (Q : α → σ → Prop) : Prop :=
  ∀ faults n a n' s', m faults n s = .ok (a, n', s') → Q a s'

section Rules

variable {s : σ} {Q : α → σ → Prop}

theorem Returns.mono {m : Tx σ ε α} {Q' : α → σ → Prop} (h : Returns m s Q) (hQ : ∀ a s', Q a s' → Q' a s') : Returns m s Q' :=
  fun faults n a n' s' heq => hQ a s' (h faults n a n' s' heq)

theorem Returns.and {m : Tx σ ε α} {Q' : α → σ → Prop} (h : Returns m s Q) (h' : Returns m s Q') : Returns m s fun a s' => Q a s' ∧ Q' a s' :=
  fun faults n a n' s' heq => ⟨h faults n a n' s' heq, h' faults n a n' s' heq⟩

theorem returns_pure {a : α} (h : Q a s) : Returns (Pure.pure a : Tx σ ε α) s Q := by
  rintro faults n a' n' s' ⟨⟩
  exact h

theorem returns_bind {m : Tx σ ε β} {f : β → Tx σ ε α} (h : Returns m s fun b s' => Returns (f b) s' Q) :
    Returns (m >>= f) s Q := by
  intro faults n a n' s' heq
  change Tx.bind m f faults n s = _ at heq
  unfold Tx.bind at heq
  cases hm : m faults n s with
  | error e =>
    rw [hm] at heq
    cases heq
  | ok r =>
    obtain ⟨b, k, t⟩ := r
    rw [hm] at heq
    exact h faults n b k t hm faults k a n' s' heq

theorem returns_discard {m : Tx σ ε β} {Q : Unit → σ → Prop} (h : Returns m s fun _ s' => Q () s') : Returns (discard m) s Q :=
  returns_bind (h.mono fun _ _ hQ => returns_pure hQ)

theorem returns_abort {e : ε} : Returns (abort e : Tx σ ε α) s Q := nofun

theorem returns_statement {run : σ → Except ε (α × σ)} (h : ∀ a s', run s = .ok (a, s') → Q a s') : Returns (statement run) s Q := by
  intro faults n a n' s' heq
  unfold statement at heq
  cases hfault : faults n with
  | some e =>
    rw [hfault] at heq
    cases heq
  | none =>
    rw [hfault] at heq
    cases hrun : run s with
    | error e =>
      rw [hrun] at heq
      cases heq
    | ok r =>
      rw [hrun] at heq
      cases heq
      exact h _ _ hrun

theorem returns_query {read : σ → Except ε α} (h : ∀ a, read s = .ok a → Q a s) : Returns (query read) s Q := by
  refine returns_statement fun a s' hrun => ?_
  cases hread : read s with
  | error e =>
    rw [hread] at hrun
    cases hrun
  | ok b =>
    rw [hread] at hrun
    cases hrun
    exact h _ hread

end Rules

/-- `m` fails from `s` only where a statement fails by itself, or with what `E` holds of. -/
def Fails (m : Tx σ ε α) (s : σ) (E : ε → Prop) : Prop :=
  ∀ faults n e, m faults n s = .error e → (∃ k, faults k = some e) ∨ E e

section Rules

variable {s : σ} {E : ε → Prop}

theorem Fails.mono {m : Tx σ ε α} {E' : ε → Prop} (h : Fails m s E) (hE : ∀ e, E e → E' e) : Fails m s E' :=
  fun faults n e heq => (h faults n e heq).imp_right (hE e)

theorem fails_pure {a : α} : Fails (Pure.pure a : Tx σ ε α) s E := nofun

theorem fails_bind {m : Tx σ ε β} {f : β → Tx σ ε α} (h : Fails m s E) (hf : Returns m s fun b s' => Fails (f b) s' E) :
    Fails (m >>= f) s E := by
  intro faults n e heq
  change Tx.bind m f faults n s = _ at heq
  unfold Tx.bind at heq
  cases hm : m faults n s with
  | error e' =>
    rw [hm] at heq
    cases heq
    exact h faults n e hm
  | ok r =>
    obtain ⟨b, k, t⟩ := r
    rw [hm] at heq
    exact hf faults n b k t hm faults k e heq

theorem fails_abort {e : ε} (h : E e) : Fails (abort e : Tx σ ε α) s E := by
  rintro faults n _ ⟨⟩
  exact .inr h

theorem fails_statement {run : σ → Except ε (α × σ)} (h : ∀ e, run s = .error e → E e) : Fails (statement run) s E := by
  intro faults n e heq
  unfold statement at heq
  cases hfault : faults n with
  | some e' =>
    rw [hfault] at heq
    cases heq
    exact .inl ⟨n, hfault⟩
  | none =>
    rw [hfault] at heq
    cases hrun : run s with
    | error e' =>
      rw [hrun] at heq
      cases heq
      exact .inr (h e hrun)
    | ok r =>
      rw [hrun] at heq
      cases heq

theorem fails_discard {m : Tx σ ε β} (h : Fails m s E) : Fails (discard m) s E :=
  fails_bind h fun _ _ _ _ _ _ => fails_pure

theorem fails_query {read : σ → Except ε α} (h : ∀ e, read s = .error e → E e) : Fails (query read) s E := by
  refine fails_statement fun e hrun => ?_
  cases hread : read s with
  | error e' =>
    rw [hread] at hrun
    cases hrun
    exact h e hread
  | ok b =>
    rw [hread] at hrun
    cases hrun

end Rules

end Tx

/-- Statements of their own, of which none fails. -/
def Tx.run (m : Tx σ ε α) (s : σ) : Except ε (α × σ) := (m (fun _ => none) 0 s).map fun (a, _, s) => (a, s)

theorem Tx.run_abort (e : ε) (s : σ) : (Tx.abort e : Tx σ ε α).run s = .error e := rfl

theorem Tx.run_statement (body : σ → Except ε (α × σ)) (s : σ) : (Tx.statement body).run s = body s := by
  unfold Tx.run Tx.statement
  dsimp only
  cases body s <;> rfl

/-- `BEGIN`, the body, and `COMMIT`; an error anywhere rolls back. -/
def inTx (body : Tx σ ε α) (faults : Nat → Option ε) (s : σ) : Except ε α × σ :=
  match faults 0 with
  | some e => (.error e, s)
  | none =>
    match body faults 1 s with
    | .error e => (.error e, s)
    | .ok (a, n, s') =>
      match faults n with
      | some e => (.error e, s)
      | none => (.ok a, s')

/-- A transaction leaves the database as it was, or as the body left it. -/
theorem inTx_cases {body : Tx σ ε α} (faults : Nat → Option ε) {s : σ} {Q : α → σ → Prop} (h : body.Returns s Q) :
    (∃ e, inTx body faults s = (.error e, s)) ∨ ∃ a s', inTx body faults s = (.ok a, s') ∧ Q a s' := by
  unfold inTx
  cases faults 0 with
  | some e => exact .inl ⟨e, rfl⟩
  | none =>
    cases hbody : body faults 1 s with
    | error e => exact .inl ⟨e, rfl⟩
    | ok r =>
      obtain ⟨a, n, s'⟩ := r
      cases hcommit : faults n with
      | some e => exact .inl ⟨e, by simp only [hcommit]⟩
      | none => exact .inr ⟨a, s', by simp only [hcommit], h faults 1 a n s' hbody⟩

/-- A transaction that gives an error, gives one of a statement or of its body. -/
theorem inTx_error {body : Tx σ ε α} {faults : Nat → Option ε} {s : σ} {E : ε → Prop} (h : body.Fails s E) {e : ε}
    (herr : (inTx body faults s).1 = .error e) : (∃ k, faults k = some e) ∨ E e := by
  unfold inTx at herr
  cases hbegin : faults 0 with
  | some e' =>
    rw [hbegin] at herr
    cases herr
    exact .inl ⟨0, hbegin⟩
  | none =>
    rw [hbegin] at herr
    cases hbody : body faults 1 s with
    | error e' =>
      simp only [hbody] at herr
      cases herr
      exact h faults 1 e hbody
    | ok r =>
      obtain ⟨a, n, s'⟩ := r
      simp only [hbody] at herr
      cases hcommit : faults n with
      | some e' =>
        rw [hcommit] at herr
        cases herr
        exact .inl ⟨n, hcommit⟩
      | none =>
        rw [hcommit] at herr
        cases herr

end Conc
