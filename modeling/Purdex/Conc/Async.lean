/-
Programs that wait: between two waits a program reads and writes the shared state as one step, and
at a wait its environment answers and may leave another state.
-/
import Purdex.Conc.Prog

namespace Conc

/-! ## Programs -/

inductive Async (I : Iface) (σ α : Type) : Type where
  | pure (a : α)
  | get (k : σ → Async I σ α)
  | set (s : σ) (k : Async I σ α)
  | ask (o : I.Op) (k : I.Res o → Async I σ α)

variable {I : Iface} {σ α β : Type}

namespace Async

def bind : Async I σ α → (α → Async I σ β) → Async I σ β
  | .pure a, f => f a
  | .get k, f => .get fun s => (k s).bind f
  | .set s k, f => .set s (k.bind f)
  | .ask o k, f => .ask o fun r => (k r).bind f

instance : Monad (Async I σ) where
  pure := .pure
  bind := bind

def read : Async I σ σ := .get .pure

def write (s : σ) : Async I σ Unit := .set s (.pure ())

def modify (g : σ → σ) : Async I σ Unit := .get fun s => .set (g s) (.pure ())

def request (o : I.Op) : Async I σ (I.Res o) := .ask o .pure

end Async

/-! ## Runs -/

/-- What a run did: a write of its own, or a wait, from the state in which it began. -/
inductive Turn (I : Iface) (σ : Type) : Type where
  | wrote (pre post : σ)
  | asked (o : I.Op) (r : I.Res o) (pre : σ)

/-- What comes of each wait, by its number. -/
structure Env (I : Iface) (σ : Type) where
  answer : Nat → (o : I.Op) → I.Res o
  meanwhile : Nat → σ → σ

/-- The value and the state a run ends in, the waits so far, and its turns, newest first. -/
structure Out (I : Iface) (σ α : Type) where
  value : α
  state : σ
  waits : Nat
  trace : List (Turn I σ)

def Async.play (env : Env I σ) : Async I σ α → Nat → σ → Out I σ α
  | .pure a, n, s => ⟨a, s, n, []⟩
  | .get k, n, s => (k s).play env n s
  | .set s' k, n, s =>
    let out := k.play env n s'
    { out with trace := out.trace ++ [.wrote s s'] }
  | .ask o k, n, s =>
    let out := (k (env.answer n o)).play env (n + 1) (env.meanwhile n s)
    { out with trace := out.trace ++ [.asked o (env.answer n o) s] }

theorem play_bind (env : Env I σ) (f : α → Async I σ β) : ∀ (p : Async I σ α) (n : Nat) (s : σ),
    (p >>= f).play env n s =
      let out := p.play env n s
      let next := (f out.value).play env out.waits out.state
      { next with trace := next.trace ++ out.trace }
  | .pure a, n, s => by
    show (f a).play env n s = { (f a).play env n s with trace := ((f a).play env n s).trace ++ [] }
    rw [List.append_nil]
  | .get k, n, s => play_bind env f (k s) n s
  | .set s' k, n, s => by
    show ({ (k >>= f).play env n s' with trace := ((k >>= f).play env n s').trace ++ [.wrote s s'] } : Out I σ β) = _
    rw [play_bind env f k n s']
    simp only [Async.play, List.append_assoc]
  | .ask o k, n, s => by
    let next := (k (env.answer n o) >>= f).play env (n + 1) (env.meanwhile n s)
    show ({ next with trace := next.trace ++ [.asked o (env.answer n o) s] } : Out I σ β) = _
    simp only [next, play_bind env f (k (env.answer n o)), Async.play, List.append_assoc]

/-! ## What programs do -/

/-- What a program relies on of its environment, and what it may ask and write after its turns so far. -/
structure Terms (I : Iface) (σ : Type) where
  rely : σ → σ → Prop
  asks : List (Turn I σ) → σ → I.Op → Prop
  writes : List (Turn I σ) → σ → σ → Prop

/-- Every turn was allowed after the turns before it. -/
def Terms.Kept (T : Terms I σ) : List (Turn I σ) → Prop
  | [] => True
  | .wrote pre post :: t => T.writes t pre post ∧ T.Kept t
  | .asked o _ pre :: t => T.asks t pre o ∧ T.Kept t

/-- From `s` and after the turns `t` the program keeps to the terms, and ends in `Q` of its value, the state and
the turns. -/
def Async.Does (T : Terms I σ) : Async I σ α → σ → List (Turn I σ) → (α → σ → List (Turn I σ) → Prop) → Prop
  | .pure a, s, t, Q => Q a s t
  | .get k, s, t, Q => (k s).Does T s t Q
  | .set s' k, s, t, Q => T.writes t s s' ∧ k.Does T s' (.wrote s s' :: t) Q
  | .ask o k, s, t, Q => T.asks t s o ∧ ∀ r s', T.rely s s' → (k r).Does T s' (.asked o r s :: t) Q

section Rules

variable {T : Terms I σ} {s : σ} {t : List (Turn I σ)} {Q Q' : α → σ → List (Turn I σ) → Prop}
  {R : β → σ → List (Turn I σ) → Prop}

theorem does_pure {a : α} (h : Q a s t) : (pure a : Async I σ α).Does T s t Q := h

theorem does_mono (h : ∀ a s t, Q a s t → Q' a s t) : ∀ {p : Async I σ α} {s : σ} {t : List (Turn I σ)},
    p.Does T s t Q → p.Does T s t Q'
  | .pure _, s, t, hp => h _ s t hp
  | .get k, s, _, hp => does_mono (p := k s) h hp
  | .set _ k, _, _, hp => ⟨hp.1, does_mono (p := k) h hp.2⟩
  | .ask _ k, _, _, hp => ⟨hp.1, fun r s' hrely => does_mono (p := k r) h (hp.2 r s' hrely)⟩

theorem does_bind {f : α → Async I σ β} : ∀ {p : Async I σ α} {s : σ} {t : List (Turn I σ)},
    (p >>= f).Does T s t R ↔ p.Does T s t fun a s' t' => (f a).Does T s' t' R
  | .pure _, _, _ => Iff.rfl
  | .get k, s, _ => does_bind (p := k s)
  | .set _ k, _, _ => and_congr_right fun _ => does_bind (p := k)
  | .ask _ k, _, _ => and_congr_right fun _ => forall_congr' fun r => forall_congr' fun _ => imp_congr_right fun _ =>
    does_bind (p := k r)

/-- One program after another. -/
theorem does_seq {p : Async I σ α} {f : α → Async I σ β} (hp : p.Does T s t Q)
    (hf : ∀ a s' t', Q a s' t' → (f a).Does T s' t' R) : (p >>= f).Does T s t R :=
  does_bind.2 (does_mono hf hp)

theorem does_read {f : σ → Async I σ β} (h : (f s).Does T s t R) : (Async.read >>= f).Does T s t R := h

theorem does_modify {g : σ → σ} {f : Unit → Async I σ β} (hok : T.writes t s (g s))
    (h : (f ()).Does T (g s) (.wrote s (g s) :: t) R) : (Async.modify g >>= f).Does T s t R := ⟨hok, h⟩

theorem does_request {o : I.Op} {f : I.Res o → Async I σ β} (hok : T.asks t s o)
    (h : ∀ r s', T.rely s s' → (f r).Does T s' (.asked o r s :: t) R) : (Async.request o >>= f).Does T s t R := ⟨hok, h⟩

/-- Where anything is allowed, a program adds to the turns before it. -/
theorem does_extends (hasks : ∀ t s o, T.asks t s o) (hwrites : ∀ t s s', T.writes t s s') : ∀ (p : Async I σ α) (s : σ)
    (t : List (Turn I σ)), p.Does T s t fun _ _ t' => t <:+ t'
  | .pure _, _, t => List.suffix_refl t
  | .get k, s, t => does_extends hasks hwrites (k s) s t
  | .set s' k, s, t => ⟨hwrites t s s', does_mono (fun _ _ _ h => (List.suffix_cons _ t).trans h) (does_extends hasks hwrites k s' _)⟩
  | .ask o k, s, t => ⟨hasks t s o, fun r s' _ =>
    does_mono (fun _ _ _ h => (List.suffix_cons _ t).trans h) (does_extends hasks hwrites (k r) s' _)⟩

/-- Runs keep to the terms that their programs do. -/
theorem Async.Does.play {env : Env I σ} (henv : ∀ n s, T.rely s (env.meanwhile n s)) : ∀ {p : Async I σ α} {n : Nat} {s : σ}
    {t : List (Turn I σ)}, p.Does T s t Q → T.Kept t →
      T.Kept ((p.play env n s).trace ++ t) ∧ Q (p.play env n s).value (p.play env n s).state ((p.play env n s).trace ++ t)
  | .pure _, _, _, _, h, ht => ⟨ht, h⟩
  | .get k, n, s, t, h, ht => Async.Does.play (p := k s) henv h ht
  | .set s' k, n, s, t, h, ht => by
    simp only [Async.play, List.append_assoc, List.singleton_append]
    exact Async.Does.play (p := k) (n := n) henv h.2 ⟨h.1, ht⟩
  | .ask o k, n, s, t, h, ht => by
    simp only [Async.play, List.append_assoc, List.singleton_append]
    exact Async.Does.play (p := k (env.answer n o)) (n := n + 1) henv (h.2 (env.answer n o) _ (henv n s)) ⟨h.1, ht⟩

theorem kept_of_append {e : Turn I σ} : ∀ {later earlier : List (Turn I σ)}, T.Kept (later ++ e :: earlier) → T.Kept (e :: earlier)
  | [], _, h => h
  | .wrote _ _ :: _, _, h => kept_of_append h.2
  | .asked _ _ _ :: _, _, h => kept_of_append h.2

end Rules

end Conc
