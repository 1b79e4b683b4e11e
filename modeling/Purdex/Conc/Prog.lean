/-
Programs over a fixed set of atomic operations, and the precondition calculus for them.
A thread of a concurrent system is such a program: between two of its operations any other
thread may run, so its proof knows only what its own operations answered.
-/
import Mathlib.Logic.Basic
import Mathlib.Data.List.Infix
import Mathlib.Tactic.SimpRw

namespace Conc

/-! ## Programs -/

/-- The atomic operations a program may issue, each with the type of its answers. -/
structure Iface where
  Op : Type
  Res : Op → Type

/-- A program: a value, or one operation and what to do with its answer. -/
inductive Prog (I : Iface) (α : Type) : Type where
  | pure (a : α)
  | op (o : I.Op) (k : I.Res o → Prog I α)

/-- An operation together with the answer it got. -/
structure Event (I : Iface) where
  op : I.Op
  res : I.Res op

/-- What a thread has seen so far, newest first. -/
abbrev Hist (I : Iface) := List (Event I)

variable {I : Iface} {α β γ ε : Type}

namespace Prog

def bind : Prog I α → (α → Prog I β) → Prog I β
  | .pure a, f => f a
  | .op o k, f => .op o fun r => (k r).bind f

/-- Issue one operation. -/
def call (o : I.Op) : Prog I (I.Res o) :=
  .op o .pure

instance : Monad (Prog I) where
  pure := .pure
  bind := bind

@[simp] theorem pure_eq (a : α) : (Pure.pure a : Prog I α) = .pure a := rfl

@[simp] theorem bind_eq (p : Prog I α) (f : α → Prog I β) : p >>= f = p.bind f := rfl

/-- Run a program against a handler that answers every operation from a state it may change. -/
def eval {σ : Type} (exec : (o : I.Op) → σ → I.Res o × σ) : Prog I α → σ → α × σ
  | .pure a, s => (a, s)
  | .op o k, s => (k (exec o s).1).eval exec (exec o s).2

theorem eval_call {σ : Type} (exec : (o : I.Op) → σ → I.Res o × σ) (o : I.Op) (s : σ) :
    (call o).eval exec s = exec o s := rfl

theorem eval_bind {σ : Type} (exec : (o : I.Op) → σ → I.Res o × σ) :
    ∀ (p : Prog I α) (f : α → Prog I β) (s : σ),
      (p.bind f).eval exec s = (f (p.eval exec s).1).eval exec (p.eval exec s).2
  | .pure _, _, _ => rfl
  | .op o k, f, s => eval_bind exec (k (exec o s).1) f (exec o s).2

/-- The operations of a run with their answers, each with the state it was issued in. -/
def steps {σ : Type} (exec : (o : I.Op) → σ → I.Res o × σ) : Prog I α → σ → List (σ × Event I)
  | .pure _, _ => []
  | .op o k, s => (s, ⟨o, (exec o s).1⟩) :: (k (exec o s).1).steps exec (exec o s).2

theorem steps_bind {σ : Type} (exec : (o : I.Op) → σ → I.Res o × σ) :
    ∀ (p : Prog I α) (f : α → Prog I β) (s : σ),
      (p.bind f).steps exec s = p.steps exec s ++ (f (p.eval exec s).1).steps exec (p.eval exec s).2
  | .pure _, _, _ => rfl
  | .op o k, f, s => congrArg (_ :: ·) (steps_bind exec (k (exec o s).1) f (exec o s).2)

end Prog

/-! ## Preconditions -/

/-- What a thread may rely on and must guarantee: which answers an operation can have, and
after which histories an operation may be issued. -/
structure Spec (I : Iface) where
  ans : (o : I.Op) → I.Res o → Prop
  ok : Hist I → I.Op → Prop

/-- From history `h`, every operation the program issues is allowed by `S`, and it ends in `Q`. -/
def wp (S : Spec I) : Prog I α → (Hist I → α → Prop) → Hist I → Prop
  | .pure a, Q, h => Q h a
  | .op o k, Q, h => S.ok h o ∧ ∀ r, S.ans o r → wp S (k r) Q (⟨o, r⟩ :: h)

variable {S : Spec I}

@[simp] theorem wp_pure (a : α) (Q : Hist I → α → Prop) (h : Hist I) :
    wp S (.pure a) Q h ↔ Q h a := Iff.rfl

theorem wp_op (o : I.Op) (k : I.Res o → Prog I α) (Q : Hist I → α → Prop) (h : Hist I) :
    wp S (.op o k) Q h ↔ S.ok h o ∧ ∀ r, S.ans o r → wp S (k r) Q (⟨o, r⟩ :: h) := Iff.rfl

@[simp] theorem wp_call (o : I.Op) (Q : Hist I → I.Res o → Prop) (h : Hist I) :
    wp S (Prog.call o) Q h ↔ S.ok h o ∧ ∀ r, S.ans o r → Q (⟨o, r⟩ :: h) r := Iff.rfl

@[simp] theorem wp_bind : ∀ (p : Prog I α) (f : α → Prog I β) (Q : Hist I → β → Prop) (h : Hist I),
    wp S (p.bind f) Q h ↔ wp S p (fun h' a => wp S (f a) Q h') h
  | .pure _, _, _, _ => Iff.rfl
  | .op _ k, f, Q, h => by
    simp only [Prog.bind, wp_op]
    exact and_congr_right' (forall_congr' fun r => imp_congr_right fun _ => wp_bind (k r) f Q _)

theorem wp_mono : ∀ (p : Prog I α) {Q Q' : Hist I → α → Prop} {h : Hist I}, wp S p Q h →
    (∀ h' a, h <:+ h' → Q h' a → Q' h' a) → wp S p Q' h
  | .pure a, _, _, h, hp, hq => hq h a List.suffix_rfl hp
  | .op o k, _, _, h, ⟨ho, hk⟩, hq =>
    ⟨ho, fun r hr => wp_mono (k r) (hk r hr) fun h' a hs =>
      hq h' a ((List.suffix_cons ⟨o, r⟩ h).trans hs)⟩

/-- One program after another. -/
theorem wp_seq {p : Prog I α} {f : α → Prog I β} {Q : Hist I → α → Prop} {R : Hist I → β → Prop} {h : Hist I}
    (hp : wp S p Q h) (hf : ∀ h' a, h <:+ h' → Q h' a → wp S (f a) R h') : wp S (p >>= f) R h :=
  (wp_bind p f R h).2 (wp_mono p hp hf)

theorem wp_call_seq {o : I.Op} {f : I.Res o → Prog I β} {R : Hist I → β → Prop} {h : Hist I} (ho : S.ok h o)
    (hf : ∀ r, S.ans o r → wp S (f r) R (⟨o, r⟩ :: h)) : wp S (Prog.call o >>= f) R h :=
  (wp_bind _ f R h).2 ⟨ho, hf⟩

/-- In a run from a state with `J`, which the allowed operations keep, each operation is issued where `J` holds
and after a history that allows it. -/
theorem steps_allowed {σ : Type} {exec : (o : I.Op) → σ → I.Res o × σ} {J : σ → Prop}
    (hstep : ∀ o s h, J s → S.ok h o → S.ans o (exec o s).1 ∧ J (exec o s).2) :
    ∀ {p : Prog I α} {Q : Hist I → α → Prop} {h : Hist I} {s : σ}, wp S p Q h → J s →
      ∀ x ∈ p.steps exec s, J x.1 ∧ x.2.res = (exec x.2.op x.1).1 ∧ ∃ h', S.ok h' x.2.op
  | .pure _, _, _, _, _, _, x, hx => by simp [Prog.steps] at hx
  | .op o k, Q, h, s, ⟨hok, hk⟩, hj, x, hx => by
    obtain ⟨hans, hj'⟩ := hstep o s h hj hok
    rcases List.mem_cons.1 hx with rfl | hx
    · exact ⟨hj, rfl, h, hok⟩
    · exact steps_allowed hstep (hk _ hans) hj' x hx

/-- A run ends as its precondition promises, with whatever the steps carry along of states and histories. -/
theorem wp_eval {σ : Type} {exec : (o : I.Op) → σ → I.Res o × σ} {J : σ → Hist I → Prop}
    (hstep : ∀ o s h, J s h → S.ok h o → S.ans o (exec o s).1 ∧ J (exec o s).2 (⟨o, (exec o s).1⟩ :: h)) :
    ∀ {p : Prog I α} {Q : Hist I → α → Prop} {h : Hist I} {s : σ}, wp S p Q h → J s h →
      ∃ h', Q h' (p.eval exec s).1 ∧ J (p.eval exec s).2 h'
  | .pure _, _, h, _, hq, hj => ⟨h, hq, hj⟩
  | .op o k, _, h, s, ⟨hok, hk⟩, hj => by
    obtain ⟨hans, hj'⟩ := hstep o s h hj hok
    exact wp_eval (p := k (exec o s).1) hstep (hk _ hans) hj'

/-! ## Programs that may fail -/

/-- A program that ends in a value or an error. -/
abbrev ProgE (I : Iface) (ε α : Type) := ExceptT ε (Prog I) α

section Eval

variable {σ : Type} (exec : (o : I.Op) → σ → I.Res o × σ) (s : σ)

@[simp] theorem eval_run_pure (a : α) : (pure a : ProgE I ε α).run.eval exec s = (.ok a, s) := rfl

theorem eval_run_lift (p : Prog I α) :
    (liftM p : ProgE I ε α).run.eval exec s = (.ok (p.eval exec s).1, (p.eval exec s).2) := by
  show (p.bind fun a => Prog.pure (Except.ok a)).eval exec s = _
  exact Prog.eval_bind exec p _ s

theorem eval_run_bind (p : ProgE I ε α) (f : α → ProgE I ε β) :
    (p >>= f).run.eval exec s = match (p.run.eval exec s).1 with
      | .ok a => (f a).run.eval exec (p.run.eval exec s).2
      | .error e => (.error e, (p.run.eval exec s).2) := by
  show (p.run.bind _).eval exec s = _
  rw [Prog.eval_bind]
  cases (p.run.eval exec s).1 <;> rfl

theorem steps_run_bind (p : ProgE I ε α) (f : α → ProgE I ε β) :
    (p >>= f).run.steps exec s = p.run.steps exec s ++ match (p.run.eval exec s).1 with
      | .ok a => (f a).run.steps exec (p.run.eval exec s).2
      | .error _ => [] := by
  show (p.run.bind _).steps exec s = _
  rw [Prog.steps_bind]
  cases (p.run.eval exec s).1 <;> rfl

end Eval

/-- `wp` with a postcondition for the value and one for the error. -/
def wpE (S : Spec I) (p : ProgE I ε α) (Q : Hist I → α → Prop) (E : Hist I → ε → Prop) (h : Hist I) : Prop :=
  wp S p.run (fun h' r => match r with
    | .ok a => Q h' a
    | .error e => E h' e) h

variable {Q : Hist I → α → Prop} {E : Hist I → ε → Prop} {h : Hist I}

@[simp] theorem wpE_lift (p : Prog I α) : wpE S (liftM p : ProgE I ε α) Q E h ↔ wp S p Q h := by
  show wp S (p.bind fun a => Prog.pure (Except.ok a)) _ h ↔ _
  exact wp_bind p _ _ h

@[simp] theorem wpE_bind (p : ProgE I ε α) (f : α → ProgE I ε β) (Q : Hist I → β → Prop) :
    wpE S (p >>= f) Q E h ↔ wpE S p (fun h' a => wpE S (f a) Q E h') E h := by
  show wp S (p.run.bind _) _ h ↔ _
  rw [wp_bind]
  refine iff_of_eq (congrArg (wp S p.run · h) ?_)
  funext h' r
  cases r <;> rfl

/-- The body of a handler that catches its own errors. -/
@[simp] theorem wp_run (p : ProgE I ε α) (Q : Hist I → Except ε α → Prop) :
    wp S p.run Q h ↔ wpE S p (fun h' a => Q h' (.ok a)) (fun h' e => Q h' (.error e)) h := by
  refine iff_of_eq (congrArg (wp S p.run · h) ?_)
  funext h' r
  cases r <;> rfl

theorem wpE_mono (p : ProgE I ε α) {Q' : Hist I → α → Prop} {E' : Hist I → ε → Prop}
    (hp : wpE S p Q E h) (hq : ∀ h' a, h <:+ h' → Q h' a → Q' h' a)
    (he : ∀ h' e, h <:+ h' → E h' e → E' h' e) : wpE S p Q' E' h :=
  wp_mono p.run hp fun h' r hs => match r with
    | .ok a => hq h' a hs
    | .error e => he h' e hs

theorem wpE_seq {p : ProgE I ε α} {f : α → ProgE I ε β} {R : Hist I → β → Prop} (hp : wpE S p Q E h)
    (hf : ∀ h' a, h <:+ h' → Q h' a → wpE S (f a) R E h') : wpE S (p >>= f) R E h :=
  (wpE_bind p f R).2 (wpE_mono p hp hf fun _ _ _ he => he)

/-! ## Which operations a program can issue -/

/-- Every operation the program can issue satisfies `P`. -/
def Prog.Only (P : I.Op → Prop) : Prog I α → Prop
  | .pure _ => True
  | .op o k => P o ∧ ∀ r, (k r).Only P

variable {P : I.Op → Prop}

theorem only_call {o : I.Op} (h : P o) : (Prog.call o).Only P :=
  ⟨h, fun _ => trivial⟩

theorem only_bind : ∀ {p : Prog I α} {f : α → Prog I β}, p.Only P → (∀ a, (f a).Only P) → (p >>= f).Only P
  | .pure a, _, _, hf => hf a
  | .op _ _, _, ⟨ho, hk⟩, hf => ⟨ho, fun r => only_bind (hk r) hf⟩

theorem Prog.Only.mono {P' : I.Op → Prop} (h : ∀ o, P o → P' o) : ∀ {p : Prog I α}, p.Only P → p.Only P'
  | .pure _, _ => trivial
  | .op _ _, ⟨ho, hk⟩ => ⟨h _ ho, fun r => (hk r).mono h⟩

theorem only_true : ∀ p : Prog I α, p.Only fun _ => True
  | .pure _ => trivial
  | .op _ k => ⟨trivial, fun r => only_true (k r)⟩

/-- The same for a program that may fail. -/
def OnlyE (P : I.Op → Prop) (p : ProgE I ε α) : Prop :=
  p.run.Only P

@[simp] theorem onlyE_pure (a : α) : OnlyE P (pure a : ProgE I ε α) := trivial

theorem onlyE_bind {p : ProgE I ε α} {f : α → ProgE I ε β} (h : OnlyE P p) (hf : ∀ a, OnlyE P (f a)) :
    OnlyE P (p >>= f) := by
  refine only_bind (p := p.run) h fun r => ?_
  cases r with
  | ok a => exact hf a
  | error e => exact trivial

theorem onlyE_lift {p : Prog I α} (h : p.Only P) : OnlyE P (liftM p : ProgE I ε α) :=
  only_bind h fun _ => trivial

theorem OnlyE.mono {P' : I.Op → Prop} (h : ∀ o, P o → P' o) {p : ProgE I ε α} (hp : OnlyE P p) : OnlyE P' p :=
  Prog.Only.mono h hp

/-- Every value the program can end in satisfies `Q`. -/
def Prog.Leaves (Q : α → Prop) : Prog I α → Prop
  | .pure a => Q a
  | .op _ k => ∀ r, (k r).Leaves Q

theorem leaves_bind {Q : β → Prop} : ∀ {p : Prog I α} {f : α → Prog I β}, (∀ a, (f a).Leaves Q) → (p >>= f).Leaves Q
  | .pure a, _, hf => hf a
  | .op _ _, _, hf => fun _ => leaves_bind hf

/-! ## What a history contains -/

/-- A history that grew by events with `P` alone. -/
def Grew (P : Event I → Prop) (h h' : Hist I) : Prop :=
  ∃ l, h' = l ++ h ∧ ∀ ev ∈ l, P ev

theorem Grew.refl {P : Event I → Prop} (h : Hist I) : Grew P h h :=
  ⟨[], rfl, by simp⟩

theorem Grew.trans {P : Event I → Prop} {h h' h'' : Hist I} : Grew P h h' → Grew P h' h'' → Grew P h h''
  | ⟨l, hl, hP⟩, ⟨l', hl', hP'⟩ => ⟨l' ++ l, by simp [hl', hl], fun ev hev => by
    rcases List.mem_append.1 hev with h | h
    · exact hP' ev h
    · exact hP ev h⟩

theorem Grew.suffix {P : Event I → Prop} {h h' : Hist I} : Grew P h h' → h <:+ h'
  | ⟨l, hl, _⟩ => ⟨l, hl.symm⟩

theorem Grew.cons {P : Event I → Prop} {h h' : Hist I} {ev : Event I} (hev : P ev) :
    Grew P h h' → Grew P h (ev :: h')
  | ⟨l, hl, hP⟩ => ⟨ev :: l, by simp [hl], by simpa using ⟨hev, hP⟩⟩

theorem Grew.mono {P P' : Event I → Prop} (hP : ∀ ev, P ev → P' ev) {h h' : Hist I} : Grew P h h' → Grew P' h h'
  | ⟨l, hl, hl'⟩ => ⟨l, hl, fun ev hev => hP ev (hl' ev hev)⟩

/-- Some event had `P`, and none had `Q` since. -/
def Since (P Q : Event I → Prop) : Hist I → Prop
  | [] => False
  | ev :: h => P ev ∨ ¬ Q ev ∧ Since P Q h

theorem since_iff {P Q : Event I → Prop} : ∀ {h : Hist I}, Since P Q h ↔
    ∃ l ev h', h = l ++ ev :: h' ∧ P ev ∧ ∀ e ∈ l, ¬ Q e
  | [] => by simp [Since]
  | ev :: h => by
    rw [Since, since_iff]
    constructor
    · rintro (hp | ⟨hq, l, e, h', rfl, hp, hl⟩)
      · exact ⟨[], ev, h, rfl, hp, by simp⟩
      · exact ⟨ev :: l, e, h', rfl, hp, by simpa using ⟨hq, hl⟩⟩
    · rintro ⟨l, e, h', heq, hp, hl⟩
      cases l with
      | nil =>
        obtain ⟨rfl, rfl⟩ := List.cons.inj heq
        exact .inl hp
      | cons e' l =>
        obtain ⟨rfl, rfl⟩ := List.cons.inj heq
        exact .inr ⟨hl ev (by simp), l, e, h', rfl, hp, fun x hx => hl x (by simp [hx])⟩

theorem Since.grew {P Q : Event I → Prop} {h h' : Hist I} (hs : Since P Q h) :
    Grew (fun ev => ¬ Q ev) h h' → Since P Q h'
  | ⟨l, hl, hq⟩ => by
    subst hl
    induction l with
    | nil => exact hs
    | cons ev l ih => exact .inr ⟨hq ev (by simp), ih fun e he => hq e (by simp [he])⟩

/-- What has `P` has it from before, when nothing since has. -/
theorem Since.of_grew {P Q : Event I → Prop} {h h' : Hist I} : Grew (fun ev => ¬ P ev) h h' → Since P Q h' → Since P Q h
  | ⟨l, hl, hp⟩, hs => by
    subst hl
    induction l with
    | nil => exact hs
    | cons ev l ih =>
      rcases hs with hev | ⟨_, hs⟩
      · exact absurd hev (hp ev (by simp))
      · exact ih (fun e he => hp e (by simp [he])) hs

theorem Since.exists {P Q : Event I → Prop} {h : Hist I} (hs : Since P Q h) : ∃ ev ∈ h, P ev := by
  obtain ⟨l, ev, h', rfl, hp, _⟩ := since_iff.1 hs
  exact ⟨ev, by simp, hp⟩

/-- A program whose operations are always allowed may end anywhere its history can grow to. -/
theorem wp_of_only (hP : ∀ h o, P o → S.ok h o) : ∀ {p : Prog I α} {Q : Hist I → α → Prop} {h : Hist I}, p.Only P →
    (∀ h' a, Grew (fun ev => P ev.op) h h' → Q h' a) → wp S p Q h
  | .pure a, _, h, _, hQ => hQ h a (.refl h)
  | .op o _, _, h, ⟨ho, hk⟩, hQ => ⟨hP h o ho, fun r _ => wp_of_only hP (hk r) fun h' a hg =>
    hQ h' a (Grew.trans (Grew.cons ho (.refl h)) hg)⟩

theorem wpE_of_only (hP : ∀ h o, P o → S.ok h o) {p : ProgE I ε α} {Q : Hist I → α → Prop} {E : Hist I → ε → Prop}
    {h : Hist I} (hp : OnlyE P p) (hQ : ∀ h' a, Grew (fun ev => P ev.op) h h' → Q h' a)
    (hE : ∀ h' e, Grew (fun ev => P ev.op) h h' → E h' e) : wpE S p Q E h :=
  wp_of_only hP hp fun h' r hg => match r with
    | .ok a => hQ h' a hg
    | .error e => hE h' e hg

/-- The same where the operations are allowed while `J` holds, which they keep. -/
theorem wp_of_only_keeps {J : Hist I → Prop} (hP : ∀ h o, J h → P o → S.ok h o) (hJ : ∀ h o r, J h → P o → J (⟨o, r⟩ :: h)) :
    ∀ {p : Prog I α} {Q : Hist I → α → Prop} {h : Hist I}, p.Only P → J h → (∀ h' a, J h' → Q h' a) → wp S p Q h
  | .pure a, _, h, _, hj, hQ => hQ h a hj
  | .op o _, _, h, ⟨ho, hk⟩, hj, hQ => ⟨hP h o hj ho, fun r _ => wp_of_only_keeps hP hJ (hk r) (hJ h o r hj ho) hQ⟩

theorem wpE_of_only_keeps {J : Hist I → Prop} (hP : ∀ h o, J h → P o → S.ok h o) (hJ : ∀ h o r, J h → P o → J (⟨o, r⟩ :: h))
    {p : ProgE I ε α} {Q : Hist I → α → Prop} {E : Hist I → ε → Prop} {h : Hist I} (hp : OnlyE P p) (hj : J h)
    (hQ : ∀ h' a, J h' → Q h' a) (hE : ∀ h' e, J h' → E h' e) : wpE S p Q E h :=
  wp_of_only_keeps hP hJ hp hj fun h' r hj' => match r with
    | .ok a => hQ h' a hj'
    | .error e => hE h' e hj'

end Conc
