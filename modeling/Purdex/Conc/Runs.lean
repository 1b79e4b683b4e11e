/-
Whole runs of one program on its own: every history it can leave, whatever its operations are
answered, and what a precondition says about each of them.
-/
import Purdex.Conc.Prog

namespace Conc

variable {I : Iface} {α β : Type}

/-- From history `h` the program can end in `a` with history `h'`. -/
def Runs : Prog I α → Hist I → Hist I → α → Prop
  | .pure a, h, h', b => h' = h ∧ b = a
  | .op o k, h, h', b => ∃ r, Runs (k r) (⟨o, r⟩ :: h) h' b

@[simp] theorem runs_pure {a b : α} {h h' : Hist I} : Runs (.pure a) h h' b ↔ h' = h ∧ b = a := Iff.rfl

@[simp] theorem runs_call {o : I.Op} {r : I.Res o} {h h' : Hist I} :
    Runs (Prog.call o) h h' r ↔ h' = ⟨o, r⟩ :: h := by
  constructor
  · rintro ⟨_, rfl, rfl⟩
    rfl
  · rintro rfl
    exact ⟨r, rfl, rfl⟩

theorem runs_bind : ∀ {p : Prog I α} {f : α → Prog I β} {h h' : Hist I} {b : β},
    Runs (p >>= f) h h' b ↔ ∃ h₁ a, Runs p h h₁ a ∧ Runs (f a) h₁ h' b
  | .pure a, f, h, h', b => by
    constructor
    · exact fun hr => ⟨h, a, ⟨rfl, rfl⟩, hr⟩
    · rintro ⟨_, _, ⟨rfl, rfl⟩, hr⟩
      exact hr
  | .op o k, f, h, h', b => by
    constructor
    · rintro ⟨r, hr⟩
      obtain ⟨h₁, a, hk, hf⟩ := runs_bind.1 hr
      exact ⟨h₁, a, ⟨r, hk⟩, hf⟩
    · rintro ⟨h₁, a, ⟨r, hk⟩, hf⟩
      exact ⟨r, runs_bind.2 ⟨h₁, a, hk, hf⟩⟩

theorem Runs.suffix : ∀ {p : Prog I α} {h h' : Hist I} {a : α}, Runs p h h' a → h <:+ h'
  | .pure _, _, _, _, ⟨hh, _⟩ => hh ▸ List.suffix_rfl
  | .op o _, h, _, _, ⟨r, hr⟩ => (List.suffix_cons ⟨o, r⟩ h).trans hr.suffix

/-- The run in which every operation is answered by `answer`, which may look at the history. -/
def runWith (answer : (o : I.Op) → Hist I → I.Res o) : Prog I α → Hist I → Hist I × α
  | .pure a, h => (h, a)
  | .op o k, h => runWith answer (k (answer o h)) (⟨o, answer o h⟩ :: h)

theorem runs_runWith (answer : (o : I.Op) → Hist I → I.Res o) : ∀ (p : Prog I α) (h : Hist I),
    Runs p h (runWith answer p h).1 (runWith answer p h).2
  | .pure _, _ => ⟨rfl, rfl⟩
  | .op o k, h => ⟨answer o h, runs_runWith answer (k (answer o h)) _⟩

/-- Every answer in such a run is one of `answer`. -/
theorem mem_runWith (answer : (o : I.Op) → Hist I → I.Res o) : ∀ (p : Prog I α) (h : Hist I) {ev : Event I},
    ev ∈ (runWith answer p h).1 → ev ∈ h ∨ ∃ h', ev.res = answer ev.op h'
  | .pure _, _, _, hev => .inl hev
  | .op o k, h, _, hev => by
    rcases mem_runWith answer (k (answer o h)) _ hev with hev | hev
    · rcases List.mem_cons.1 hev with rfl | hev
      · exact .inr ⟨h, rfl⟩
      · exact .inl hev
    · exact .inr hev

/-- Any answer may come; `ok` is what has to hold when an operation is issued. -/
def anyAnswer (ok : Hist I → I.Op → Prop) : Spec I :=
  ⟨fun _ _ => True, ok⟩

variable {ok : Hist I → I.Op → Prop} {Q : Hist I → α → Prop}

theorem Runs.post : ∀ {p : Prog I α} {h h' : Hist I} {a : α}, Runs p h h' a → wp (anyAnswer ok) p Q h → Q h' a
  | .pure _, _, _, _, ⟨hh, ha⟩, hw => hh ▸ ha ▸ hw
  | .op _ _, _, _, _, ⟨r, hr⟩, ⟨_, hw⟩ => hr.post (hw r trivial)

/-- Every operation of a run was issued when it was allowed. -/
theorem Runs.issued : ∀ {p : Prog I α} {h h' : Hist I} {a : α}, Runs p h h' a → wp (anyAnswer ok) p Q h →
    ∀ {post ev pre}, h' = post ++ ev :: pre → h <:+ pre → ok pre ev.op
  | .pure a, h, _, _, ⟨hh, _⟩, _, post, ev, pre, heq, hs => by
    have hlen := congrArg List.length (hh.symm.trans heq)
    have hle := hs.length_le
    simp only [List.length_append, List.length_cons] at hlen
    omega
  | .op o k, h, h', a, ⟨r, hr⟩, ⟨ho, hw⟩, post, ev, pre, heq, hs => by
    have hlt : h.length ≤ pre.length := hs.length_le
    rcases Nat.lt_or_eq_of_le hlt with hlt | heqlen
    · -- the event is one of the rest of the program
      have hev : pre <:+ h' := ⟨post ++ [ev], by simp [heq]⟩
      have hsuf : (⟨o, r⟩ :: h : Hist I) <:+ pre :=
        List.suffix_of_suffix_length_le hr.suffix hev hlt
      exact hr.issued (hw r trivial) heq hsuf
    · -- the event is the operation at the head
      obtain rfl : h = pre := hs.eq_of_length heqlen
      have hhead : (⟨o, r⟩ :: h : Hist I) <:+ h' := hr.suffix
      have htail : (ev :: h : Hist I) <:+ h' := ⟨post, heq.symm⟩
      have hsame := List.suffix_of_suffix_length_le hhead htail (by simp)
      have := hsame.eq_of_length (by simp)
      obtain ⟨rfl, _⟩ := List.cons.inj this
      exact ho

/-! ## Runs from nothing -/

/-- What a program adds to any history it is started from. -/
abbrev Run (p : Prog I α) (l : Hist I) (a : α) : Prop := Runs p [] l a

theorem runs_iff_run : ∀ {p : Prog I α} {h h' : Hist I} {a : α}, Runs p h h' a ↔ ∃ l, h' = l ++ h ∧ Run p l a
  | .pure b, h, h', a => by
    constructor
    · rintro ⟨rfl, rfl⟩
      exact ⟨[], rfl, rfl, rfl⟩
    · rintro ⟨_, rfl, rfl, rfl⟩
      exact ⟨rfl, rfl⟩
  | .op o k, h, h', a => by
    constructor
    · rintro ⟨r, hr⟩
      obtain ⟨l, rfl, hl⟩ := runs_iff_run.1 hr
      exact ⟨l ++ [⟨o, r⟩], by simp, r, runs_iff_run.2 ⟨l, rfl, hl⟩⟩
    · rintro ⟨_, rfl, r, hr⟩
      obtain ⟨l, rfl, hl⟩ := runs_iff_run.1 hr
      exact ⟨r, runs_iff_run.2 ⟨l, by simp, hl⟩⟩

theorem run_bind {p : Prog I α} {f : α → Prog I β} {l : Hist I} {b : β} :
    Run (p >>= f) l b ↔ ∃ l₁ a l₂, Run p l₁ a ∧ Run (f a) l₂ b ∧ l = l₂ ++ l₁ := by
  constructor
  · intro hr
    obtain ⟨l₁, a, hp, hf⟩ := runs_bind.1 hr
    obtain ⟨l₂, hl, hrest⟩ := runs_iff_run.1 hf
    exact ⟨l₁, a, l₂, hp, hrest, hl⟩
  · rintro ⟨l₁, a, l₂, hp, hf, rfl⟩
    exact runs_bind.2 ⟨l₁, a, hp, runs_iff_run.2 ⟨l₂, rfl, hf⟩⟩

theorem run_pure {a b : α} {l : Hist I} : Run (pure a : Prog I α) l b ↔ l = [] ∧ b = a := Iff.rfl

theorem run_call {o : I.Op} {r : I.Res o} {l : Hist I} : Run (Prog.call o) l r ↔ l = [⟨o, r⟩] := runs_call

/-- An operation and the rest of a run. -/
theorem run_call_bind {o : I.Op} {f : I.Res o → Prog I β} {l : Hist I} {b : β} :
    Run (Prog.call o >>= f) l b ↔ ∃ r l₂, Run (f r) l₂ b ∧ l = l₂ ++ [⟨o, r⟩] := by
  rw [run_bind]
  constructor
  · rintro ⟨_, r, l₂, hr, hf, rfl⟩
    exact ⟨r, l₂, hf, by rw [run_call.1 hr]⟩
  · rintro ⟨r, l₂, hf, rfl⟩
    exact ⟨_, r, l₂, run_call.2 rfl, hf, rfl⟩

variable {P : I.Op → Prop}

theorem Runs.only : ∀ {p : Prog I α} {h h' : Hist I} {a : α}, Runs p h h' a → p.Only P → Grew (fun ev => P ev.op) h h'
  | .pure _, _, _, _, ⟨hh, _⟩, _ => hh ▸ .refl _
  | .op _ _, _, _, _, ⟨r, hr⟩, ⟨ho, hk⟩ => Grew.trans (Grew.cons ho (.refl _)) (hr.only (hk r))

theorem Run.only {p : Prog I α} {l : Hist I} {a : α} (hr : Run p l a) (hp : p.Only P) : ∀ ev ∈ l, P ev.op := by
  obtain ⟨l', hl, hP⟩ := Runs.only hr hp
  rw [List.append_nil] at hl
  exact hl ▸ hP

/-- A program whose operations are always allowed ends as its runs do. -/
theorem wp_of_only_runs (hP : ∀ h o, P o → ok h o) : ∀ {p : Prog I α} {h : Hist I}, p.Only P →
    (∀ h' a, Runs p h h' a → Q h' a) → wp (anyAnswer ok) p Q h
  | .pure a, h, _, hq => hq h a ⟨rfl, rfl⟩
  | .op o _, h, ⟨ho, hk⟩, hq => ⟨hP h o ho, fun r _ => wp_of_only_runs hP (hk r) fun h' a hr => hq h' a ⟨r, hr⟩⟩

end Conc
