/-
A pool of threads over one shared state: every interleaving of atomic operations, with the
trace of what was executed. Threads come from requests and from operations that start one,
may begin a new round when a round ends, and the environment may move at any time.
-/
import Purdex.Conc.Prog

namespace Conc

/-! ## Systems and their steps -/

/-- A system: the program of each kind of thread, what an operation answers and does, which
threads it starts, and what the environment can do to the state. -/
structure Sys (I : Iface) (σ κ ε : Type) where
  body : κ → Prog I (Option κ)
  exec : (o : I.Op) → σ → I.Res o × σ
  spawns : I.Op → List κ
  tick : ε → σ → σ

/-- A running thread: its kind, what it has seen, and what it still has to do. A thread whose
round ends in `some k` goes on as `k`. -/
structure Thread (I : Iface) (κ : Type) where
  kind : κ
  hist : Hist I
  rest : Prog I (Option κ)

/-- One executed operation: who issued it, knowing what, in which state. -/
structure Entry (I : Iface) (σ κ : Type) where
  tid : Nat
  kind : κ
  hist : Hist I
  op : I.Op
  pre : σ

/-- The shared state, the threads in the order they were started, and the trace, newest first. -/
structure Pool (I : Iface) (σ κ : Type) where
  shared : σ
  threads : List (Thread I κ)
  trace : List (Entry I σ κ)

inductive Label (κ ε : Type) where
  | spawn (k : κ)
  | act (i : Nat)
  | env (e : ε)

variable {I : Iface} {σ κ ε : Type} (sys : Sys I σ κ ε)

namespace Sys

def start (k : κ) : Thread I κ :=
  ⟨k, [], sys.body k⟩

/-- The event an entry left in its thread's history. -/
def event (en : Entry I σ κ) : Event I :=
  ⟨en.op, (sys.exec en.op en.pre).1⟩

/-- The state an entry left behind. -/
def post (en : Entry I σ κ) : σ :=
  (sys.exec en.op en.pre).2

/-- The pool after thread `i` issued `o`. -/
def acted (p : Pool I σ κ) (i : Nat) (k : κ) (h : Hist I) (o : I.Op) (f : I.Res o → Prog I (Option κ)) :
    Pool I σ κ where
  shared := (sys.exec o p.shared).2
  threads := p.threads.set i ⟨k, ⟨o, (sys.exec o p.shared).1⟩ :: h, f (sys.exec o p.shared).1⟩ ++
    (sys.spawns o).map sys.start
  trace := ⟨i, k, h, o, p.shared⟩ :: p.trace

def step : Label κ ε → Pool I σ κ → Option (Pool I σ κ)
  | .spawn k, p => some { p with threads := p.threads ++ [sys.start k] }
  | .env e, p => some { p with shared := sys.tick e p.shared }
  | .act i, p =>
    match p.threads[i]? with
    | some ⟨k, h, .op o f⟩ => some (sys.acted p i k h o f)
    | some ⟨_, h, .pure (some k')⟩ => some { p with threads := p.threads.set i ⟨k', h, sys.body k'⟩ }
    | some ⟨_, _, .pure none⟩ => none
    | none => none

/-- Everything a step can do. -/
theorem step_cases {l : Label κ ε} {p p' : Pool I σ κ} (h : sys.step l p = some p') :
    (∃ k, l = .spawn k ∧ p' = { p with threads := p.threads ++ [sys.start k] }) ∨
    (∃ e, l = .env e ∧ p' = { p with shared := sys.tick e p.shared }) ∨
    (∃ i k hist k', l = .act i ∧ p.threads[i]? = some ⟨k, hist, .pure (some k')⟩ ∧
      p' = { p with threads := p.threads.set i ⟨k', hist, sys.body k'⟩ }) ∨
    (∃ i k hist o f, l = .act i ∧ p.threads[i]? = some ⟨k, hist, .op o f⟩ ∧
      p' = sys.acted p i k hist o f) := by
  cases l with
  | spawn k => exact .inl ⟨k, rfl, by simpa [step] using h.symm⟩
  | env e => exact .inr (.inl ⟨e, rfl, by simpa [step] using h.symm⟩)
  | act i =>
    simp only [step] at h
    split at h
    · rename_i k hist o f hth
      exact .inr (.inr (.inr ⟨i, k, hist, o, f, rfl, hth, (Option.some.inj h).symm⟩))
    · rename_i k hist k' hth
      exact .inr (.inr (.inl ⟨i, k, hist, k', rfl, hth, (Option.some.inj h).symm⟩))
    · cases h
    · cases h

/-- The pools reachable from an initial state by steps that `ok` allows. -/
inductive Reach (Init : σ → Prop) (ok : Pool I σ κ → Label κ ε → Prop) : Pool I σ κ → Prop where
  | init {s : σ} : Init s → Reach Init ok ⟨s, [], []⟩
  | step {p p' : Pool I σ κ} {l : Label κ ε} : Reach Init ok p → ok p l → sys.step l p = some p' →
      Reach Init ok p'

/-- Run a schedule, refusing every step that `ok` does not allow. -/
def play (ok : Pool I σ κ → Label κ ε → Bool) : List (Label κ ε) → Pool I σ κ → Option (Pool I σ κ)
  | [], p => some p
  | l :: ls, p => if ok p l then (sys.step l p).bind (play ok ls) else none

variable {sys} {Init : σ → Prop} {ok : Pool I σ κ → Label κ ε → Prop}

/-- A schedule that plays is a run; what its checks rely on may be kept on the way. -/
theorem reach_of_play_keeping {okB : Pool I σ κ → Label κ ε → Bool} {K : Pool I σ κ → Prop} (hok : ∀ p l, K p → okB p l = true → ok p l)
    (hkeep : ∀ p l p', K p → okB p l = true → sys.step l p = some p' → K p') : ∀ {ls : List (Label κ ε)} {p p' : Pool I σ κ},
      sys.Reach Init ok p → K p → sys.play okB ls p = some p' → sys.Reach Init ok p'
  | [], p, p', hp, _, h => by
    obtain rfl := Option.some.inj h
    exact hp
  | l :: ls, p, p', hp, hk, h => by
    simp only [play] at h
    split at h
    · rename_i hb
      obtain ⟨q, hq, hrest⟩ := Option.bind_eq_some_iff.1 h
      exact reach_of_play_keeping hok hkeep (.step hp (hok p l hk hb) hq) (hkeep p l q hk hb hq) hrest
    · cases h

theorem reach_of_play {okB : Pool I σ κ → Label κ ε → Bool} (hok : ∀ p l, okB p l = true → ok p l)
    {ls : List (Label κ ε)} {p p' : Pool I σ κ} (hp : sys.Reach Init ok p) (h : sys.play okB ls p = some p') : sys.Reach Init ok p' :=
  reach_of_play_keeping (K := fun _ => True) (fun p l _ => hok p l) (fun _ _ _ _ _ _ => trivial) hp trivial h

/-- The induction rule for runs: what holds at the start and is kept by every allowed step. -/
theorem Reach.invariant {P : Pool I σ κ → Prop} (h0 : ∀ s, Init s → P ⟨s, [], []⟩)
    (hs : ∀ p p' l, sys.Reach Init ok p → P p → ok p l → sys.step l p = some p' → P p')
    {p : Pool I σ κ} (hr : sys.Reach Init ok p) : P p := by
  induction hr with
  | init hs0 => exact h0 _ hs0
  | step hp hok hst ih => exact hs _ _ _ hp ih hok hst

/-- The same for what only depends on the shared state and the trace: operations and the
environment are the only steps that change them. -/
theorem Reach.shared_invariant {P : σ → List (Entry I σ κ) → Prop} (h0 : ∀ s, Init s → P s [])
    (henv : ∀ p e, sys.Reach Init ok p → ok p (.env e) → P p.shared p.trace →
      P (sys.tick e p.shared) p.trace)
    (hact : ∀ p i k h o f, sys.Reach Init ok p → ok p (.act i) → p.threads[i]? = some ⟨k, h, .op o f⟩ →
      P p.shared p.trace → P (sys.exec o p.shared).2 (⟨i, k, h, o, p.shared⟩ :: p.trace))
    {p : Pool I σ κ} (hr : sys.Reach Init ok p) : P p.shared p.trace := by
  refine hr.invariant (P := fun p => P p.shared p.trace) h0 fun p p' l hp ih hok hst => ?_
  rcases sys.step_cases hst with ⟨k, rfl, rfl⟩ | ⟨e, rfl, rfl⟩ | ⟨i, k, h, k', rfl, _, rfl⟩ |
    ⟨i, k, h, o, f, rfl, hth, rfl⟩
  · exact ih
  · exact henv p e hp hok ih
  · exact ih
  · exact hact p i k h o f hp hok hth ih

end Sys

/-! ## Thread contracts -/

/-- A contract for every kind of thread: what it may rely on and must guarantee at each
operation, what it knows when a round begins, and what it has seen to when it is finished. -/
structure Contract (sys : Sys I σ κ ε) where
  spec : κ → Spec I
  inv : κ → Hist I → Prop
  fin : κ → Hist I → Prop
  ans_exec : ∀ k o s, (spec k).ans o (sys.exec o s).1
  inv_start : ∀ k, inv k []
  body_ok : ∀ k h, inv k h → wp (spec k) (sys.body k) (fun h' r => match r with
    | some k' => inv k' h'
    | none => fin k h') h

namespace Contract

variable {sys} (c : Contract sys)

/-- A thread that keeps its contract from here on. -/
def Keeps (th : Thread I κ) : Prop :=
  wp (c.spec th.kind) th.rest (fun h' r => match r with
    | some k' => c.inv k' h'
    | none => c.fin th.kind h') th.hist

theorem keeps_start (k : κ) : c.Keeps (sys.start k) :=
  c.body_ok k [] (c.inv_start k)

variable {Init : σ → Prop} {ok : Pool I σ κ → Label κ ε → Prop} {p : Pool I σ κ}

/-- Every thread of a reachable pool keeps its contract. -/
theorem keeps_of_reach (hr : sys.Reach Init ok p) : ∀ th ∈ p.threads, c.Keeps th := by
  refine hr.invariant (P := fun p => ∀ th ∈ p.threads, c.Keeps th) (by simp) ?_
  intro p p' l _ ih _ hst
  rcases sys.step_cases hst with ⟨k, rfl, rfl⟩ | ⟨e, rfl, rfl⟩ | ⟨i, k, h, k', rfl, hth, rfl⟩ |
    ⟨i, k, h, o, f, rfl, hth, rfl⟩
  · intro th hmem
    rcases List.mem_append.1 hmem with hm | hm
    · exact ih th hm
    · obtain rfl := List.mem_singleton.1 hm
      exact c.keeps_start k
  · exact ih
  · intro th hmem
    rcases List.mem_or_eq_of_mem_set hmem with hm | rfl
    · exact ih th hm
    · have hk : c.inv k' h := ih _ (List.mem_of_getElem? hth)
      exact c.body_ok k' h hk
  · intro th hmem
    rcases List.mem_append.1 hmem with hm | hm
    · rcases List.mem_or_eq_of_mem_set hm with hm | rfl
      · exact ih th hm
      · have hk : wp (c.spec k) (.op o f) _ h := ih _ (List.mem_of_getElem? hth)
        exact hk.2 _ (c.ans_exec k o p.shared)
    · obtain ⟨k', _, rfl⟩ := List.mem_map.1 hm
      exact c.keeps_start k'

/-- The operation a thread is about to issue is one its contract allows. -/
theorem ok_of_reach (hr : sys.Reach Init ok p) {i : Nat} {k : κ} {h : Hist I} {o : I.Op}
    {f : I.Res o → Prog I (Option κ)} (hth : p.threads[i]? = some ⟨k, h, .op o f⟩) :
    (c.spec k).ok h o := by
  have hk : wp (c.spec k) (.op o f) _ h := c.keeps_of_reach hr _ (List.mem_of_getElem? hth)
  exact hk.1

/-- Every operation of the trace was one its thread's contract allowed. -/
theorem ok_of_trace (hr : sys.Reach Init ok p) : ∀ en ∈ p.trace, (c.spec en.kind).ok en.hist en.op := by
  refine hr.shared_invariant (P := fun _ t => ∀ en ∈ t, (c.spec en.kind).ok en.hist en.op) (by simp)
    (fun _ _ _ _ ih => ih) fun p i k h o f hp _ hth ih en hen => ?_
  rcases List.mem_cons.1 hen with rfl | hen
  · exact c.ok_of_reach hp hth
  · exact ih en hen

/-- A finished thread has seen to everything its contract asks of it. -/
theorem fin_of_reach (hr : sys.Reach Init ok p) {th : Thread I κ} (hth : th ∈ p.threads)
    (hfin : th.rest = .pure none) : c.fin th.kind th.hist := by
  have hk := c.keeps_of_reach hr th hth
  rw [Keeps, hfin] at hk
  exact hk

end Contract

/-! ## Histories and the trace -/

namespace Sys

/-- What thread `i` has seen, read off the trace. -/
def seen (i : Nat) (t : List (Entry I σ κ)) : Hist I :=
  (t.filter (·.tid = i)).map sys.event

variable {sys} {Init : σ → Prop} {ok : Pool I σ κ → Label κ ε → Prop} {p : Pool I σ κ}

theorem seen_cons_self (en : Entry I σ κ) (t : List (Entry I σ κ)) :
    sys.seen en.tid (en :: t) = sys.event en :: sys.seen en.tid t := by
  simp [seen]

theorem seen_cons_ne {i : Nat} {en : Entry I σ κ} (h : en.tid ≠ i) (t : List (Entry I σ κ)) :
    sys.seen i (en :: t) = sys.seen i t := by
  simp [seen, h]

theorem mem_seen {i : Nat} {t : List (Entry I σ κ)} {ev : Event I} :
    ev ∈ sys.seen i t ↔ ∃ en ∈ t, en.tid = i ∧ sys.event en = ev := by
  simp [seen, and_assoc]

/-- A thread's history is its part of the trace, and no entry names a thread that has not
been started. -/
theorem hist_eq_seen (hr : sys.Reach Init ok p) :
    (∀ i th, p.threads[i]? = some th → th.hist = sys.seen i p.trace) ∧
      ∀ en ∈ p.trace, en.tid < p.threads.length := by
  have hnil : ∀ {p : Pool I σ κ} {i : Nat}, (∀ en ∈ p.trace, en.tid < p.threads.length) →
      p.threads.length ≤ i → sys.seen i p.trace = [] := by
    intro p i hlt hle
    simp only [seen, List.map_eq_nil_iff, List.filter_eq_nil_iff, decide_eq_true_eq]
    intro en hen heq
    exact absurd (hlt en hen) (by omega)
  refine hr.invariant (P := fun p => (∀ i th, p.threads[i]? = some th → th.hist = sys.seen i p.trace) ∧
    ∀ en ∈ p.trace, en.tid < p.threads.length) (by simp) ?_
  intro p p' l _ ⟨ih, hlt⟩ _ hst
  rcases sys.step_cases hst with ⟨k, rfl, rfl⟩ | ⟨e, rfl, rfl⟩ | ⟨i, k, h, k', rfl, hth, rfl⟩ |
    ⟨i, k, h, o, f, rfl, hth, rfl⟩
  · refine ⟨fun i th hi => ?_, fun en hen => by simpa using Nat.lt_succ_of_lt (hlt en hen)⟩
    rcases Nat.lt_or_ge i p.threads.length with hi' | hi'
    · exact ih i th (by rwa [List.getElem?_append_left hi'] at hi)
    · rw [List.getElem?_append_right hi'] at hi
      obtain ⟨_, rfl⟩ := List.getElem?_eq_some_iff.1 hi
      simp [start, hnil hlt hi']
  · exact ⟨ih, hlt⟩
  · refine ⟨fun j th hj => ?_, by simpa using hlt⟩
    rw [List.getElem?_set] at hj
    split at hj
    · rename_i hij
      subst hij
      split at hj
      · obtain rfl := Option.some.inj hj
        exact (ih i _ hth :)
      · cases hj
    · exact ih j th hj
  · obtain ⟨hi, _⟩ := List.getElem?_eq_some_iff.1 hth
    have hself := ih i _ hth
    refine ⟨fun j th hj => ?_, ?_⟩
    · simp only [acted] at hj ⊢
      rcases Nat.lt_or_ge j p.threads.length with hj' | hj'
      · rw [List.getElem?_append_left (by simpa using hj'), List.getElem?_set] at hj
        split at hj
        · rename_i hij
          subst hij
          obtain rfl := Option.some.inj hj
          rw [show i = (⟨i, k, h, o, p.shared⟩ : Entry I σ κ).tid from rfl, seen_cons_self]
          exact congrArg _ hself
        · rename_i hij
          rw [seen_cons_ne (by simpa using hij)]
          exact ih j th hj
      · rw [List.getElem?_append_right (by simpa using hj')] at hj
        obtain ⟨_, rfl⟩ := List.getElem?_eq_some_iff.1 hj
        rw [seen_cons_ne (by simp; omega), hnil hlt hj']
        simp [start]
    · intro en hen
      simp only [acted, List.length_append, List.length_set]
      rcases List.mem_cons.1 hen with rfl | hen
      · exact Nat.lt_add_right _ hi
      · exact Nat.lt_add_right _ (hlt en hen)

/-- What an entry's thread knew is its part of the trace before the entry. -/
theorem entry_hist (hr : sys.Reach Init ok p) :
    ∀ post en pre, p.trace = post ++ en :: pre → en.hist = sys.seen en.tid pre := by
  refine hr.shared_invariant
    (P := fun _ t => ∀ post en pre, t = post ++ en :: pre → en.hist = sys.seen en.tid pre)
    (by simp) (fun _ _ _ _ ih => ih) fun p i k h o f hp _ hth ih post en pre heq => ?_
  cases post with
  | nil =>
    obtain ⟨rfl, rfl⟩ := List.cons.inj heq
    exact (hist_eq_seen hp).1 i _ hth
  | cons en' post =>
    exact ih post en pre (List.cons.inj heq).2

/-- Everything a thread knew when it issued an entry was executed before that entry. -/
theorem mem_hist {post pre : List (Entry I σ κ)} {en : Entry I σ κ} {ev : Event I}
    (hr : sys.Reach Init ok p) (heq : p.trace = post ++ en :: pre) (hev : ev ∈ en.hist) :
    ∃ en' ∈ pre, en'.tid = en.tid ∧ sys.event en' = ev := by
  rw [entry_hist hr post en pre heq] at hev
  exact mem_seen.1 hev

/-- What a thread has seen since some event of its own, found in the trace. -/
theorem since_seen {i : Nat} {P Q : Event I → Prop} : ∀ {t : List (Entry I σ κ)}, Since P Q (sys.seen i t) →
    ∃ mid en older, t = mid ++ en :: older ∧ en.tid = i ∧ P (sys.event en) ∧
      ∀ en' ∈ mid, en'.tid = i → ¬ Q (sys.event en')
  | [], h => h.elim
  | en :: t, h => by
    by_cases hi : en.tid = i
    · subst hi
      rw [seen_cons_self] at h
      rcases h with hp | ⟨hq, h⟩
      · exact ⟨[], en, t, rfl, rfl, hp, by simp⟩
      · obtain ⟨mid, e, older, rfl, he, hp, hmid⟩ := since_seen h
        refine ⟨en :: mid, e, older, rfl, he, hp, fun e' he' hid => ?_⟩
        rcases List.mem_cons.1 he' with rfl | he'
        · exact hq
        · exact hmid e' he' hid
    · rw [seen_cons_ne hi] at h
      obtain ⟨mid, e, older, rfl, he, hp, hmid⟩ := since_seen h
      refine ⟨en :: mid, e, older, rfl, he, hp, fun e' he' hid => ?_⟩
      rcases List.mem_cons.1 he' with rfl | he'
      · exact absurd hid hi
      · exact hmid e' he' hid

/-- What every step keeps, is kept from any entry on. -/
theorem kept_of_reach {R : σ → Prop} (henv : ∀ p e, sys.Reach Init ok p → ok p (.env e) → R p.shared → R (sys.tick e p.shared))
    (hact : ∀ p i k h o f, sys.Reach Init ok p → ok p (.act i) → p.threads[i]? = some ⟨k, h, .op o f⟩ → R p.shared → R (sys.exec o p.shared).2)
    (hr : sys.Reach Init ok p) : (∀ en ∈ p.trace, R (sys.post en) → R p.shared) ∧
      ∀ post en pre, p.trace = post ++ en :: pre → ∀ en' ∈ pre, R (sys.post en') → R en.pre := by
  refine hr.shared_invariant (P := fun s t => (∀ en ∈ t, R (sys.post en) → R s) ∧
    ∀ post en pre, t = post ++ en :: pre → ∀ en' ∈ pre, R (sys.post en') → R en.pre) (by simp)
    (fun p e hp hok ih => ⟨fun en hen hR => henv p e hp hok (ih.1 en hen hR), ih.2⟩) fun p i k h o f hp hok hth ih => ⟨fun en hen hR => ?_, ?_⟩
  · rcases List.mem_cons.1 hen with rfl | hen
    · exact hR
    · exact hact p i k h o f hp hok hth (ih.1 en hen hR)
  · intro post en pre heq
    cases post with
    | nil =>
      obtain ⟨rfl, rfl⟩ := List.cons.inj heq
      exact ih.1
    | cons en' post => exact ih.2 post en pre (List.cons.inj heq).2

/-- What the environment keeps, and every entry since `u`, still holds where a later entry begins. -/
theorem kept_between {R : σ → Prop} (henv : ∀ e s, R s → R (sys.tick e s)) (hr : sys.Reach Init ok p) :
    ∀ (newer : List (Entry I σ κ)) (g : Entry I σ κ) (mid : List (Entry I σ κ)) (u : Entry I σ κ) (older : List (Entry I σ κ)),
      p.trace = newer ++ g :: (mid ++ u :: older) → R (sys.post u) → (∀ en ∈ mid, R en.pre → R (sys.post en)) → R g.pre := by
  have hboth := hr.shared_invariant (P := fun s t =>
    (∀ (mid : List (Entry I σ κ)) (u : Entry I σ κ) (older : List (Entry I σ κ)), t = mid ++ u :: older →
      R (sys.post u) → (∀ en ∈ mid, R en.pre → R (sys.post en)) → R s) ∧
    ∀ (newer : List (Entry I σ κ)) (g : Entry I σ κ) (mid : List (Entry I σ κ)) (u : Entry I σ κ) (older : List (Entry I σ κ)),
      t = newer ++ g :: (mid ++ u :: older) → R (sys.post u) → (∀ en ∈ mid, R en.pre → R (sys.post en)) → R g.pre) (by simp)
    (fun p e _ _ ih => ⟨fun mid u older heq hu hmid => henv e _ (ih.1 mid u older heq hu hmid), ih.2⟩)
    fun p i k h o f _ _ _ ih => ⟨fun mid u older heq hu hmid => ?_, fun newer g mid u older heq hu hmid => ?_⟩
  · exact hboth.2
  · cases mid with
    | nil =>
      obtain ⟨rfl, rfl⟩ := List.cons.inj heq
      exact hu
    | cons en mid =>
      obtain ⟨rfl, hrest⟩ := List.cons.inj heq
      exact hmid _ List.mem_cons_self (ih.1 mid u older hrest hu fun en hen => hmid en (List.mem_cons_of_mem _ hen))
  · cases newer with
    | nil =>
      obtain ⟨rfl, hrest⟩ := List.cons.inj heq
      exact ih.1 mid u older hrest hu hmid
    | cons en newer => exact ih.2 newer g mid u older (List.cons.inj heq).2 hu hmid

variable (sys) in
/-- Each thread has one round only. -/
def OneRound : Prop := ∀ k, (sys.body k).Leaves (· = none)

theorem OneRound.not_again (h1 : sys.OneRound) (hr : sys.Reach Init ok p) : ∀ th ∈ p.threads, ∀ k, th.rest ≠ .pure (some k) := by
  have hleaves : ∀ th ∈ p.threads, th.rest.Leaves (· = none) := by
    refine hr.invariant (P := fun p => ∀ th ∈ p.threads, th.rest.Leaves (· = none)) (by simp) fun p p' l _ ih _ hst => ?_
    rcases sys.step_cases hst with ⟨k, rfl, rfl⟩ | ⟨e, rfl, rfl⟩ | ⟨i, k, h, k', rfl, hth, rfl⟩ |
      ⟨i, k, h, o, f, rfl, hth, rfl⟩
    · intro th hmem
      rcases List.mem_append.1 hmem with hm | hm
      · exact ih th hm
      · obtain rfl := List.mem_singleton.1 hm
        exact h1 k
    · exact ih
    · exact nomatch (ih _ (List.mem_of_getElem? hth) : some k' = none)
    · intro th hmem
      rcases List.mem_append.1 hmem with hm | hm
      · rcases List.mem_or_eq_of_mem_set hm with hm | rfl
        · exact ih th hm
        · exact (ih _ (List.mem_of_getElem? hth) :) _
      · obtain ⟨k', _, rfl⟩ := List.mem_map.1 hm
        exact h1 k'
  intro th hth k hrest
  exact nomatch (hrest ▸ hleaves th hth : (Prog.pure (some k) : Prog I (Option κ)).Leaves (· = none))

/-- The entries of a thread that has one round only are all of its kind. -/
theorem OneRound.kind (h1 : sys.OneRound) (hr : sys.Reach Init ok p) :
    ∀ en ∈ p.trace, ∃ th, p.threads[en.tid]? = some th ∧ th.kind = en.kind := by
  refine hr.invariant (P := fun p => ∀ en ∈ p.trace, ∃ th, p.threads[en.tid]? = some th ∧ th.kind = en.kind) (by simp) ?_
  intro p p' l hp ih _ hst
  rcases sys.step_cases hst with ⟨k, rfl, rfl⟩ | ⟨e, rfl, rfl⟩ | ⟨i, k, h, k', rfl, hth, rfl⟩ |
    ⟨i, k, h, o, f, rfl, hth, rfl⟩
  · intro en hen
    obtain ⟨th, hget, hkind⟩ := ih en hen
    exact ⟨th, by rwa [List.getElem?_append_left (List.getElem?_eq_some_iff.1 hget).1], hkind⟩
  · exact ih
  · exact absurd rfl (h1.not_again hp _ (List.mem_of_getElem? hth) k')
  · have hi := (List.getElem?_eq_some_iff.1 hth).1
    intro en hen
    simp only [acted]
    rcases List.mem_cons.1 hen with rfl | hen
    · exact ⟨_, by rw [List.getElem?_append_left (by simpa using hi), List.getElem?_set_self hi], rfl⟩
    · obtain ⟨th, hget, hkind⟩ := ih en hen
      have hlt := (List.getElem?_eq_some_iff.1 hget).1
      rw [List.getElem?_append_left (by simpa using hlt)]
      by_cases htid : en.tid = i
      · subst htid
        obtain rfl := Option.some.inj (hth.symm.trans hget)
        exact ⟨_, List.getElem?_set_self hi, hkind⟩
      · exact ⟨th, by rw [List.getElem?_set_ne (Ne.symm htid)]; exact hget, hkind⟩

/-- What happens once in a trace, happens at one place of it. -/
theorem split_once {α : Type} {C : α → Prop} {a b : α} : ∀ {l l₁ l₂ l₃ l₄ : List α}, (l.Pairwise fun x y => C x → ¬C y) →
    l = l₁ ++ a :: l₂ → l = l₃ ++ b :: l₄ → C a → C b → l₁ = l₃ ∧ a = b ∧ l₂ = l₄
  | _, [], _, [], _, _, rfl, h, _, _ => by
    obtain ⟨rfl, rfl⟩ := List.cons.inj h
    exact ⟨rfl, rfl, rfl⟩
  | _, [], _, c :: l₃, _, hl, rfl, h, ha, hb => by
    obtain ⟨rfl, rfl⟩ := List.cons.inj h
    exact absurd hb ((List.pairwise_cons.1 hl).1 b (by simp) ha)
  | _, c :: l₁, _, [], _, hl, rfl, h, ha, hb => by
    obtain ⟨rfl, rfl⟩ := List.cons.inj h
    exact absurd ha ((List.pairwise_cons.1 hl).1 a (by simp) hb)
  | _, c :: l₁, _, c' :: l₃, _, hl, rfl, h, ha, hb => by
    obtain ⟨rfl, htail⟩ := List.cons.inj h
    obtain ⟨rfl, hab, hrest⟩ := split_once (List.pairwise_cons.1 hl).2 rfl htail ha hb
    exact ⟨rfl, hab, hrest⟩

variable (sys) in
/-- Every operation is issued under a condition on it and on the trace so far. -/
def Guarded (G : List (Entry I σ κ) → Entry I σ κ → Prop) (p : Pool I σ κ) : Label κ ε → Prop
  | .act i => ∀ k h o f, p.threads[i]? = some ⟨k, h, .op o f⟩ → G p.trace ⟨i, k, h, o, p.shared⟩
  | _ => True

theorem guarded_trace {G : List (Entry I σ κ) → Entry I σ κ → Prop} (hG : ∀ p l, ok p l → Guarded G p l)
    (hr : sys.Reach Init ok p) : ∀ post en pre, p.trace = post ++ en :: pre → G pre en := by
  refine hr.shared_invariant (P := fun _ t => ∀ post en pre, t = post ++ en :: pre → G pre en)
    (by simp) (fun _ _ _ _ ih => ih) fun p i k h o f _ hok hth ih post en pre heq => ?_
  cases post with
  | nil =>
    obtain ⟨rfl, rfl⟩ := List.cons.inj heq
    exact hG p _ hok k h o f hth
  | cons en' post => exact ih post en pre (List.cons.inj heq).2

/-- The same as a check of one step. -/
def guardedB (G : List (Entry I σ κ) → Entry I σ κ → Prop) [∀ t en, Decidable (G t en)] (p : Pool I σ κ) :
    Label κ ε → Bool
  | .act i =>
    match p.threads[i]? with
    | some ⟨k, h, .op o _⟩ => decide (G p.trace ⟨i, k, h, o, p.shared⟩)
    | _ => true
  | _ => true

theorem guarded_of_guardedB {G : List (Entry I σ κ) → Entry I σ κ → Prop} [∀ t en, Decidable (G t en)]
    {p : Pool I σ κ} {l : Label κ ε} (h : guardedB G p l = true) : Guarded G p l := by
  cases l with
  | act i =>
    intro k hist o f hth
    simp only [guardedB, hth] at h
    exact of_decide_eq_true h
  | _ => trivial

end Sys

end Conc
