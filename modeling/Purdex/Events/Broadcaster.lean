/-
The broadcaster of host events: connections subscribe and are removed by two goroutines of their own, broadcasts go
to all that are registered, and the callbacks of a subscription send by themselves.
-/
import Purdex.Conc.Chan
import Purdex.Conc.Serial
import Mathlib.Data.List.Nodup

namespace Purdex.Events

open Conc

variable {α : Type}

/-! ## Subscribers -/

/-- Where the goroutine of a connection is: in the callbacks, in the read loop, or at its end. -/
inductive HandlerPhase where
  | subscribing
  | reading
  | done
  deriving Repr, DecidableEq

/-- A connection with its channel; `registered` says whether it is in the set, and `pumping` whether its write pump runs. -/
structure EventSubscriber (α : Type) where
  send : Chan α
  registered : Bool
  handler : HandlerPhase
  pumping : Bool
  deriving Repr, DecidableEq

/-- A broadcast on its way, which holds the read lock: whom it still has to reach. -/
structure Broadcast (α : Type) where
  msg : α
  rest : List Nat
  deriving Repr, DecidableEq

structure EventsBroadcaster (α : Type) where
  subscribers : List (EventSubscriber α)
  broadcasts : List (Broadcast α)
  deriving Repr, DecidableEq

def newEventsBroadcaster : EventsBroadcaster α := ⟨[], []⟩

def sendBuffer : Nat := 64

def newSubscriber : EventSubscriber α := ⟨.make sendBuffer, true, .subscribing, true⟩

def EventSubscriber.trySend (msg : α) (sub : EventSubscriber α) : Except ChanPanic (EventSubscriber α) :=
  (sub.send.trySend msg).map fun send => { sub with send }

/-- Only who is in the set is taken out of it, and its channel closed. -/
def EventSubscriber.remove (sub : EventSubscriber α) : Except ChanPanic (EventSubscriber α) :=
  if sub.registered then sub.send.close.map fun send => { sub with send, registered := false } else .ok sub

/-- The registered subscribers. -/
def EventsBroadcaster.registered (eb : EventsBroadcaster α) : List Nat :=
  (List.range eb.subscribers.length).filter fun i => (eb.subscribers[i]?).any (·.registered)

/-- What one goroutine does with one subscriber; when it panics, `unwind` is what is left to do. -/
def EventsBroadcaster.update (eb : EventsBroadcaster α) (i : Nat) (run : EventSubscriber α → Except ChanPanic (EventSubscriber α))
    (unwind : EventSubscriber α → EventSubscriber α) : Except ChanPanic Unit × EventsBroadcaster α :=
  match eb.subscribers[i]? with
  | none => (.ok (), eb)
  | some sub =>
    match run sub with
    | .ok sub' => (.ok (), { eb with subscribers := eb.subscribers.set i sub' })
    | .error p => (.error p, { eb with subscribers := eb.subscribers.set i (unwind sub) })

/-! ## Steps -/

inductive EventStep (α : Type) where
  | add
  /-- `Send` by a callback of the subscription. -/
  | send (i : Nat) (msg : α)
  /-- The callbacks are over. -/
  | subscribed (i : Nat)
  /-- The read loop ends, and the deferred `Remove` runs. -/
  | disconnect (i : Nat)
  /-- The pump takes a message and writes it. -/
  | pumpWrite (i : Nat)
  /-- A write or a ping of the pump fails, and it removes the subscriber. -/
  | pumpError (i : Nat)
  | broadcast (msg : α) (order : List Nat)
  | deliver (k : Nat)
  | broadcastEnds (k : Nat)
  deriving Repr, DecidableEq

def EventStep.act : EventStep α → EventsBroadcaster α → Except ChanPanic Unit × EventsBroadcaster α
  | .add, eb => (.ok (), { eb with subscribers := eb.subscribers ++ [newSubscriber] })
  | .send i msg, eb => eb.update i (·.trySend msg) fun sub => { sub with handler := .done }
  | .subscribed i, eb => eb.update i (fun sub => .ok { sub with handler := .reading }) id
  | .disconnect i, eb => eb.update i (fun sub => ({ sub with handler := .done } : EventSubscriber α).remove) id
  | .pumpWrite i, eb => eb.update i (fun sub => .ok { sub with send := sub.send.recv }) id
  | .pumpError i, eb => eb.update i (fun sub => ({ sub with pumping := false } : EventSubscriber α).remove) id
  | .broadcast msg order, eb => (.ok (), { eb with broadcasts := eb.broadcasts ++ [⟨msg, order⟩] })
  | .deliver k, eb =>
    match eb.broadcasts[k]? with
    | some ⟨msg, i :: rest⟩ => { eb with broadcasts := eb.broadcasts.set k ⟨msg, rest⟩ }.update i (·.trySend msg) id
    | _ => (.ok (), eb)
  | .broadcastEnds k, eb => (.ok (), { eb with broadcasts := eb.broadcasts.eraseIdx k })

/-- A step that can happen: the set changes under the write lock, and broadcasts run under the read lock, over the set
in any order. -/
def EventStep.Enabled (eb : EventsBroadcaster α) : EventStep α → Prop
  | .add => eb.broadcasts = []
  | .send i _ | .subscribed i => ∃ sub : EventSubscriber α, eb.subscribers[i]? = some sub ∧ sub.handler = .subscribing
  | .disconnect i => eb.broadcasts = [] ∧ ∃ sub : EventSubscriber α, eb.subscribers[i]? = some sub ∧ sub.handler = .reading
  | .pumpWrite i => ∃ sub : EventSubscriber α, eb.subscribers[i]? = some sub ∧ sub.pumping = true ∧ sub.send.buffer ≠ []
  | .pumpError i => eb.broadcasts = [] ∧ ∃ sub : EventSubscriber α, eb.subscribers[i]? = some sub ∧ sub.pumping = true
  | .broadcast _ order => order.Perm eb.registered
  | .deliver k => ∃ msg i rest, eb.broadcasts[k]? = some ⟨msg, i :: rest⟩
  | .broadcastEnds k => ∃ msg, eb.broadcasts[k]? = some ⟨msg, []⟩

abbrev EventRuns : EventsBroadcaster α → List (Served (EventsBroadcaster α) (EventStep α) (Except ChanPanic Unit)) → Prop :=
  Serves EventStep.act (· = newEventsBroadcaster) fun eb st => st.Enabled eb

/-! ## What every run keeps -/

/-- A channel is closed just when its subscriber is out of the set, and a broadcast still has to reach registered ones only. -/
structure EventsBroadcaster.Sound (eb : EventsBroadcaster α) : Prop where
  closed : ∀ (i : Nat) (sub : EventSubscriber α), eb.subscribers[i]? = some sub → sub.send.closed = !sub.registered
  gone : ∀ (i : Nat) (sub : EventSubscriber α), eb.subscribers[i]? = some sub → sub.handler = .done → sub.registered = false
  reached : ∀ d ∈ eb.broadcasts, ∀ i ∈ d.rest, ∃ sub : EventSubscriber α, eb.subscribers[i]? = some sub ∧ sub.registered = true

section Steps

variable {eb : EventsBroadcaster α} {i : Nat} {sub : EventSubscriber α} {st : EventStep α}

theorem update_ok {run : EventSubscriber α → Except ChanPanic (EventSubscriber α)} {unwind : EventSubscriber α → EventSubscriber α}
    {sub' : EventSubscriber α} (hget : eb.subscribers[i]? = some sub) (hrun : run sub = .ok sub') :
    eb.update i run unwind = (.ok (), { eb with subscribers := eb.subscribers.set i sub' }) := by
  unfold EventsBroadcaster.update
  rw [hget]
  dsimp only
  rw [hrun]

theorem update_error {run : EventSubscriber α → Except ChanPanic (EventSubscriber α)} {unwind : EventSubscriber α → EventSubscriber α}
    {p : ChanPanic} (hget : eb.subscribers[i]? = some sub) (hrun : run sub = .error p) :
    eb.update i run unwind = (.error p, { eb with subscribers := eb.subscribers.set i (unwind sub) }) := by
  unfold EventsBroadcaster.update
  rw [hget]
  dsimp only
  rw [hrun]

theorem mem_registered : i ∈ eb.registered ↔ ∃ sub : EventSubscriber α, eb.subscribers[i]? = some sub ∧ sub.registered = true := by
  rw [EventsBroadcaster.registered, List.mem_filter, Option.any_eq_true, List.mem_range]
  refine and_iff_right_of_imp fun ⟨sub, hget, _⟩ => (List.getElem?_eq_some_iff.1 hget).1

/-- A change of one subscriber that keeps it registered, or that removes it while no broadcast runs. -/
theorem EventsBroadcaster.Sound.set (h : eb.Sound) {sub' : EventSubscriber α} (hget : eb.subscribers[i]? = some sub)
    (hclosed : sub'.send.closed = !sub'.registered) (hgone : sub'.handler = .done → sub'.registered = false)
    (hkept : sub.registered = true → sub'.registered = true ∨ eb.broadcasts = []) :
    ({ eb with subscribers := eb.subscribers.set i sub' } : EventsBroadcaster α).Sound := by
  refine ⟨fun j sub₁ hj => ?_, fun j sub₁ hj hdone => ?_, fun d hd j hj => ?_⟩
  · rw [getElem?_set_of_some hget] at hj
    split at hj
    · obtain rfl := Option.some.inj hj
      exact hclosed
    · exact h.closed j sub₁ hj
  · rw [getElem?_set_of_some hget] at hj
    split at hj
    · obtain rfl := Option.some.inj hj
      exact hgone hdone
    · exact h.gone j sub₁ hj hdone
  · obtain ⟨sub₁, hsub₁, hregistered⟩ := h.reached d hd j hj
    show ∃ sub, (eb.subscribers.set i sub')[j]? = some sub ∧ _
    rw [getElem?_set_of_some hget]
    split
    · rename_i hij
      subst hij
      obtain rfl := Option.some.inj (hget.symm.trans hsub₁)
      rcases hkept hregistered with hkept | hnone
      · exact ⟨sub', rfl, hkept⟩
      · exact absurd (hnone ▸ hd) List.not_mem_nil
    · exact ⟨sub₁, hsub₁, hregistered⟩

theorem remove_cases {x : EventSubscriber α} (hclosed : x.send.closed = !x.registered) : ∃ sub', x.remove = .ok sub' ∧ sub'.send.closed = true ∧
    sub'.registered = false ∧ sub'.handler = x.handler ∧ sub'.send.sent = x.send.sent := by
  unfold EventSubscriber.remove
  by_cases hregistered : x.registered = true
  · rw [hregistered] at hclosed
    rw [if_pos hregistered, Chan.close_open hclosed]
    exact ⟨_, rfl, rfl, rfl, rfl, rfl⟩
  · have hfalse : x.registered = false := by simpa using hregistered
    rw [if_neg hregistered]
    exact ⟨x, rfl, by rw [hclosed, hfalse]; rfl, hfalse, rfl, rfl⟩

/-- A send to a subscriber of the set. -/
theorem trySend_registered {m : α} (hclosed : sub.send.closed = !sub.registered) (hregistered : sub.registered = true) :
    ∃ sub', sub.trySend m = .ok sub' ∧ sub'.send.closed = false ∧ sub'.registered = true ∧ sub'.handler = sub.handler := by
  have hopen : sub.send.closed = false := by rw [hclosed, hregistered]; rfl
  rw [EventSubscriber.trySend, Chan.trySend_open hopen]
  refine ⟨_, rfl, ?_, hregistered, rfl⟩
  dsimp only
  split <;> exact hopen

theorem trySend_unregistered {msg : α} (hclosed : sub.send.closed = !sub.registered) (hregistered : sub.registered = false) :
    sub.trySend msg = .error .sendOnClosed := by
  have hclose : sub.send.closed = true := by rw [hclosed, hregistered]; rfl
  rw [EventSubscriber.trySend, Chan.trySend_closed hclose]
  rfl

/-- Who is out of the set stays out, and nothing more is sent to it. -/
def StaysOut (sub sub' : EventSubscriber α) : Prop := sub.registered = false → sub'.registered = false ∧ sub'.send.sent = sub.send.sent

theorem staysOut_set {sub₀ sub' : EventSubscriber α} (hget : eb.subscribers[i]? = some sub) (hout : StaysOut sub sub') {j : Nat}
    (hj : eb.subscribers[j]? = some sub₀) : ∃ sub₁, (eb.subscribers.set i sub')[j]? = some sub₁ ∧ StaysOut sub₀ sub₁ := by
  rw [getElem?_set_of_some hget]
  split
  · rename_i hij
    subst hij
    obtain rfl := Option.some.inj (hget.symm.trans hj)
    exact ⟨sub', rfl, hout⟩
  · exact ⟨sub₀, hj, fun hregistered => ⟨hregistered, rfl⟩⟩

/-- A send that comes in time: its subscriber was not removed yet. -/
def Timely (eb : EventsBroadcaster α) (st : EventStep α) : Prop :=
  ∀ i msg, st = .send i msg → ∀ sub, eb.subscribers[i]? = some sub → sub.registered = true

/-- What a step does: it keeps what is known, it panics just where it sends too late, and who was removed gets nothing. -/
structure StepSound (eb : EventsBroadcaster α) (st : EventStep α) : Prop where
  sound : (st.act eb).2.Sound
  calm : (st.act eb).1 = .ok () ↔ Timely eb st
  out : ∀ (i : Nat) (sub : EventSubscriber α), eb.subscribers[i]? = some sub → ∃ sub', (st.act eb).2.subscribers[i]? = some sub' ∧ StaysOut sub sub'

theorem stepSound_set (h : eb.Sound) {sub' : EventSubscriber α} (hget : eb.subscribers[i]? = some sub) (hst : ∀ i msg, st ≠ .send i msg)
    (hact : st.act eb = (.ok (), { eb with subscribers := eb.subscribers.set i sub' }))
    (hclosed : sub'.send.closed = !sub'.registered) (hgone : sub'.handler = .done → sub'.registered = false)
    (hkept : sub.registered = true → sub'.registered = true ∨ eb.broadcasts = []) (hout : StaysOut sub sub') : StepSound eb st where
  sound := by
    rw [hact]
    exact h.set hget hclosed hgone hkept
  calm := by
    rw [hact]
    exact iff_of_true rfl fun i msg heq => absurd heq (hst i msg)
  out j sub₀ hj := by
    rw [hact]
    exact staysOut_set hget hout hj

theorem stepSound_add (h : eb.Sound) : StepSound eb .add where
  sound := by
    refine ⟨fun j sub hj => ?_, fun j sub hj hdone => ?_, fun d hd j hj => ?_⟩
    · rcases List.mem_append.1 (List.mem_of_getElem? hj) with hmem | hmem
      · obtain ⟨i, hi⟩ := List.mem_iff_getElem?.1 hmem
        exact h.closed i sub hi
      · obtain rfl := List.mem_singleton.1 hmem
        rfl
    · rcases List.mem_append.1 (List.mem_of_getElem? hj) with hmem | hmem
      · obtain ⟨i, hi⟩ := List.mem_iff_getElem?.1 hmem
        exact h.gone i sub hi hdone
      · obtain rfl := List.mem_singleton.1 hmem
        cases hdone
    · obtain ⟨sub, hsub, hregistered⟩ := h.reached d hd j hj
      exact ⟨sub, getElem?_append_of_some hsub, hregistered⟩
  calm := iff_of_true rfl nofun
  out j sub hj := ⟨sub, getElem?_append_of_some hj, fun hregistered => ⟨hregistered, rfl⟩⟩

theorem stepSound_send (h : eb.Sound) {msg : α} (hget : eb.subscribers[i]? = some sub) (hphase : sub.handler = .subscribing) :
    StepSound eb (.send i msg) := by
  by_cases hregistered : sub.registered = true
  · obtain ⟨sub', hsend, hclosed', hregistered', hhandler'⟩ := trySend_registered (m := msg) (h.closed i sub hget) hregistered
    have hact : EventStep.act (.send i msg) eb = (.ok (), { eb with subscribers := eb.subscribers.set i sub' }) := update_ok hget hsend
    refine ⟨?_, ?_, fun j sub₀ hj => ?_⟩
    · rw [hact]
      refine h.set hget (by rw [hclosed', hregistered']; rfl) (fun hdone => ?_) fun _ => .inl hregistered'
      rw [hhandler', hphase] at hdone
      cases hdone
    · rw [hact]
      refine iff_of_true rfl fun i' msg' heq sub₁ hsub₁ => ?_
      cases heq
      obtain rfl := Option.some.inj (hget.symm.trans hsub₁)
      exact hregistered
    · rw [hact]
      exact staysOut_set hget (fun hout => absurd hregistered (by simp [hout])) hj
  · have hout : sub.registered = false := by simpa using hregistered
    have hact : EventStep.act (.send i msg) eb = (.error .sendOnClosed, { eb with subscribers := eb.subscribers.set i { sub with handler := .done } }) :=
      update_error hget (trySend_unregistered (h.closed i sub hget) hout)
    refine ⟨?_, ?_, fun j sub₀ hj => ?_⟩
    · rw [hact]
      exact h.set hget (h.closed i sub hget) (fun _ => hout) fun hin => absurd hin hregistered
    · rw [hact]
      exact iff_of_false nofun fun htimely => hregistered (htimely i msg rfl sub hget)
    · rw [hact]
      have hsame : StaysOut sub { sub with handler := .done } := fun _ => ⟨hout, rfl⟩
      exact staysOut_set hget hsame hj

theorem stepSound_broadcast (h : eb.Sound) {msg : α} {order : List Nat} (hperm : order.Perm eb.registered) : StepSound eb (.broadcast msg order) where
  sound := by
    refine ⟨h.closed, h.gone, fun d hd j hj => ?_⟩
    rcases List.mem_append.1 hd with hd | hd
    · exact h.reached d hd j hj
    · obtain rfl := List.mem_singleton.1 hd
      exact mem_registered.1 (hperm.mem_iff.1 hj)
  calm := iff_of_true rfl nofun
  out j sub hj := ⟨sub, hj, fun hregistered => ⟨hregistered, rfl⟩⟩

/-- A broadcast reaches subscribers of the set only, so that it never panics. -/
theorem stepSound_deliver (h : eb.Sound) {k : Nat} {msg : α} {rest : List Nat} (hk : eb.broadcasts[k]? = some ⟨msg, i :: rest⟩) :
    StepSound eb (.deliver k) := by
  have hmem : (⟨msg, i :: rest⟩ : Broadcast α) ∈ eb.broadcasts := List.mem_of_getElem? hk
  obtain ⟨sub, hget, hregistered⟩ := h.reached _ hmem i List.mem_cons_self
  obtain ⟨sub', hsend, hclosed', hregistered', hhandler'⟩ := trySend_registered (m := msg) (h.closed i sub hget) hregistered
  have hact : EventStep.act (.deliver k) eb = (.ok (), { eb with broadcasts := eb.broadcasts.set k ⟨msg, rest⟩, subscribers := eb.subscribers.set i sub' }) := by
    rw [EventStep.act, hk]
    exact update_ok hget hsend
  have hset : ({ eb with subscribers := eb.subscribers.set i sub' } : EventsBroadcaster α).Sound := by
    refine h.set hget (by rw [hclosed', hregistered']; rfl) (fun hdone => ?_) fun _ => .inl hregistered'
    rw [hhandler'] at hdone
    exact absurd hregistered (by simp [h.gone i sub hget hdone])
  refine ⟨?_, ?_, fun j sub₀ hj => ?_⟩
  · rw [hact]
    refine ⟨hset.closed, hset.gone, fun d hd j hj => ?_⟩
    rcases List.mem_or_eq_of_mem_set hd with hd | rfl
    · exact hset.reached d hd j hj
    · exact hset.reached _ hmem j (List.mem_cons_of_mem i hj)
  · rw [hact]
    exact iff_of_true rfl nofun
  · rw [hact]
    exact staysOut_set hget (fun hout => absurd hregistered (by simp [hout])) hj

theorem stepSound_of_enabled (h : eb.Sound) (hen : st.Enabled eb) : StepSound eb st := by
  cases st with
  | add => exact stepSound_add h
  | send i msg =>
    obtain ⟨sub, hget, hphase⟩ := hen
    exact stepSound_send h hget hphase
  | subscribed i =>
    obtain ⟨sub, hget, hphase⟩ := hen
    have hact : EventStep.act (.subscribed i) eb = (.ok (), { eb with subscribers := eb.subscribers.set i { sub with handler := .reading } }) := by
      simp only [EventStep.act, EventsBroadcaster.update, hget]
    exact stepSound_set h hget nofun hact (h.closed i sub hget) nofun .inl fun hr => ⟨hr, rfl⟩
  | disconnect i =>
    obtain ⟨hnone, sub, hget, hphase⟩ := hen
    obtain ⟨sub', hremove, hclosed, hregistered, -, hsent⟩ := remove_cases (x := { sub with handler := .done }) (h.closed i sub hget)
    have hact : EventStep.act (.disconnect i) eb = (.ok (), { eb with subscribers := eb.subscribers.set i sub' }) := update_ok hget hremove
    exact stepSound_set h hget nofun hact (by rw [hclosed, hregistered]; rfl) (fun _ => hregistered) (fun _ => .inr hnone) fun _ => ⟨hregistered, hsent⟩
  | pumpWrite i =>
    obtain ⟨sub, hget, -, -⟩ := hen
    have hact : EventStep.act (.pumpWrite i) eb = (.ok (), { eb with subscribers := eb.subscribers.set i { sub with send := sub.send.recv } }) := by
      simp only [EventStep.act, EventsBroadcaster.update, hget]
    exact stepSound_set h hget nofun hact (h.closed i sub hget) (h.gone i sub hget) .inl fun hr => ⟨hr, rfl⟩
  | pumpError i =>
    obtain ⟨hnone, sub, hget, -⟩ := hen
    obtain ⟨sub', hremove, hclosed, hregistered, -, hsent⟩ := remove_cases (x := { sub with pumping := false }) (h.closed i sub hget)
    have hact : EventStep.act (.pumpError i) eb = (.ok (), { eb with subscribers := eb.subscribers.set i sub' }) := update_ok hget hremove
    exact stepSound_set h hget nofun hact (by rw [hclosed, hregistered]; rfl) (fun _ => hregistered) (fun _ => .inr hnone) fun _ => ⟨hregistered, hsent⟩
  | broadcast msg order => exact stepSound_broadcast h hen
  | deliver k =>
    obtain ⟨msg, i, rest, hk⟩ := hen
    exact stepSound_deliver h hk
  | broadcastEnds k =>
    exact ⟨⟨h.closed, h.gone, fun d hd => h.reached d (List.mem_of_mem_eraseIdx hd)⟩, iff_of_true rfl nofun, fun j sub hj => ⟨sub, hj, fun hr => ⟨hr, rfl⟩⟩⟩

end Steps

/-! ## Whole runs -/

abbrev Event (α : Type) := Served (EventsBroadcaster α) (EventStep α) (Except ChanPanic Unit)

def EventsBroadcaster.closedAt (eb : EventsBroadcaster α) (i : Nat) : Bool := (eb.subscribers[i]?).any (·.send.closed)

/-- The step at which the channel of the `i`-th subscriber was closed. -/
def closes (i : Nat) (e : Event α) : Bool := !e.pre.closedAt i && (e.request.act e.pre).2.closedAt i

/-- No send finds its channel closed and no close either, a channel is closed once, when its subscriber is removed, which
has happened when its connection is over, and from then on it gets nothing more. -/
structure NoneAfterClose (eb : EventsBroadcaster α) (t : List (Event α)) : Prop where
  calm : ∀ e ∈ t, e.reply = .ok ()
  closed : ∀ (i : Nat) (sub : EventSubscriber α), eb.subscribers[i]? = some sub →
    (sub.send.closed = true ↔ sub.registered = false) ∧ (sub.handler = .done → sub.send.closed = true)
  once : ∀ i, t.countP (closes i) = (eb.closedAt i).toNat
  out : ∀ e ∈ t, ∀ (i : Nat) (sub : EventSubscriber α), e.pre.subscribers[i]? = some sub → sub.registered = false →
    ∃ sub' : EventSubscriber α, eb.subscribers[i]? = some sub' ∧ sub'.registered = false ∧ sub'.send.sent = sub.send.sent

section Runs

variable {eb : EventsBroadcaster α} {t : List (Event α)}

theorem sound_of_runs (h : EventRuns eb t) : eb.Sound ∧ ∀ e ∈ t, e.pre.Sound ∧ e.request.Enabled e.pre ∧ e.reply = (e.request.act e.pre).1 := by
  refine Serves.invariant (fun eb hinit => ?_) (fun eb st hsound hen => (stepSound_of_enabled hsound hen).sound) h
  subst hinit
  exact ⟨nofun, nofun, nofun⟩

theorem closedAt_iff (h : eb.Sound) {i : Nat} : eb.closedAt i = true ↔ ∃ sub : EventSubscriber α, eb.subscribers[i]? = some sub ∧ sub.registered = false := by
  rw [EventsBroadcaster.closedAt, Option.any_eq_true]
  refine exists_congr fun sub => and_congr_right fun hget => ?_
  rw [h.closed i sub hget]
  simp

/-- Once closed, a channel stays closed. -/
theorem closedAt_step (h : eb.Sound) {st : EventStep α} (hstep : StepSound eb st) {i : Nat} (hclosed : eb.closedAt i = true) :
    (st.act eb).2.closedAt i = true := by
  obtain ⟨sub, hget, hregistered⟩ := (closedAt_iff h).1 hclosed
  obtain ⟨sub', hget', hout⟩ := hstep.out i sub hget
  exact (closedAt_iff hstep.sound).2 ⟨sub', hget', (hout hregistered).1⟩

theorem once_of_runs (h : EventRuns eb t) (i : Nat) : t.countP (closes i) = (eb.closedAt i).toNat := by
  induction h with
  | init hinit =>
    subst hinit
    rfl
  | step hruns hen ih =>
    rename_i eb t st
    have hsound : eb.Sound := (sound_of_runs hruns).1
    have hstep : StepSound eb st := stepSound_of_enabled hsound hen
    have hstays : eb.closedAt i = true → (st.act eb).2.closedAt i = true := closedAt_step hsound hstep
    rw [List.countP_cons, ih, closes]
    cases hpre : eb.closedAt i with
    | true => rw [hstays hpre]; rfl
    | false => cases (st.act eb).2.closedAt i <;> rfl

theorem out_of_runs (h : EventRuns eb t) : ∀ e ∈ t, ∀ (i : Nat) (sub : EventSubscriber α), e.pre.subscribers[i]? = some sub → sub.registered = false →
    ∃ sub' : EventSubscriber α, eb.subscribers[i]? = some sub' ∧ sub'.registered = false ∧ sub'.send.sent = sub.send.sent := by
  induction h with
  | init => exact nofun
  | step hruns hen ih =>
    have hstep := stepSound_of_enabled (sound_of_runs hruns).1 hen
    intro e he i sub hget hregistered
    rcases List.mem_cons.1 he with rfl | he
    · obtain ⟨sub', hget', hout⟩ := hstep.out i sub hget
      exact ⟨sub', hget', hout hregistered⟩
    · obtain ⟨sub₁, hget₁, hregistered₁, hsent₁⟩ := ih e he i sub hget hregistered
      obtain ⟨sub', hget', hout⟩ := hstep.out i sub₁ hget₁
      obtain ⟨hregistered', hsent'⟩ := hout hregistered₁
      exact ⟨sub', hget', hregistered', hsent'.trans hsent₁⟩

/-- Nothing is sent to a closed subscriber just when every callback sends in time: nothing else can get there. -/
theorem none_after_close (eb : EventsBroadcaster α) (t : List (Event α)) (h : EventRuns eb t) :
    NoneAfterClose eb t ↔ ∀ e ∈ t, Timely e.pre e.request := by
  obtain ⟨hsound, hevents⟩ := sound_of_runs h
  have hcalm : ∀ e ∈ t, (e.reply = .ok () ↔ Timely e.pre e.request) := fun e he => by
    obtain ⟨hpre, hen, hreply⟩ := hevents e he
    rw [hreply]
    exact (stepSound_of_enabled hpre hen).calm
  refine ⟨fun hnone e he => (hcalm e he).1 (hnone.calm e he), fun htimely => ?_⟩
  refine ⟨fun e he => (hcalm e he).2 (htimely e he), fun i sub hget => ?_, once_of_runs h, out_of_runs h⟩
  have hclosed : sub.send.closed = true ↔ sub.registered = false := by
    rw [hsound.closed i sub hget]
    simp
  exact ⟨hclosed, fun hdone => hclosed.2 (hsound.gone i sub hget hdone)⟩

/-- The run that takes the given steps. -/
def playEvents (steps : List (EventStep α)) : EventsBroadcaster α × List (Event α) := serveAll EventStep.act steps newEventsBroadcaster []

theorem runs_of_play {steps : List (EventStep α)} (h : AllOk EventStep.act (fun eb st => st.Enabled eb) steps newEventsBroadcaster) :
    EventRuns (playEvents steps).1 (playEvents steps).2 :=
  Serves.all (.init rfl) h

/-- A connection that is subscribed and told of one event, until its pump fails and then its read loop ends. -/
def oneConnection : List (EventStep String) :=
  [.add, .send 0 "snapshot", .subscribed 0, .broadcast "status" [0], .deliver 0, .broadcastEnds 0, .pumpWrite 0, .pumpError 0, .disconnect 0]

theorem oneConnection_ok : AllOk EventStep.act (fun eb st => st.Enabled eb) oneConnection newEventsBroadcaster :=
  ⟨rfl, ⟨_, rfl, rfl⟩, ⟨_, rfl, rfl⟩, .refl _, ⟨_, _, _, rfl⟩, ⟨_, rfl⟩, ⟨_, rfl, rfl, nofun⟩, ⟨rfl, _, rfl, rfl⟩, ⟨rfl, _, rfl, rfl⟩, trivial⟩

theorem none_after_close_oneConnection : NoneAfterClose (playEvents oneConnection).1 (playEvents oneConnection).2 ↔
    ∀ e ∈ (playEvents oneConnection).2, Timely e.pre e.request :=
  none_after_close _ _ (runs_of_play oneConnection_ok)

/-- The pump fails, on a ping say, while the callbacks of the subscription still run. -/
def lateSnapshot : List (EventStep String) := [.add, .pumpError 0, .send 0 "snapshot"]

theorem lateSnapshot_ok : AllOk EventStep.act (fun eb st => st.Enabled eb) lateSnapshot newEventsBroadcaster :=
  ⟨rfl, ⟨rfl, _, rfl, rfl⟩, ⟨_, rfl, rfl⟩, trivial⟩

theorem lateSnapshot_panics : EventRuns (playEvents lateSnapshot).1 (playEvents lateSnapshot).2 ∧
    ¬ NoneAfterClose (playEvents lateSnapshot).1 (playEvents lateSnapshot).2 := by
  refine ⟨runs_of_play lateSnapshot_ok, fun hnone => ?_⟩
  cases hnone.calm _ List.mem_cons_self

end Runs

end Purdex.Events
