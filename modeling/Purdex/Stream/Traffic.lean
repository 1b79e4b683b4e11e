/-
What goes through the bridge: a subscriber receives what its own relay passed on since it came, in that order, and misses
only what found its buffer full.
-/
import Purdex.Stream.Isolation

namespace Purdex.Stream

open Conc

variable {α : Type}

/-! ## What is on its way -/

/-- What the `i`-th subscriber still has to be offered. -/
def Relay.pending (rel : Relay α) (i : Nat) : List α :=
  match rel.fanout with
  | none => []
  | some d => if i ∈ d.rest then [d.msg] else []

/-- A subscriber was offered what its relay passed on since it came, but for what is on its way. What went in stands in that
order, and what did not was dropped. -/
structure Fed (rel : Relay α) (i : Nat) (sub : Subscriber α) (offered : List α) : Prop where
  since : rel.relayed.drop sub.joined = offered ++ rel.pending i
  sent : sub.ch.sent.Sublist offered
  all : sub.ch.closed = false → (sub.ch.sent ++ sub.dropped).Perm offered

structure Bridge.Traffic (b : Bridge α) : Prop where
  onTheWay : ∀ (r : Nat) (rel : Relay α) d, b.relays[r]? = some rel → rel.fanout = some d →
    d.rest.Nodup ∧ ∀ i ∈ d.rest, ∃ sub : Subscriber α, b.subs[i]? = some sub ∧ sub.relay = r ∧ sub.ch.closed = false
  fed : ∀ (i : Nat) (sub : Subscriber α) (rel : Relay α), b.subs[i]? = some sub → b.relays[sub.relay]? = some rel →
    sub.joined ≤ rel.relayed.length ∧ ∃ offered, Fed rel i sub offered

/-- What a step may do to a subscriber: a closed one is left alone, and a message is dropped only when the buffer is full. -/
structure Later (sub sub' : Subscriber α) : Prop where
  relay : sub'.relay = sub.relay
  joined : sub'.joined = sub.joined
  closed : sub.ch.closed = true → sub'.ch.closed = true ∧ sub'.ch.sent = sub.ch.sent
  dropped : sub'.dropped = sub.dropped ∨ sub.ch.cap ≤ sub.ch.buffer.length

theorem Later.refl (sub : Subscriber α) : Later sub sub := ⟨rfl, rfl, fun h => ⟨h, rfl⟩, .inl rfl⟩

structure StepSound (b : Bridge α) (st : BridgeStep α) : Prop where
  sound : (st.act b).2.Sound
  traffic : (st.act b).2.Traffic
  calm : (st.act b).1 = .ok ()
  later : ∀ (i : Nat) (sub : Subscriber α), b.subs[i]? = some sub → ∃ sub' : Subscriber α, (st.act b).2.subs[i]? = some sub' ∧ Later sub sub'

section Frame

variable {b b' : Bridge α}

instance (b : Bridge α) [DecidableEq α] : Decidable b.Quiet := inferInstanceAs (Decidable (∀ rel ∈ b.relays, rel.fanout = none))

theorem pending_of_quiet (hquiet : b.Quiet) {r : Nat} {rel : Relay α} (hget : b.relays[r]? = some rel) (i : Nat) : rel.pending i = [] := by
  rw [Relay.pending, hquiet rel (List.mem_of_getElem? hget)]

/-- Steps that pass nothing on: channels are read, or closed while nothing is on its way. -/
theorem Bridge.Traffic.frame (h : b.Traffic)
    (hrelays : ∀ (r : Nat) (rel' : Relay α), b'.relays[r]? = some rel' →
      ∃ rel : Relay α, b.relays[r]? = some rel ∧ rel'.relayed = rel.relayed ∧ rel'.fanout = rel.fanout)
    (hsubs : ∀ (i : Nat) (sub' : Subscriber α), b'.subs[i]? = some sub' → ∃ sub : Subscriber α, b.subs[i]? = some sub ∧ sub'.relay = sub.relay ∧
      sub'.joined = sub.joined ∧ sub'.ch.sent = sub.ch.sent ∧ sub'.dropped = sub.dropped ∧ (sub'.ch.closed = false → sub.ch.closed = false))
    (hopen : b.Quiet ∨ ∀ (i : Nat) (sub : Subscriber α), b.subs[i]? = some sub → sub.ch.closed = false →
      ∃ sub' : Subscriber α, b'.subs[i]? = some sub' ∧ sub'.relay = sub.relay ∧ sub'.ch.closed = false) : b'.Traffic := by
  refine ⟨fun r rel' d hget' hd => ?_, fun i sub' rel' hget' hrel' => ?_⟩
  · obtain ⟨rel, hget, -, hfanout⟩ := hrelays r rel' hget'
    rw [hfanout] at hd
    rcases hopen with hquiet | hopen
    · rw [hquiet rel (List.mem_of_getElem? hget)] at hd
      cases hd
    · obtain ⟨hnodup, hrest⟩ := h.onTheWay r rel d hget hd
      refine ⟨hnodup, fun i hi => ?_⟩
      obtain ⟨sub, hsub, hrelay, hclosed⟩ := hrest i hi
      obtain ⟨sub', hsub', hrelay', hclosed'⟩ := hopen i sub hsub hclosed
      exact ⟨sub', hsub', hrelay'.trans hrelay, hclosed'⟩
  · obtain ⟨sub, hget, hrelay, hjoined, hsent, hdropped, hclosed⟩ := hsubs i sub' hget'
    obtain ⟨rel, hrel, hrelayed, hfanout⟩ := hrelays _ rel' hrel'
    rw [hrelay] at hrel
    obtain ⟨hle, offered, hfed⟩ := h.fed i sub rel hget hrel
    have hpending : rel'.pending i = rel.pending i := by rw [Relay.pending, hfanout]; rfl
    refine ⟨by rw [hjoined, hrelayed]; exact hle, offered, ?_, ?_, fun hopen' => ?_⟩
    · rw [hjoined, hrelayed, hpending]
      exact hfed.since
    · rw [hsent]
      exact hfed.sent
    · rw [hsent, hdropped]
      exact hfed.all (hclosed hopen')

end Frame

/-! ## Step by step -/

section Steps

variable {b : Bridge α} {name : String} {r i : Nat} {rel : Relay α} {sub : Subscriber α} {data : α}

theorem registerRelay_step (h : b.Sound) (ht : b.Traffic) : StepSound b (.registerRelay name) where
  sound := registerRelay_sound h
  calm := rfl
  later i sub hget := by
    refine ⟨sub, ?_, .refl sub⟩
    show (b.registerRelay name).2.subs[i]? = some sub
    unfold Bridge.registerRelay
    split <;> exact hget
  traffic := by
    show (b.registerRelay name).2.Traffic
    unfold Bridge.registerRelay
    split
    · exact ht
    · refine ⟨fun r rel d hget hd => ?_, fun i sub rel hget hrel => ?_⟩
      · rcases of_getElem?_append hget with hget | ⟨rfl, rfl⟩
        · exact ht.onTheWay r rel d hget hd
        · cases hd
      · obtain ⟨rel₀, hrel₀, -⟩ := h.closed i sub hget
        have hsame := (getElem?_append_of_some hrel₀).symm.trans hrel
        obtain rfl := Option.some.inj hsame
        exact ht.fed i sub rel₀ hget hrel₀

theorem subscribe_step (h : b.Sound) (ht : b.Traffic) (hquiet : b.Quiet) : StepSound b (.subscribe name) where
  sound := subscribe_sound h
  calm := rfl
  later i sub hget := by
    refine ⟨sub, ?_, .refl sub⟩
    show (b.subscribe name).2.subs[i]? = some sub
    unfold Bridge.subscribe
    split
    · exact hget
    · exact getElem?_append_of_some hget
  traffic := by
    show (b.subscribe name).2.Traffic
    unfold Bridge.subscribe
    split
    · exact ht
    · rename_i sb hsb
      obtain ⟨rel₀, hrel₀, -⟩ := h.registered name sb hsb
      refine ⟨fun r rel d hget hd => ?_, fun i sub rel hget hrel => ?_⟩
      · rw [hquiet rel (List.mem_of_getElem? hget)] at hd
        cases hd
      · rcases of_getElem?_append hget with hget | ⟨rfl, rfl⟩
        · exact ht.fed i sub rel hget hrel
        · obtain rfl := Option.some.inj (hrel₀.symm.trans hrel)
          have hjoined : ((b.relays[sb.relayCh]?).map (·.relayed.length)).getD 0 = rel₀.relayed.length := by rw [hrel₀]; rfl
          refine ⟨le_of_eq hjoined, [], ?_, .refl _, fun _ => .refl _⟩
          simp only [hjoined]
          rw [List.drop_length, pending_of_quiet hquiet hrel₀]
          rfl

theorem unregisterRelay_step (h : b.Sound) (ht : b.Traffic) (hquiet : b.Quiet) (hget : b.relays[r]? = some rel) (hun : rel.unregistered = false) :
    StepSound b (.unregisterRelay r) := by
  obtain ⟨sb, subs', -, -, hact, hall⟩ := unregisterRelay_ok h hget hun
  refine ⟨unregisterRelay_sound h hget hun, ?_, by rw [hact], fun i sub hsub => ?_⟩
  · rw [hact]
    refine ht.frame (fun r' rel' hrel' => ?_) (fun i sub' hsub' => ?_) (.inl hquiet)
    · rw [getElem?_set_of_some hget] at hrel'
      split at hrel'
      · rename_i heq
        obtain rfl := Option.some.inj hrel'
        exact ⟨rel, heq ▸ hget, rfl, rfl⟩
      · exact ⟨rel', hrel', rfl, rfl⟩
    · rw [hall, Option.map_eq_some_iff] at hsub'
      obtain ⟨sub, hsub, rfl⟩ := hsub'
      refine ⟨sub, hsub, ?_⟩
      split
      · exact ⟨rfl, rfl, rfl, rfl, nofun⟩
      · exact ⟨rfl, rfl, rfl, rfl, id⟩
  · rw [hact]
    refine ⟨_, by rw [hall, hsub]; rfl, ?_⟩
    split
    · exact ⟨rfl, rfl, fun _ => ⟨rfl, rfl⟩, .inl rfl⟩
    · exact .refl sub

theorem unsubscribe_step (h : b.Sound) (ht : b.Traffic) (hquiet : b.Quiet) (hget : b.subs[i]? = some sub) (hleft : sub.left = false)
    (hown : OwnRelay b sub) : StepSound b (.unsubscribe i) := by
  obtain ⟨sessions', hact, -⟩ := unsubscribe_ok h hget hleft hown
  have hsubs := getElem?_set_of_some (y := { sub with left := true, ch := { sub.ch with closed := true } }) hget
  refine ⟨unsubscribe_sound h hget hleft hown, ?_, by rw [hact], fun j sub' hsub' => ?_⟩
  · rw [hact]
    refine ht.frame (fun r' rel' hrel' => ⟨rel', hrel', rfl, rfl⟩) (fun j sub' hsub' => ?_) (.inl hquiet)
    rw [hsubs] at hsub'
    split at hsub'
    · rename_i heq
      obtain rfl := Option.some.inj hsub'
      exact ⟨sub, heq ▸ hget, rfl, rfl, rfl, rfl, nofun⟩
    · exact ⟨sub', hsub', rfl, rfl, rfl, rfl, id⟩
  · rw [hact]
    by_cases heq : i = j
    · subst heq
      obtain rfl := Option.some.inj (hget.symm.trans hsub')
      have hself := (hsubs i).trans (if_pos rfl)
      exact ⟨_, hself, rfl, rfl, fun _ => ⟨rfl, rfl⟩, .inl rfl⟩
    · exact ⟨sub', by rw [hsubs, if_neg heq, hsub'], .refl sub'⟩

/-- A step of one relay that neither passes anything on nor closes anything. -/
theorem relay_frame (h : b.Sound) (ht : b.Traffic) {st : BridgeStep α} {q : Relay α} (hget : b.relays[r]? = some rel)
    (hact : st.act b = (.ok (), { b with relays := b.relays.set r q })) (hshape : q.shape = rel.shape)
    (hrelayed : q.relayed = rel.relayed) (hfanout : q.fanout = rel.fanout) : StepSound b st := by
  refine ⟨?_, ?_, by rw [hact], fun i sub hsub => ⟨sub, by rw [hact]; exact hsub, .refl sub⟩⟩
  · rw [hact]
    exact h.of_shape rfl (map_set_of_eq hget hshape) rfl
  · rw [hact]
    refine ht.frame (fun r' rel₁ hrel₁ => ?_) (fun i sub hsub => ⟨sub, hsub, rfl, rfl, rfl, rfl, id⟩)
      (.inr fun i sub hsub hopen => ⟨sub, hsub, rfl, hopen⟩)
    rw [getElem?_set_of_some hget] at hrel₁
    split at hrel₁
    · rename_i heq
      obtain rfl := Option.some.inj hrel₁
      exact ⟨rel, heq ▸ hget, hrelayed, hfanout⟩
    · exact ⟨rel₁, hrel₁, rfl, rfl⟩

theorem subscriberToRelay_step (h : b.Sound) (ht : b.Traffic) : StepSound b (.subscriberToRelay name data) := by
  cases hsb : b.sessions name with
  | none =>
    have hact : BridgeStep.act (.subscriberToRelay name data) b = (.ok (), b) := by
      simp only [BridgeStep.act, Bridge.subscriberToRelay, hsb]
      rfl
    exact ⟨by rw [hact]; exact h, by rw [hact]; exact ht, by rw [hact], fun i sub hsub => ⟨sub, by rw [hact]; exact hsub, .refl sub⟩⟩
  | some sb =>
    obtain ⟨rel, hget, -, hun⟩ := h.registered name sb hsb
    have hopen : rel.relayCh.closed = false := (h.relayCh _ rel hget).trans hun
    obtain ⟨relayCh, hsend, hclosed⟩ : ∃ relayCh, rel.relayCh.trySend data = .ok relayCh ∧ relayCh.closed = rel.relayCh.closed :=
      ⟨_, Chan.trySend_open hopen, by split <;> rfl⟩
    refine relay_frame (q := { rel with relayCh }) h ht hget ?_ ?_ rfl rfl
    · simp only [BridgeStep.act, Bridge.subscriberToRelay, hsb]
      rw [runAt_ok hget (by rw [hsend]; rfl)]
      rfl
    · rw [Relay.shape, hclosed]
      rfl

theorem recvRelay_step (h : b.Sound) (ht : b.Traffic) (hget : b.relays[r]? = some rel) : StepSound b (.recvRelay r) := by
  refine relay_frame (q := { rel with relayCh := rel.relayCh.recv }) h ht hget ?_ rfl rfl rfl
  simp only [BridgeStep.act]
  rw [runAt_ok hget (by rfl)]
  rfl

theorem recv_step (h : b.Sound) (ht : b.Traffic) (hget : b.subs[i]? = some sub) : StepSound b (.recv i) := by
  have hact : BridgeStep.act (.recv i) b = (.ok (), { b with subs := b.subs.set i { sub with ch := sub.ch.recv } }) := by
    simp only [BridgeStep.act]
    rw [runAt_ok hget (by rfl)]
    rfl
  have hsubs := getElem?_set_of_some (y := { sub with ch := sub.ch.recv }) hget
  have hevery : ∀ (j : Nat) (sub₁ : Subscriber α), b.subs[j]? = some sub₁ → ∃ sub' : Subscriber α, (b.subs.set i { sub with ch := sub.ch.recv })[j]? = some sub' ∧
      sub'.relay = sub₁.relay ∧ sub'.joined = sub₁.joined ∧ sub'.ch.sent = sub₁.ch.sent ∧ sub'.dropped = sub₁.dropped ∧ sub'.ch.closed = sub₁.ch.closed := fun j sub₁ hsub₁ => by
    by_cases heq : i = j
    · subst heq
      obtain rfl := Option.some.inj (hget.symm.trans hsub₁)
      have hself := (hsubs i).trans (if_pos rfl)
      exact ⟨_, hself, rfl, rfl, rfl, rfl, rfl⟩
    · exact ⟨sub₁, by rw [hsubs, if_neg heq, hsub₁], rfl, rfl, rfl, rfl, rfl⟩
  refine ⟨?_, ?_, by rw [hact], fun j sub₁ hsub₁ => ?_⟩
  · rw [hact]
    exact h.of_shape rfl rfl (map_set_of_eq hget rfl)
  · rw [hact]
    refine ht.frame (fun r' rel' hrel' => ⟨rel', hrel', rfl, rfl⟩) (fun j sub' hsub' => ?_) (.inr fun j sub₁ hsub₁ hopen => ?_)
    · rw [hsubs] at hsub'
      split at hsub'
      · rename_i heq
        obtain rfl := Option.some.inj hsub'
        exact ⟨sub, heq ▸ hget, rfl, rfl, rfl, rfl, id⟩
      · exact ⟨sub', hsub', rfl, rfl, rfl, rfl, id⟩
    · obtain ⟨sub', hsub', hrelay, -, -, -, hclosed⟩ := hevery j sub₁ hsub₁
      exact ⟨sub', hsub', hrelay, hclosed.trans hopen⟩
  · rw [hact]
    obtain ⟨sub', hsub', hrelay, hjoined, hsent, hdropped, hclosed⟩ := hevery j sub₁ hsub₁
    exact ⟨sub', hsub', hrelay, hjoined, fun hc => ⟨hclosed.trans hc, hsent⟩, .inl hdropped⟩

theorem relayEnds_step (h : b.Sound) (ht : b.Traffic) {msg : α} (hget : b.relays[r]? = some rel) (hfanout : rel.fanout = some ⟨msg, []⟩) :
    StepSound b (.relayEnds r) := by
  have hact : BridgeStep.act (.relayEnds r) b = (.ok (), { b with relays := b.relays.set r { rel with fanout := none } }) := by
    simp only [BridgeStep.act, hget]
  have hrelays := getElem?_set_of_some (y := { rel with fanout := none }) hget
  refine ⟨?_, ?_, by rw [hact], fun i sub hsub => ⟨sub, by rw [hact]; exact hsub, .refl sub⟩⟩
  · rw [hact]
    exact h.of_shape rfl (map_set_of_eq hget rfl) rfl
  · rw [hact]
    refine ⟨fun r' rel' d hrel' hd => ?_, fun i sub rel' hsub hrel' => ?_⟩
    · rw [hrelays] at hrel'
      split at hrel'
      · obtain rfl := Option.some.inj hrel'
        cases hd
      · exact ht.onTheWay r' rel' d hrel' hd
    · rw [hrelays] at hrel'
      split at hrel'
      · rename_i heq
        obtain rfl := Option.some.inj hrel'
        obtain ⟨hle, offered, hfed⟩ := ht.fed i sub rel hsub (heq ▸ hget)
        have hpending : rel.pending i = [] := by
          rw [Relay.pending, hfanout]
          exact if_neg List.not_mem_nil
        exact ⟨hle, offered, hfed.since.trans (congrArg (offered ++ ·) hpending), hfed.sent, hfed.all⟩
      · exact ht.fed i sub rel' hsub hrel'

/-- The relay's own message: it is on its way to all that are open, and to nobody else's. -/
theorem relay_step (h : b.Sound) (ht : b.Traffic) {order : List Nat} (hget : b.relays[r]? = some rel) (hnone : rel.fanout = none)
    (hperm : order.Perm (b.channels rel.name)) (hown : ∀ sb, b.sessions rel.name = some sb → sb.relayCh = r ∨ sb.subscribers = []) :
    StepSound b (.relay r data order) := by
  have hact : BridgeStep.act (.relay r data order) b =
      (.ok (), { b with relays := b.relays.set r { rel with relayed := rel.relayed ++ [data], fanout := some ⟨data, order⟩ } }) := by
    simp only [BridgeStep.act, hget]
  have hrelays := getElem?_set_of_some (y := { rel with relayed := rel.relayed ++ [data], fanout := some ⟨data, order⟩ }) hget
  have hnodup : order.Nodup := by
    rw [hperm.nodup_iff, Bridge.channels]
    cases hsb : b.sessions rel.name with
    | none => exact List.nodup_nil
    | some sb => exact h.channels_nodup hsb
  have hreached : ∀ i ∈ order, ∃ sub : Subscriber α, b.subs[i]? = some sub ∧ sub.relay = r ∧ sub.ch.closed = false := fun i hi => by
    obtain ⟨sb, hsb, id, hmem⟩ := mem_channels.1 (hperm.mem_iff.1 hi)
    obtain ⟨sub, hsub, -, -, hrelay, -, hopen⟩ := h.listed_open hsb hmem
    rcases hown sb hsb with hch | hempty
    · exact ⟨sub, hsub, hrelay.trans hch, hopen⟩
    · rw [hempty] at hmem
      exact absurd hmem List.not_mem_nil
  have hall : ∀ (i : Nat) (sub : Subscriber α), b.subs[i]? = some sub → sub.relay = r → sub.ch.closed = false → i ∈ order :=
    fun i sub hsub hrelay hopen => by
      obtain ⟨-, sb, hsb, hch, hmem⟩ := h.open_listed hsub hopen
      obtain ⟨rel₁, hrel₁, hname, -⟩ := h.closed i sub hsub
      rw [hrelay, hget] at hrel₁
      obtain rfl := Option.some.inj hrel₁
      rw [← hname] at hsb
      exact hperm.mem_iff.2 (mem_channels.2 ⟨sb, hsb, _, hmem⟩)
  refine ⟨?_, ?_, by rw [hact], fun i sub hsub => ⟨sub, by rw [hact]; exact hsub, .refl sub⟩⟩
  · rw [hact]
    exact h.of_shape rfl (map_set_of_eq hget rfl) rfl
  · rw [hact]
    refine ⟨fun r' rel' d hrel' hd => ?_, fun i sub rel' hsub hrel' => ?_⟩
    · rw [hrelays] at hrel'
      split at hrel'
      · rename_i heq
        subst heq
        obtain rfl := Option.some.inj hrel'
        obtain rfl := Option.some.inj hd
        exact ⟨hnodup, hreached⟩
      · exact ht.onTheWay r' rel' d hrel' hd
    · rw [hrelays] at hrel'
      split at hrel'
      · rename_i heq
        obtain rfl := Option.some.inj hrel'
        obtain ⟨hle, offered, hfed⟩ := ht.fed i sub rel hsub (heq ▸ hget)
        have hpending : rel.pending i = [] := by rw [Relay.pending, hnone]
        have hsince : rel.relayed.drop sub.joined = offered := by rw [hfed.since, hpending, List.append_nil]
        have hgrown : (rel.relayed ++ [data]).drop sub.joined = offered ++ [data] := by rw [List.drop_append_of_le_length hle, hsince]
        refine ⟨by rw [List.length_append]; exact hle.trans (Nat.le_add_right _ _), ?_⟩
        by_cases hi : i ∈ order
        · exact ⟨offered, hgrown.trans (congrArg (offered ++ ·) (if_pos hi).symm), hfed.sent, hfed.all⟩
        · have hpending' : (if i ∈ order then [data] else []) = [] := if_neg hi
          refine ⟨offered ++ [data], hgrown.trans ?_, hfed.sent.trans (List.sublist_append_left _ _), fun hopen => ?_⟩
          · exact (List.append_nil _).symm.trans (congrArg (offered ++ [data] ++ ·) hpending'.symm)
          · exact absurd (hall i sub hsub heq.symm hopen) hi
      · exact ht.fed i sub rel' hsub hrel'

theorem offer_open {m : α} (hopen : sub.ch.closed = false) : ∃ sub', sub.offer m = .ok sub' ∧ sub'.shape = sub.shape ∧ sub'.joined = sub.joined ∧
    (sub'.ch.sent = sub.ch.sent ++ [m] ∧ sub'.dropped = sub.dropped ∨
      sub.ch.cap ≤ sub.ch.buffer.length ∧ sub'.ch.sent = sub.ch.sent ∧ sub'.dropped = sub.dropped ++ [m]) := by
  rw [Subscriber.offer, Chan.trySend_open hopen]
  by_cases hroom : sub.ch.buffer.length < sub.ch.cap
  · rw [if_pos hroom, if_pos hroom]
    exact ⟨_, rfl, rfl, rfl, .inl ⟨rfl, rfl⟩⟩
  · rw [if_neg hroom, if_neg hroom]
    exact ⟨_, rfl, rfl, rfl, .inr ⟨Nat.not_lt.1 hroom, rfl, rfl⟩⟩

/-- A message that is offered goes in, or is dropped. -/
theorem Fed.offered {rel' : Relay α} {sub' : Subscriber α} {offered : List α} {msg : α} (hfed : Fed rel i sub offered)
    (hopen : sub.ch.closed = false) (hbefore : rel.pending i = [msg]) (hafter : rel'.pending i = []) (hrelayed : rel'.relayed = rel.relayed)
    (hjoined : sub'.joined = sub.joined) (hcases : sub'.ch.sent = sub.ch.sent ++ [msg] ∧ sub'.dropped = sub.dropped ∨
      sub.ch.cap ≤ sub.ch.buffer.length ∧ sub'.ch.sent = sub.ch.sent ∧ sub'.dropped = sub.dropped ++ [msg]) :
    Fed rel' i sub' (offered ++ [msg]) := by
  have hperm := (hfed.all hopen).append_right [msg]
  refine ⟨by rw [hrelayed, hjoined, hafter, hfed.since, hbefore, List.append_nil], ?_, fun _ => ?_⟩
  · rcases hcases with ⟨hsent, -⟩ | ⟨-, hsent, -⟩
    · rw [hsent]
      exact hfed.sent.append_right _
    · rw [hsent]
      exact hfed.sent.trans (List.sublist_append_left _ _)
  · rcases hcases with ⟨hsent, hdropped⟩ | ⟨-, hsent, hdropped⟩
    · rw [hsent, hdropped, List.append_assoc]
      refine List.Perm.trans ?_ hperm
      rw [List.append_assoc]
      exact List.perm_append_comm.append_left _
    · rw [hsent, hdropped, ← List.append_assoc]
      exact hperm

theorem deliver_step (h : b.Sound) (ht : b.Traffic) {msg : α} {rest : List Nat} (hget : b.relays[r]? = some rel)
    (hfanout : rel.fanout = some ⟨msg, i :: rest⟩) : StepSound b (.deliver r) := by
  obtain ⟨hnodup, hreached⟩ := ht.onTheWay r rel _ hget hfanout
  obtain ⟨hi, hnodup⟩ := List.nodup_cons.1 hnodup
  obtain ⟨sub, hsub, hrelay, hopen⟩ := hreached i List.mem_cons_self
  obtain ⟨sub', hoffer, hshape, hjoined, hcases⟩ := offer_open (m := msg) hopen
  have hact : BridgeStep.act (.deliver r) b =
      (.ok (), { b with subs := b.subs.set i sub', relays := b.relays.set r { rel with fanout := some ⟨msg, rest⟩ } }) := by
    simp only [BridgeStep.act, hget, hfanout]
    rw [runAt_ok hsub hoffer]
    rfl
  have hrelays := getElem?_set_of_some (y := { rel with fanout := some ⟨msg, rest⟩ }) hget
  have hsubs := getElem?_set_of_some (y := sub') hsub
  have hread := hshape
  simp only [Subscriber.shape, Prod.mk.injEq] at hread
  obtain ⟨-, -, hrelay', -, hclosed'⟩ := hread
  refine ⟨?_, ?_, by rw [hact], fun j sub₁ hsub₁ => ?_⟩
  · rw [hact]
    exact h.of_shape rfl (map_set_of_eq hget rfl) (map_set_of_eq hsub hshape)
  · rw [hact]
    have hstays : ∀ (r' j : Nat), (∃ sub₁ : Subscriber α, b.subs[j]? = some sub₁ ∧ sub₁.relay = r' ∧ sub₁.ch.closed = false) →
        ∃ sub₁ : Subscriber α, (b.subs.set i sub')[j]? = some sub₁ ∧ sub₁.relay = r' ∧ sub₁.ch.closed = false := by
      rintro r' j ⟨sub₁, hsub₁, hrelay₁, hopen₁⟩
      by_cases heq : i = j
      · subst heq
        obtain rfl := Option.some.inj (hsub.symm.trans hsub₁)
        exact ⟨sub', (hsubs i).trans (if_pos rfl), hrelay'.trans hrelay₁, hclosed'.trans hopen₁⟩
      · exact ⟨sub₁, by rw [hsubs, if_neg heq, hsub₁], hrelay₁, hopen₁⟩
    refine ⟨fun r' rel' d hrel' hd => ?_, fun j sub₁ rel' hsub₁ hrel' => ?_⟩
    · rw [hrelays] at hrel'
      split at hrel'
      · rename_i heq
        subst heq
        obtain rfl := Option.some.inj hrel'
        obtain rfl := Option.some.inj hd
        exact ⟨hnodup, fun j hj => hstays r j (hreached j (List.mem_cons_of_mem i hj))⟩
      · obtain ⟨hnodup', hreached'⟩ := ht.onTheWay r' rel' d hrel' hd
        exact ⟨hnodup', fun j hj => hstays r' j (hreached' j hj)⟩
    · rw [hsubs] at hsub₁
      rw [hrelays] at hrel'
      split at hsub₁
      · rename_i heq
        subst heq
        obtain rfl := Option.some.inj hsub₁
        rw [hrelay', if_pos hrelay.symm] at hrel'
        obtain rfl := Option.some.inj hrel'
        obtain ⟨hle, offered, hfed⟩ := ht.fed i sub rel hsub (hrelay ▸ hget)
        have hbefore : rel.pending i = [msg] := by
          rw [Relay.pending, hfanout]
          exact if_pos List.mem_cons_self
        exact ⟨hjoined ▸ hle, _, hfed.offered hopen hbefore (if_neg hi) rfl hjoined hcases⟩
      · rename_i hne
        split at hrel'
        · rename_i heq
          obtain rfl := Option.some.inj hrel'
          obtain ⟨hle, offered, hfed⟩ := ht.fed j sub₁ rel hsub₁ (heq ▸ hget)
          have hpending : ({ rel with fanout := some ⟨msg, rest⟩ } : Relay α).pending j = rel.pending j := by
            simp only [Relay.pending, hfanout, List.mem_cons, Ne.symm hne, false_or]
          exact ⟨hle, offered, hfed.since.trans (congrArg (offered ++ ·) hpending.symm), hfed.sent, hfed.all⟩
        · exact ht.fed j sub₁ rel' hsub₁ hrel'
  · rw [hact]
    by_cases heq : i = j
    · subst heq
      obtain rfl := Option.some.inj (hsub.symm.trans hsub₁)
      refine ⟨sub', (hsubs i).trans (if_pos rfl), hrelay', hjoined, fun hclosed => ?_, ?_⟩
      · rw [hopen] at hclosed
        cases hclosed
      · exact hcases.imp And.right And.left
    · exact ⟨sub₁, by rw [hsubs, if_neg heq, hsub₁], .refl sub₁⟩

end Steps

/-! ## Whole runs -/

/-- A call of somebody whose relay is gone finds no other in its place that it could harm. -/
def BridgeStep.Own (b : Bridge α) : BridgeStep α → Prop
  | .unsubscribe i => ∀ sub : Subscriber α, b.subs[i]? = some sub → OwnRelay b sub
  | .relay r _ _ => ∀ rel : Relay α, b.relays[r]? = some rel → ∀ sb, b.sessions rel.name = some sb → sb.relayCh = r ∨ sb.subscribers = []
  | _ => True

theorem step_sound {b : Bridge α} {st : BridgeStep α} (h : b.Sound) (ht : b.Traffic) (hen : st.Enabled b) (hown : st.Own b) : StepSound b st := by
  cases st with
  | registerRelay name => exact registerRelay_step h ht
  | unregisterRelay r =>
    obtain ⟨hquiet, rel, hget, hun⟩ := hen
    exact unregisterRelay_step h ht hquiet hget hun
  | subscribe name => exact subscribe_step h ht hen
  | unsubscribe i =>
    obtain ⟨hquiet, sub, hget, hleft⟩ := hen
    exact unsubscribe_step h ht hquiet hget hleft (hown sub hget)
  | relay r data order =>
    obtain ⟨rel, hget, hnone, hperm⟩ := hen
    exact relay_step h ht hget hnone hperm (hown rel hget)
  | deliver r =>
    obtain ⟨rel, hget, msg, i, rest, hfanout⟩ := hen
    exact deliver_step h ht hget hfanout
  | relayEnds r =>
    obtain ⟨rel, hget, msg, hfanout⟩ := hen
    exact relayEnds_step h ht hget hfanout
  | subscriberToRelay name data => exact subscriberToRelay_step h ht
  | recv i => exact recv_step h ht (List.getElem?_eq_getElem hen)
  | recvRelay r => exact recvRelay_step h ht (List.getElem?_eq_getElem hen)

abbrev Call (α : Type) := Served (Bridge α) (BridgeStep α) (Except ChanPanic Unit)

def Bridge.closedAt (b : Bridge α) (i : Nat) : Bool := (b.subs[i]?).any (·.ch.closed)

/-- The call that closes the channel of the `i`-th subscriber. -/
def closes (i : Nat) (e : Call α) : Bool := !e.pre.closedAt i && (e.request.act e.pre).2.closedAt i

/-- Relays and subscribers keep to themselves. No call panics. Of the relays of a session one is registered. A channel is
closed when its subscriber has left or its relay was unregistered, at no other time, and once. What a subscriber receives
is some of what its relay passed on since it came, in that order, and all of it but what found the buffer full. -/
structure Isolated (b : Bridge α) (t : List (Call α)) : Prop where
  calm : ∀ e ∈ t, e.reply = .ok ()
  one : ∀ (r r' : Nat) (rel rel' : Relay α), b.relays[r]? = some rel → b.relays[r']? = some rel' →
    rel.unregistered = false → rel'.unregistered = false → rel.name = rel'.name → r = r'
  closed : ∀ (i : Nat) (sub : Subscriber α), b.subs[i]? = some sub → ∃ rel : Relay α, b.relays[sub.relay]? = some rel ∧ rel.name = sub.name ∧
    (sub.ch.closed = true ↔ sub.left = true ∨ rel.unregistered = true)
  once : ∀ i, t.countP (closes i) = (b.closedAt i).toNat
  received : ∀ (i : Nat) (sub : Subscriber α) (rel : Relay α), b.subs[i]? = some sub → b.relays[sub.relay]? = some rel →
    sub.ch.received.Sublist (rel.relayed.drop sub.joined)
  missing : ∀ (i : Nat) (sub : Subscriber α) (rel : Relay α), b.subs[i]? = some sub → b.relays[sub.relay]? = some rel →
    sub.ch.closed = false → rel.pending i = [] → (sub.ch.sent ++ sub.dropped).Perm (rel.relayed.drop sub.joined)
  later : ∀ e ∈ t, ∀ (i : Nat) (sub : Subscriber α), e.pre.subs[i]? = some sub →
    ∃ sub' : Subscriber α, (e.request.act e.pre).2.subs[i]? = some sub' ∧ Later sub sub'

section Runs

variable {b : Bridge α} {t : List (Call α)}

theorem new_sound : (Bridge.new : Bridge α).Sound := ⟨nofun, nofun, nofun, nofun, nofun, nofun⟩

theorem new_traffic : (Bridge.new : Bridge α).Traffic := ⟨nofun, nofun⟩

/-- What is known in every state of a run. -/
theorem known_of_runs (h : BridgeRuns b t) (hown : ∀ e ∈ t, e.request.Own e.pre) :
    b.Sound ∧ b.Traffic ∧ ∀ e ∈ t, StepSound e.pre e.request ∧ e.reply = (e.request.act e.pre).1 := by
  induction h with
  | init hinit =>
    subst hinit
    exact ⟨new_sound, new_traffic, nofun⟩
  | step hruns hen ih =>
    obtain ⟨hsound, htraffic, hsteps⟩ := ih fun e he => hown e (List.mem_cons_of_mem _ he)
    have hstep := step_sound hsound htraffic hen (hown _ List.mem_cons_self)
    exact ⟨hstep.sound, hstep.traffic, List.forall_mem_cons.2 ⟨⟨hstep, rfl⟩, hsteps⟩⟩

theorem closedAt_later {st : BridgeStep α} (hstep : StepSound b st) {i : Nat} (hclosed : b.closedAt i = true) : (st.act b).2.closedAt i = true := by
  obtain ⟨sub, hget, hclosed⟩ := Option.any_eq_true _ _ |>.1 hclosed
  obtain ⟨sub', hget', hlater⟩ := hstep.later i sub hget
  exact Option.any_eq_true _ _ |>.2 ⟨sub', hget', (hlater.closed hclosed).1⟩

theorem closes_once (h : BridgeRuns b t) (hown : ∀ e ∈ t, e.request.Own e.pre) (i : Nat) : t.countP (closes i) = (b.closedAt i).toNat := by
  induction h with
  | init hinit =>
    subst hinit
    rfl
  | step hruns hen ih =>
    rename_i b t st
    have hsteps := (known_of_runs (hruns.step hen) hown).2.2
    have hstays : b.closedAt i = true → (st.act b).2.closedAt i = true := closedAt_later (hsteps _ List.mem_cons_self).1
    rw [List.countP_cons, ih fun e he => hown e (List.mem_cons_of_mem _ he), closes]
    cases hpre : b.closedAt i with
    | true => rw [hstays hpre]; rfl
    | false => cases (st.act b).2.closedAt i <;> rfl

theorem bridge_isolates (b : Bridge α) (t : List (Call α)) (h : BridgeRuns b t) (hown : ∀ e ∈ t, e.request.Own e.pre) : Isolated b t := by
  obtain ⟨hsound, htraffic, hsteps⟩ := known_of_runs h hown
  refine ⟨fun e he => ?_, fun r r' rel rel' hget hget' hun hun' hname => ?_, fun i sub hsub => ?_, closes_once h hown, fun i sub rel hsub hrel => ?_,
    fun i sub rel hsub hrel hopen hpending => ?_, fun e he => (hsteps e he).1.later⟩
  · obtain ⟨hstep, hreply⟩ := hsteps e he
    exact hreply.trans hstep.calm
  · obtain ⟨sb, hsb, hch⟩ := hsound.own r rel hget hun
    obtain ⟨sb', hsb', hch'⟩ := hsound.own r' rel' hget' hun'
    rw [← hname, hsb] at hsb'
    obtain rfl := Option.some.inj hsb'
    exact hch.symm.trans hch'
  · obtain ⟨rel, hrel, hname, hclosed⟩ := hsound.closed i sub hsub
    exact ⟨rel, hrel, hname, by rw [hclosed, Bool.or_eq_true]⟩
  · obtain ⟨-, offered, hfed⟩ := htraffic.fed i sub rel hsub hrel
    rw [hfed.since]
    exact sub.ch.received_prefix.sublist.trans (hfed.sent.trans (List.sublist_append_left _ _))
  · obtain ⟨-, offered, hfed⟩ := htraffic.fed i sub rel hsub hrel
    rw [hfed.since, hpending, List.append_nil]
    exact hfed.all hopen

/-- The run that takes the given steps. -/
def playBridge (steps : List (BridgeStep α)) : Bridge α × List (Call α) := serveAll BridgeStep.act steps Bridge.new []

theorem runs_of_play {steps : List (BridgeStep α)} (h : AllOk BridgeStep.act (fun b st => st.Enabled b) steps Bridge.new) :
    BridgeRuns (playBridge steps).1 (playBridge steps).2 :=
  Serves.all (.init rfl) h

/-- A relay with one subscriber, which is told of a message and leaves after its relay. -/
def oneRelay : List (BridgeStep String) :=
  [.registerRelay "a", .subscribe "a", .relay 0 "hello" [0], .deliver 0, .relayEnds 0, .recv 0, .unregisterRelay 0, .unsubscribe 0]

theorem oneRelay_ok : AllOk BridgeStep.act (fun b st => st.Enabled b) oneRelay Bridge.new :=
  ⟨show Bridge.Quiet _ by decide, show Bridge.Quiet _ by decide, ⟨_, rfl, rfl, .refl _⟩, ⟨_, rfl, _, _, _, rfl⟩, ⟨_, rfl, _, rfl⟩,
    Nat.zero_lt_one, ⟨by decide, _, rfl, rfl⟩, ⟨by decide, _, rfl, rfl⟩, trivial⟩

theorem oneRelay_own : AllOk BridgeStep.act (fun b st => st.Own b) oneRelay Bridge.new := by
  refine ⟨trivial, trivial, fun rel hrel sb hsb => .inl ?_, trivial, trivial, trivial, trivial, fun sub hsub sb hsb => ?_, trivial⟩
  · cases hrel
    cases hsb
    rfl
  · cases hsub
    cases hsb

theorem bridge_isolates_oneRelay : Isolated (playBridge oneRelay).1 (playBridge oneRelay).2 :=
  bridge_isolates _ _ (runs_of_play oneRelay_ok) (oneRelay_own.served nofun)

/-- The first subscriber leaves once there is a second relay, with a subscriber that was given the same id. -/
def lateUnsubscribe : List (BridgeStep String) :=
  [.registerRelay "a", .subscribe "a", .unregisterRelay 0, .registerRelay "a", .subscribe "a", .unsubscribe 0]

theorem lateUnsubscribe_ok : AllOk BridgeStep.act (fun b st => st.Enabled b) lateUnsubscribe Bridge.new :=
  ⟨show Bridge.Quiet _ by decide, show Bridge.Quiet _ by decide, ⟨by decide, _, rfl, rfl⟩, show Bridge.Quiet _ by decide,
    show Bridge.Quiet _ by decide, ⟨by decide, _, rfl, rfl⟩, trivial⟩

/-- What the first relay had read is passed on once the second is registered. -/
def lateMessage : List (BridgeStep String) :=
  [.registerRelay "a", .unregisterRelay 0, .registerRelay "a", .subscribe "a", .relay 0 "hello" [0], .deliver 0, .recv 0]

theorem lateMessage_ok : AllOk BridgeStep.act (fun b st => st.Enabled b) lateMessage Bridge.new :=
  ⟨show Bridge.Quiet _ by decide, ⟨by decide, _, rfl, rfl⟩, show Bridge.Quiet _ by decide, show Bridge.Quiet _ by decide,
    ⟨_, rfl, rfl, .refl _⟩, ⟨_, rfl, _, _, _, rfl⟩, Nat.zero_lt_one, trivial⟩

/-- In the one run a channel is closed by another's leaving, in the other a message crosses. -/
theorem late_calls_cross :
    (BridgeRuns (playBridge lateUnsubscribe).1 (playBridge lateUnsubscribe).2 ∧ ¬ Isolated (playBridge lateUnsubscribe).1 (playBridge lateUnsubscribe).2) ∧
    (BridgeRuns (playBridge lateMessage).1 (playBridge lateMessage).2 ∧ ¬ Isolated (playBridge lateMessage).1 (playBridge lateMessage).2) := by
  refine ⟨⟨runs_of_play lateUnsubscribe_ok, fun h => ?_⟩, runs_of_play lateMessage_ok, fun h => ?_⟩
  · obtain ⟨rel, hrel, -, hclosed⟩ := h.closed 1 _ rfl
    cases hrel
    simpa using hclosed.1 rfl
  · have hreceived := h.received 0 _ _ rfl rfl
    exact absurd (List.sublist_nil.1 hreceived) (List.cons_ne_nil _ _)

end Runs

end Purdex.Stream
