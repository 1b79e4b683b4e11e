/-
What the map of the bridge and those who made its entries agree on: one relay a session, and a subscriber that is open
just while it has neither left nor lost its relay.
-/
import Purdex.Stream.Bridge
import Purdex.Json.Value

namespace Purdex.Stream

open Conc

variable {α : Type}

/-! ## What is known of a bridge -/

/-- What the map knows of a relay. -/
def Relay.shape (rel : Relay α) : String × Bool × Bool := (rel.name, rel.unregistered, rel.relayCh.closed)

/-- What the map knows of a subscriber. -/
def Subscriber.shape (sub : Subscriber α) : String × Nat × Nat × Bool × Bool := (sub.name, sub.id, sub.relay, sub.left, sub.ch.closed)

/-- A subscriber that the relay with channel `r` has under the given id. -/
def Listed (b : Bridge α) (name : String) (r id i : Nat) : Prop :=
  ∃ sub : Subscriber α, b.subs[i]? = some sub ∧ sub.name = name ∧ sub.id = id ∧ sub.relay = r ∧ sub.left = false

/-- The map and those who made its entries agree: who is registered has not unregistered, and who is subscribed has not left. -/
structure Bridge.Sound (b : Bridge α) : Prop where
  registered : ∀ name sb, b.sessions name = some sb → ∃ rel : Relay α, b.relays[sb.relayCh]? = some rel ∧ rel.name = name ∧ rel.unregistered = false
  own : ∀ (r : Nat) (rel : Relay α), b.relays[r]? = some rel → rel.unregistered = false → ∃ sb, b.sessions rel.name = some sb ∧ sb.relayCh = r
  listed : ∀ name sb, b.sessions name = some sb → ∀ id i, (id, i) ∈ sb.subscribers ↔ Listed b name sb.relayCh id i
  ids : ∀ name sb, b.sessions name = some sb → (sb.subscribers.map Prod.fst).Nodup ∧ ∀ e ∈ sb.subscribers, e.1 ≤ sb.nextID
  relayCh : ∀ (r : Nat) (rel : Relay α), b.relays[r]? = some rel → rel.relayCh.closed = rel.unregistered
  closed : ∀ (i : Nat) (sub : Subscriber α), b.subs[i]? = some sub →
    ∃ rel : Relay α, b.relays[sub.relay]? = some rel ∧ rel.name = sub.name ∧ sub.ch.closed = (sub.left || rel.unregistered)

section Sound

variable {b b' : Bridge α} {name : String} {sb : SessionBridge} {r i : Nat} {rel : Relay α} {sub : Subscriber α}

/-- Steps that neither touch the map nor close anything. -/
theorem Bridge.Sound.of_shape (h : b.Sound) (hsessions : b'.sessions = b.sessions) (hrelays : b'.relays.map Relay.shape = b.relays.map Relay.shape)
    (hsubs : b'.subs.map Subscriber.shape = b.subs.map Subscriber.shape) : b'.Sound := by
  have hrelay : ∀ (r : Nat) (rel : Relay α), b.relays[r]? = some rel → ∃ rel' : Relay α, b'.relays[r]? = some rel' ∧ rel'.shape = rel.shape :=
    fun r rel hget => getElem?_of_map_eq hrelays.symm hget
  have hlisted : ∀ name r id i, Listed b' name r id i ↔ Listed b name r id i := fun name r id i => by
    constructor
    · rintro ⟨sub', hget', rfl, rfl, rfl, hleft'⟩
      obtain ⟨sub, hget, hshape⟩ := getElem?_of_map_eq hsubs hget'
      simp only [Subscriber.shape, Prod.mk.injEq] at hshape
      exact ⟨sub, hget, hshape.1, hshape.2.1, hshape.2.2.1, hshape.2.2.2.1.trans hleft'⟩
    · rintro ⟨sub, hget, rfl, rfl, rfl, hleft⟩
      obtain ⟨sub', hget', hshape⟩ := getElem?_of_map_eq hsubs.symm hget
      simp only [Subscriber.shape, Prod.mk.injEq] at hshape
      exact ⟨sub', hget', hshape.1, hshape.2.1, hshape.2.2.1, hshape.2.2.2.1.trans hleft⟩
  refine ⟨fun name sb hsb => ?_, fun r rel' hget' hun => ?_, fun name sb hsb id i => ?_, fun name sb hsb => ?_, fun r rel' hget' => ?_, fun i sub' hget' => ?_⟩
  · rw [hsessions] at hsb
    obtain ⟨rel, hget, hname, hun⟩ := h.registered name sb hsb
    obtain ⟨rel', hget', hshape⟩ := hrelay _ rel hget
    simp only [Relay.shape, Prod.mk.injEq] at hshape
    exact ⟨rel', hget', hshape.1.trans hname, hshape.2.1.trans hun⟩
  · obtain ⟨rel, hget, hshape⟩ := getElem?_of_map_eq hrelays hget'
    simp only [Relay.shape, Prod.mk.injEq] at hshape
    rw [hsessions, ← hshape.1]
    exact h.own r rel hget (hshape.2.1.trans hun)
  · rw [hsessions] at hsb
    rw [hlisted]
    exact h.listed name sb hsb id i
  · rw [hsessions] at hsb
    exact h.ids name sb hsb
  · obtain ⟨rel, hget, hshape⟩ := getElem?_of_map_eq hrelays hget'
    simp only [Relay.shape, Prod.mk.injEq] at hshape
    rw [← hshape.2.2, ← hshape.2.1]
    exact h.relayCh r rel hget
  · obtain ⟨sub, hget, hshape⟩ := getElem?_of_map_eq hsubs hget'
    simp only [Subscriber.shape, Prod.mk.injEq] at hshape
    obtain ⟨rel, hrel, hname, hclosed⟩ := h.closed i sub hget
    obtain ⟨rel', hrel', hshape'⟩ := hrelay _ rel hrel
    simp only [Relay.shape, Prod.mk.injEq] at hshape'
    refine ⟨rel', by rw [← hshape.2.2.1]; exact hrel', by rw [hshape'.1, hname, hshape.1], ?_⟩
    rw [← hshape.2.2.2.2, ← hshape.2.2.2.1, hshape'.2.1]
    exact hclosed

/-- Who is still open is in the map of its relay. -/
theorem Bridge.Sound.open_listed (h : b.Sound) (hget : b.subs[i]? = some sub) (hopen : sub.ch.closed = false) :
    sub.left = false ∧ ∃ sb, b.sessions sub.name = some sb ∧ sb.relayCh = sub.relay ∧ (sub.id, i) ∈ sb.subscribers := by
  obtain ⟨rel, hrel, hname, hclosed⟩ := h.closed i sub hget
  rw [hopen, eq_comm, Bool.or_eq_false_iff] at hclosed
  obtain ⟨sb, hsb, hch⟩ := h.own sub.relay rel hrel hclosed.2
  rw [hname] at hsb
  exact ⟨hclosed.1, sb, hsb, hch, (h.listed _ sb hsb _ _).2 ⟨sub, hget, rfl, rfl, hch.symm, hclosed.1⟩⟩

/-- Whom a relay has in its map is open. -/
theorem Bridge.Sound.listed_open (h : b.Sound) (hsb : b.sessions name = some sb) {id : Nat} (hmem : (id, i) ∈ sb.subscribers) :
    ∃ sub : Subscriber α, b.subs[i]? = some sub ∧ sub.name = name ∧ sub.id = id ∧ sub.relay = sb.relayCh ∧ sub.left = false ∧ sub.ch.closed = false := by
  obtain ⟨sub, hget, hname, hid, hrelay, hleft⟩ := (h.listed name sb hsb id i).1 hmem
  obtain ⟨rel, hrel, -, hclosed⟩ := h.closed i sub hget
  obtain ⟨rel', hrel', -, hun⟩ := h.registered name sb hsb
  rw [hrelay, hrel'] at hrel
  obtain rfl := Option.some.inj hrel
  rw [hleft, hun] at hclosed
  exact ⟨sub, hget, hname, hid, hrelay, hleft, hclosed⟩

/-- The map of a relay names every channel once. -/
theorem Bridge.Sound.channels_nodup (h : b.Sound) (hsb : b.sessions name = some sb) : (sb.subscribers.map Prod.snd).Nodup := by
  refine List.Nodup.map_on (fun x hx y hy heq => ?_) (h.ids name sb hsb).1.of_map
  obtain ⟨sub, hget, -, hid, -⟩ := (h.listed name sb hsb x.1 x.2).1 hx
  obtain ⟨sub', hget', -, hid', -⟩ := (h.listed name sb hsb y.1 y.2).1 hy
  rw [heq, hget'] at hget
  obtain rfl := Option.some.inj hget
  exact Prod.ext (hid.symm.trans hid') heq

theorem mem_channels : i ∈ b.channels name ↔ ∃ sb, b.sessions name = some sb ∧ ∃ id, (id, i) ∈ sb.subscribers := by
  unfold Bridge.channels
  cases b.sessions name <;> simp

end Sound

/-! ## The calls that change the map -/

section Calls

variable {b : Bridge α} {name : String} {sb : SessionBridge} {r i : Nat} {rel : Relay α} {sub : Subscriber α}

theorem update_eq_some {β : Type} {f : String → Option β} {name name' : String} {v : Option β} {x : β} (h : Function.update f name v name' = some x) :
    name' = name ∧ v = some x ∨ name' ≠ name ∧ f name' = some x := by
  rw [Function.update_apply] at h
  split at h
  · exact .inl ⟨‹_›, h⟩
  · exact .inr ⟨‹_›, h⟩

theorem registerRelay_sound (h : b.Sound) : (b.registerRelay name).2.Sound := by
  unfold Bridge.registerRelay
  split
  · exact h
  · rename_i hnone
    refine ⟨fun name' sb hsb => ?_, fun r rel hget hun => ?_, fun name' sb hsb id i => ?_, fun name' sb hsb => ?_, fun r rel hget => ?_, fun i sub hget => ?_⟩
    · rcases update_eq_some hsb with ⟨rfl, hnew⟩ | ⟨hne, hsb⟩
      · obtain rfl := Option.some.inj hnew
        exact ⟨_, List.getElem?_concat_length, rfl, rfl⟩
      · obtain ⟨rel, hget, hname, hun⟩ := h.registered name' sb hsb
        exact ⟨rel, getElem?_append_of_some hget, hname, hun⟩
    · rcases of_getElem?_append hget with hget | ⟨rfl, rfl⟩
      · obtain ⟨sb, hsb, hch⟩ := h.own r rel hget hun
        have hne : rel.name ≠ name := fun heq => by simp [heq, hnone] at hsb
        exact ⟨sb, (Function.update_of_ne hne _ _).trans hsb, hch⟩
      · exact ⟨_, Function.update_self _ _ _, rfl⟩
    · rcases update_eq_some hsb with ⟨rfl, hnew⟩ | ⟨hne, hsb⟩
      · obtain rfl := Option.some.inj hnew
        refine iff_of_false List.not_mem_nil fun ⟨sub, hget, _, _, hrelay, _⟩ => ?_
        obtain ⟨rel, hrel, _⟩ := h.closed i sub hget
        rw [hrelay] at hrel
        exact absurd (List.getElem?_eq_some_iff.1 hrel).1 (lt_irrefl _)
      · exact h.listed name' sb hsb id i
    · rcases update_eq_some hsb with ⟨rfl, hnew⟩ | ⟨hne, hsb⟩
      · obtain rfl := Option.some.inj hnew
        exact ⟨List.nodup_nil, nofun⟩
      · exact h.ids name' sb hsb
    · rcases of_getElem?_append hget with hget | ⟨rfl, rfl⟩
      · exact h.relayCh r rel hget
      · rfl
    · obtain ⟨rel, hrel, hrest⟩ := h.closed i sub hget
      exact ⟨rel, getElem?_append_of_some hrel, hrest⟩

theorem subscribe_sound (h : b.Sound) : (b.subscribe name).2.Sound := by
  unfold Bridge.subscribe
  split
  · exact h
  · rename_i sb hsb
    obtain ⟨rel, hrel, hname, hun⟩ := h.registered name sb hsb
    have hbound : ∀ e ∈ sb.subscribers, e.1 ≤ sb.nextID := (h.ids name sb hsb).2
    refine ⟨fun name' sb' hsb' => ?_, fun r rel hget hun => ?_, fun name' sb' hsb' id i => ?_, fun name' sb' hsb' => ?_, h.relayCh, fun i sub hget => ?_⟩
    · rcases update_eq_some hsb' with ⟨rfl, hnew⟩ | ⟨hne, hsb'⟩
      · obtain rfl := Option.some.inj hnew
        exact ⟨rel, hrel, hname, hun⟩
      · exact h.registered name' sb' hsb'
    · obtain ⟨sb₁, hsb₁, hch⟩ := h.own r rel hget hun
      by_cases heq : rel.name = name
      · rw [heq, hsb] at hsb₁
        obtain rfl := Option.some.inj hsb₁
        rw [heq]
        exact ⟨_, Function.update_self _ _ _, hch⟩
      · exact ⟨sb₁, (Function.update_of_ne heq _ _).trans hsb₁, hch⟩
    · rcases update_eq_some hsb' with ⟨rfl, hnew⟩ | ⟨hne, hsb'⟩
      · obtain rfl := Option.some.inj hnew
        rw [List.mem_append, h.listed name' sb hsb]
        constructor
        · rintro (⟨sub, hget, hrest⟩ | hnew)
          · exact ⟨sub, getElem?_append_of_some hget, hrest⟩
          · obtain ⟨rfl, rfl⟩ := Prod.mk.inj (List.mem_singleton.1 hnew)
            exact ⟨_, List.getElem?_concat_length, rfl, rfl, rfl, rfl⟩
        · rintro ⟨sub, hget, hname', rfl, hrest⟩
          rcases of_getElem?_append hget with hget | ⟨rfl, rfl⟩
          · exact .inl ⟨sub, hget, hname', rfl, hrest⟩
          · exact .inr (List.mem_singleton_self _)
      · rw [h.listed name' sb' hsb']
        refine exists_congr fun sub => ⟨fun ⟨hget, hrest⟩ => ⟨getElem?_append_of_some hget, hrest⟩, fun ⟨hget, hname', hrest⟩ => ?_⟩
        rcases of_getElem?_append hget with hget | ⟨rfl, rfl⟩
        · exact ⟨hget, hname', hrest⟩
        · exact absurd hname'.symm hne
    · rcases update_eq_some hsb' with ⟨rfl, hnew⟩ | ⟨hne, hsb'⟩
      · obtain rfl := Option.some.inj hnew
        refine ⟨?_, fun e he => ?_⟩
        · rw [List.map_append, List.nodup_append]
          refine ⟨(h.ids name' sb hsb).1, List.nodup_singleton _, fun id hid id' hid' heq => ?_⟩
          obtain ⟨e, he, rfl⟩ := List.mem_map.1 hid
          have hlast : e.1 = sb.nextID + 1 := heq.trans (List.mem_singleton.1 hid')
          have := hbound e he
          omega
        · rcases List.mem_append.1 he with he | he
          · exact (hbound e he).trans (Nat.le_succ _)
          · obtain rfl := List.mem_singleton.1 he
            exact le_rfl
      · exact h.ids name' sb' hsb'
    · rcases of_getElem?_append hget with hget | ⟨rfl, rfl⟩
      · exact h.closed i sub hget
      · exact ⟨rel, hrel, hname, hun.symm⟩

/-- The channels of a relay are closed, each once. -/
theorem closeAll_open : ∀ {order : List Nat} {subs : List (Subscriber α)}, order.Nodup →
    (∀ i ∈ order, ∃ sub : Subscriber α, subs[i]? = some sub ∧ sub.ch.closed = false) →
    ∃ subs', closeAll order subs = .ok subs' ∧ ∀ j : Nat, subs'[j]? =
      subs[j]?.map fun sub => if j ∈ order then { sub with ch := { sub.ch with closed := true } } else sub
  | [], subs, _, _ => ⟨subs, rfl, fun j => by simp⟩
  | i :: order, subs, hnodup, hopen => by
    obtain ⟨sub, hget, hclosed⟩ := hopen i List.mem_cons_self
    obtain ⟨hi, hnodup⟩ := List.nodup_cons.1 hnodup
    have hclose : sub.close = .ok { sub with ch := { sub.ch with closed := true } } := by rw [Subscriber.close, Chan.close_open hclosed]; rfl
    have hrest : ∀ j ∈ order, ∃ sub' : Subscriber α, (subs.set i { sub with ch := { sub.ch with closed := true } })[j]? = some sub' ∧ sub'.ch.closed = false :=
      fun j hj => by
        obtain ⟨sub', hget', hclosed'⟩ := hopen j (List.mem_cons_of_mem i hj)
        have hne : i ≠ j := fun heq => hi (heq ▸ hj)
        exact ⟨sub', by rw [getElem?_set_of_some hget, if_neg hne, hget'], hclosed'⟩
    obtain ⟨subs', hsubs', hall⟩ := closeAll_open hnodup hrest
    refine ⟨subs', ?_, fun j => ?_⟩
    · rw [closeAll, runAt_ok hget hclose]
      exact hsubs'
    · rw [hall, getElem?_set_of_some hget]
      by_cases hij : i = j
      · subst hij
        rw [if_pos rfl, hget]
        simp [hi]
      · rw [if_neg hij]
        simp [Ne.symm hij]

/-- What unregistering does: the relay is closed and gone from the map, and with it the channels that it had. -/
theorem unregisterRelay_ok (h : b.Sound) (hget : b.relays[r]? = some rel) (hun : rel.unregistered = false) :
    ∃ sb subs', b.sessions rel.name = some sb ∧ sb.relayCh = r ∧
      BridgeStep.act (.unregisterRelay r) b = (.ok (), ⟨Function.update b.sessions rel.name none,
        b.relays.set r { rel with unregistered := true, relayCh := { rel.relayCh with closed := true } }, subs'⟩) ∧
      ∀ j : Nat, subs'[j]? = b.subs[j]?.map fun sub =>
        if j ∈ sb.subscribers.map Prod.snd then { sub with ch := { sub.ch with closed := true } } else sub := by
  obtain ⟨sb, hsb, hch⟩ := h.own r rel hget hun
  have hopen : ∀ i ∈ sb.subscribers.map Prod.snd, ∃ sub : Subscriber α, b.subs[i]? = some sub ∧ sub.ch.closed = false := fun i hi => by
    obtain ⟨⟨id, j⟩, hmem, rfl⟩ := List.mem_map.1 hi
    obtain ⟨sub, hget, -, -, -, -, hclosed⟩ := h.listed_open hsb hmem
    exact ⟨sub, hget, hclosed⟩
  obtain ⟨subs', hclose, hall⟩ := closeAll_open (h.channels_nodup hsb) hopen
  have hset : (b.relays.set r { rel with unregistered := true })[r]? = some { rel with unregistered := true } := by
    rw [getElem?_set_of_some hget, if_pos rfl]
  have hrelay : ({ rel with unregistered := true } : Relay α).close =
      .ok { rel with unregistered := true, relayCh := { rel.relayCh with closed := true } } := by
    rw [Relay.close, Chan.close_open ((h.relayCh r rel hget).trans hun)]
    rfl
  refine ⟨sb, subs', hsb, hch, ?_, hall⟩
  simp only [BridgeStep.act, hget, Bridge.unregisterRelay, hsb, hch]
  rw [runAt_ok hset hrelay, hclose, List.set_set]
  rfl

theorem unregisterRelay_sound (h : b.Sound) (hget : b.relays[r]? = some rel) (hun : rel.unregistered = false) :
    (BridgeStep.act (.unregisterRelay r) b).2.Sound := by
  obtain ⟨sb, subs', hsb, hch, hact, hall⟩ := unregisterRelay_ok h hget hun
  rw [hact]
  have hsubs' : ∀ {j : Nat} {sub' : Subscriber α}, subs'[j]? = some sub' → ∃ sub : Subscriber α, b.subs[j]? = some sub ∧
      sub' = if j ∈ sb.subscribers.map Prod.snd then { sub with ch := { sub.ch with closed := true } } else sub := fun {j sub'} hj => by
    rw [hall, Option.map_eq_some_iff] at hj
    obtain ⟨sub, hj, rfl⟩ := hj
    exact ⟨sub, hj, rfl⟩
  have hrelays : ∀ j : Nat, (b.relays.set r { rel with unregistered := true, relayCh := { rel.relayCh with closed := true } })[j]? =
      if r = j then some { rel with unregistered := true, relayCh := { rel.relayCh with closed := true } } else b.relays[j]? :=
    getElem?_set_of_some hget
  refine ⟨fun name sb' hsb' => ?_, fun r' rel' hget' hun' => ?_, fun name sb' hsb' id i => ?_, fun name sb' hsb' => ?_, fun r' rel' hget' => ?_, fun i sub' hget' => ?_⟩
  · rcases update_eq_some hsb' with ⟨-, hnew⟩ | ⟨hne, hsb'⟩
    · cases hnew
    · obtain ⟨rel', hrel', hname', hun'⟩ := h.registered name sb' hsb'
      have hother : r ≠ sb'.relayCh := fun heq => by
        rw [← heq, hget] at hrel'
        obtain rfl := Option.some.inj hrel'
        exact hne hname'.symm
      exact ⟨rel', by rw [hrelays, if_neg hother, hrel'], hname', hun'⟩
  · rw [hrelays] at hget'
    split at hget'
    · obtain rfl := Option.some.inj hget'
      cases hun'
    · obtain ⟨sb', hsb', hch'⟩ := h.own r' rel' hget' hun'
      have hne : rel'.name ≠ rel.name := fun heq => by
        rw [heq, hsb] at hsb'
        obtain rfl := Option.some.inj hsb'
        exact ‹¬ r = r'› (hch.symm.trans hch')
      exact ⟨sb', (Function.update_of_ne hne _ _).trans hsb', hch'⟩
  · rcases update_eq_some hsb' with ⟨-, hnew⟩ | ⟨hne, hsb'⟩
    · cases hnew
    · rw [h.listed name sb' hsb']
      constructor
      · rintro ⟨sub, hsub, hrest⟩
        refine ⟨_, by rw [hall, hsub]; rfl, ?_⟩
        split <;> exact hrest
      · rintro ⟨sub', hsub', hrest⟩
        obtain ⟨sub, hsub, rfl⟩ := hsubs' hsub'
        refine ⟨sub, hsub, ?_⟩
        split at hrest <;> exact hrest
  · rcases update_eq_some hsb' with ⟨-, hnew⟩ | ⟨hne, hsb'⟩
    · cases hnew
    · exact h.ids name sb' hsb'
  · rw [hrelays] at hget'
    split at hget'
    · obtain rfl := Option.some.inj hget'
      rfl
    · exact h.relayCh r' rel' hget'
  · obtain ⟨sub, hsub, rfl⟩ := hsubs' hget'
    obtain ⟨rel', hrel', hname', hclosed'⟩ := h.closed i sub hsub
    by_cases heq : r = sub.relay
    · rw [← heq, hget] at hrel'
      obtain rfl := Option.some.inj hrel'
      have hclosing := (hrelays sub.relay).trans (if_pos heq)
      split
      · exact ⟨_, hclosing, hname', by simp⟩
      · rename_i hout
        refine ⟨_, hclosing, hname', ?_⟩
        cases hopen : sub.ch.closed with
        | true => simp
        | false =>
          obtain ⟨-, sb₁, hsb₁, -, hmem⟩ := h.open_listed hsub hopen
          rw [← hname', hsb] at hsb₁
          obtain rfl := Option.some.inj hsb₁
          exact absurd (List.mem_map_of_mem hmem) hout
    · have hout : i ∉ sb.subscribers.map Prod.snd := fun hmem => by
        obtain ⟨e, hmem, hi⟩ := List.mem_map.1 hmem
        obtain ⟨sub₁, hsub₁, -, -, hrelay, -⟩ := h.listed_open hsb hmem
        rw [hi, hsub] at hsub₁
        obtain rfl := Option.some.inj hsub₁
        exact heq (hch.symm.trans hrelay.symm)
      rw [if_neg hout]
      exact ⟨rel', by rw [hrelays, if_neg heq, hrel'], hname', hclosed'⟩

/-- A subscriber leaves its own relay: what is registered now is the relay it subscribed to, or has nobody under its id. -/
def OwnRelay (b : Bridge α) (sub : Subscriber α) : Prop :=
  ∀ sb, b.sessions sub.name = some sb → sb.relayCh = sub.relay ∨ ∀ e ∈ sb.subscribers, e.1 ≠ sub.id

/-- The map once a subscriber is taken out of it. -/
def leaveSession (sb : SessionBridge) (id : Nat) : SessionBridge := { sb with subscribers := sb.subscribers.filter (·.1 != id) }

/-- What leaving does: the subscriber's own channel is closed, unless it was before. -/
theorem unsubscribe_ok (h : b.Sound) (hget : b.subs[i]? = some sub) (hleft : sub.left = false) (hown : OwnRelay b sub) :
    ∃ sessions', BridgeStep.act (.unsubscribe i) b =
        (.ok (), ⟨sessions', b.relays, b.subs.set i { sub with left := true, ch := { sub.ch with closed := true } }⟩) ∧
      (sub.ch.closed = true ∧ sessions' = b.sessions ∨
        ∃ sb, b.sessions sub.name = some sb ∧ sb.relayCh = sub.relay ∧ (sub.id, i) ∈ sb.subscribers ∧
          sessions' = Function.update b.sessions sub.name (some (leaveSession sb sub.id))) := by
  have hset : (b.subs.set i { sub with left := true })[i]? = some { sub with left := true } := by
    rw [getElem?_set_of_some hget, if_pos rfl]
  simp only [BridgeStep.act, hget, Bridge.unsubscribe]
  cases hclosed : sub.ch.closed with
  | true =>
    have hch : { sub.ch with closed := true } = sub.ch := by rw [← hclosed]
    refine ⟨b.sessions, ?_, .inl ⟨rfl, rfl⟩⟩
    rw [hch]
    cases hsb : b.sessions sub.name with
    | none => rfl
    | some sb =>
      have hnone : sb.subscribers.lookup sub.id = none := by
        cases hlookup : sb.subscribers.lookup sub.id with
        | none => rfl
        | some j =>
          have hj := Json.mem_of_lookup hlookup
          rcases hown sb hsb with hch' | hno
          · have hi := (h.listed _ sb hsb sub.id i).2 ⟨sub, hget, rfl, rfl, hch'.symm, hleft⟩
            obtain ⟨sub', hget', -, -, -, -, hopen⟩ := h.listed_open hsb hi
            rw [hget] at hget'
            obtain rfl := Option.some.inj hget'
            simp [hclosed] at hopen
          · exact absurd rfl (hno _ hj)
      simp only [hnone]
      rfl
  | false =>
    obtain ⟨-, sb, hsb, hch, hmem⟩ := h.open_listed hget hclosed
    have hlookup : sb.subscribers.lookup sub.id = some i := (Json.lookup_eq_some (h.ids _ sb hsb).1).2 hmem
    have hclose : ({ sub with left := true } : Subscriber α).close = .ok { sub with left := true, ch := { sub.ch with closed := true } } := by
      rw [Subscriber.close, Chan.close_open hclosed]
      rfl
    refine ⟨_, ?_, .inr ⟨sb, hsb, hch, hmem, rfl⟩⟩
    simp only [hsb, hlookup]
    rw [runAt_ok hset hclose, List.set_set]
    rfl

theorem unsubscribe_sound (h : b.Sound) (hget : b.subs[i]? = some sub) (hleft : sub.left = false) (hown : OwnRelay b sub) :
    (BridgeStep.act (.unsubscribe i) b).2.Sound := by
  obtain ⟨sessions', hact, hcases⟩ := unsubscribe_ok h hget hleft hown
  rw [hact]
  have hsubs := getElem?_set_of_some (y := { sub with left := true, ch := { sub.ch with closed := true } }) hget
  -- what stands in the map now stood in it before, less the one that left
  have hsessions : ∀ name sb', sessions' name = some sb' → ∃ sb, b.sessions name = some sb ∧ sb'.relayCh = sb.relayCh ∧ sb'.nextID = sb.nextID ∧
      sb'.subscribers.Sublist sb.subscribers ∧ ∀ id j, (id, j) ∈ sb'.subscribers ↔ (id, j) ∈ sb.subscribers ∧ j ≠ i := fun name sb' hsb' => by
    have hother : ∀ sb, b.sessions name = some sb → (sub.ch.closed = true ∨ name ≠ sub.name) → ∀ id j, (id, j) ∈ sb.subscribers → j ≠ i :=
      fun sb hsb hwhy id j hmem heq => by
        obtain ⟨sub', hget', hname', -, -, -, hopen⟩ := h.listed_open hsb hmem
        rw [heq, hget] at hget'
        obtain rfl := Option.some.inj hget'
        rcases hwhy with hclosed | hne
        · simp [hclosed] at hopen
        · exact hne hname'.symm
    rcases hcases with ⟨hclosed, rfl⟩ | ⟨sb, hsb, -, hmem, rfl⟩
    · exact ⟨sb', hsb', rfl, rfl, .refl _, fun id j => (and_iff_left_of_imp (hother sb' hsb' (.inl hclosed) id j)).symm⟩
    · rcases update_eq_some hsb' with ⟨rfl, hnew⟩ | ⟨hne, hsb'⟩
      · obtain rfl := Option.some.inj hnew
        refine ⟨sb, hsb, rfl, rfl, List.filter_sublist, fun id j => ?_⟩
        rw [leaveSession, List.mem_filter]
        refine and_congr_right fun hj => ?_
        rw [bne_iff_ne, not_iff_not]
        constructor
        · intro (heq : id = sub.id)
          exact Option.some.inj (((Json.lookup_eq_some (h.ids _ sb hsb).1).2 (heq ▸ hj)).symm.trans ((Json.lookup_eq_some (h.ids _ sb hsb).1).2 hmem))
        · intro heq
          obtain ⟨sub', hget', -, hid', -⟩ := h.listed_open hsb hj
          rw [heq, hget] at hget'
          obtain rfl := Option.some.inj hget'
          exact hid'.symm
      · exact ⟨sb', hsb', rfl, rfl, .refl _, fun id j => (and_iff_left_of_imp (hother sb' hsb' (.inr hne) id j)).symm⟩
  have hkept : ∀ name sb, b.sessions name = some sb → ∃ sb', sessions' name = some sb' ∧ sb'.relayCh = sb.relayCh := fun name sb hsb => by
    rcases hcases with ⟨-, rfl⟩ | ⟨sb₁, hsb₁, -, -, rfl⟩
    · exact ⟨sb, hsb, rfl⟩
    · by_cases heq : name = sub.name
      · rw [heq, hsb₁] at hsb
        obtain rfl := Option.some.inj hsb
        rw [heq]
        exact ⟨_, Function.update_self _ _ _, rfl⟩
      · exact ⟨sb, (Function.update_of_ne heq _ _).trans hsb, rfl⟩
  refine ⟨fun name sb' hsb' => ?_, fun r rel hrel hun => ?_, fun name sb' hsb' id j => ?_, fun name sb' hsb' => ?_, h.relayCh, fun j sub' hget' => ?_⟩
  · obtain ⟨sb, hsb, hch, -⟩ := hsessions name sb' hsb'
    rw [hch]
    exact h.registered name sb hsb
  · obtain ⟨sb, hsb, hch⟩ := h.own r rel hrel hun
    obtain ⟨sb', hsb', hch'⟩ := hkept _ sb hsb
    exact ⟨sb', hsb', hch'.trans hch⟩
  · obtain ⟨sb, hsb, hch, -, -, hmem⟩ := hsessions name sb' hsb'
    rw [hmem, h.listed name sb hsb, hch]
    constructor
    · rintro ⟨⟨sub', hget', hrest⟩, hne⟩
      exact ⟨sub', by rw [hsubs, if_neg (Ne.symm hne), hget'], hrest⟩
    · rintro ⟨sub', hget', hname', hid', hrelay', hleft'⟩
      rw [hsubs] at hget'
      split at hget'
      · obtain rfl := Option.some.inj hget'
        cases hleft'
      · exact ⟨⟨sub', hget', hname', hid', hrelay', hleft'⟩, Ne.symm ‹_›⟩
  · obtain ⟨sb, hsb, -, hnext, hsub, -⟩ := hsessions name sb' hsb'
    obtain ⟨hnodup, hbound⟩ := h.ids name sb hsb
    exact ⟨hnodup.sublist (hsub.map Prod.fst), fun e he => hnext ▸ hbound e (hsub.subset he)⟩
  · rw [hsubs] at hget'
    split at hget'
    · obtain rfl := Option.some.inj hget'
      obtain ⟨rel, hrel, hname, -⟩ := h.closed i sub hget
      exact ⟨rel, hrel, hname, rfl⟩
    · exact h.closed j sub' hget'

end Calls

end Purdex.Stream
