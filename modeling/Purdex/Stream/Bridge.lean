/-
The bridge between the relay of a session and its subscribers: what a relay reads goes out to all that subscribed, what
they type goes to the relay. Both come and go by goroutines of their own, which name the session and no more.
-/
import Purdex.Conc.Chan
import Purdex.Conc.Serial
import Mathlib.Data.List.Nodup
import Mathlib.Logic.Function.Basic

namespace Purdex.Stream

open Conc

variable {α : Type}

/-! ## The bridge -/

/-- A message on its way to the subscribers, which holds the read lock: whom it still has to reach. -/
structure Fanout (α : Type) where
  msg : α
  rest : List Nat
  deriving Repr, DecidableEq

/-- Who registered a relay, with its channel. `relayed` is all it ever passed on, and `fanout` the message it is passing on. -/
structure Relay (α : Type) where
  name : String
  relayCh : Chan α
  unregistered : Bool
  relayed : List α
  fanout : Option (Fanout α)
  deriving Repr, DecidableEq

/-- Who subscribed, with what it was given. `relay` is the relay it subscribed to, `joined` how much that had passed on by
then, and `dropped` what found its buffer full. -/
structure Subscriber (α : Type) where
  name : String
  id : Nat
  relay : Nat
  joined : Nat
  ch : Chan α
  dropped : List α
  left : Bool
  deriving Repr, DecidableEq

/-- A registered relay: channels are named by who made them, the `relayCh`-th relay and the subscribers of the pairs. -/
structure SessionBridge where
  relayCh : Nat
  subscribers : List (Nat × Nat)
  nextID : Nat
  deriving Repr, DecidableEq

structure Bridge (α : Type) where
  sessions : String → Option SessionBridge
  relays : List (Relay α)
  subs : List (Subscriber α)

inductive BridgeError where
  | alreadyRegistered (name : String)
  deriving Repr, DecidableEq

def buffer : Nat := 64

namespace Bridge

def new : Bridge α := ⟨fun _ => none, [], []⟩

def registerRelay (name : String) (b : Bridge α) : Except BridgeError Nat × Bridge α :=
  match b.sessions name with
  | some _ => (.error (.alreadyRegistered name), b)
  | none => (.ok b.relays.length, { b with
      sessions := Function.update b.sessions name (some ⟨b.relays.length, [], 0⟩)
      relays := b.relays ++ [⟨name, .make buffer, false, [], none⟩] })

end Bridge

def Relay.close (rel : Relay α) : Except ChanPanic (Relay α) := rel.relayCh.close.map fun relayCh => { rel with relayCh }

def Subscriber.close (sub : Subscriber α) : Except ChanPanic (Subscriber α) := sub.ch.close.map fun ch => { sub with ch }

/-- A message that finds the buffer full is dropped. -/
def Subscriber.offer (msg : α) (sub : Subscriber α) : Except ChanPanic (Subscriber α) :=
  (sub.ch.trySend msg).map fun ch =>
    { sub with ch, dropped := if sub.ch.buffer.length < sub.ch.cap then sub.dropped else sub.dropped ++ [msg] }

/-- The channels of a relay, in the order in which its map gives them. -/
def closeAll : List Nat → List (Subscriber α) → Except ChanPanic (List (Subscriber α))
  | [], subs => .ok subs
  | i :: order, subs => (runAt subs i Subscriber.close).bind (closeAll order)

namespace Bridge

def unregisterRelay (name : String) (b : Bridge α) : Except ChanPanic (Bridge α) :=
  match b.sessions name with
  | none => .ok b
  | some sb => do
    let relays ← runAt b.relays sb.relayCh Relay.close
    let subs ← closeAll (sb.subscribers.map Prod.snd) b.subs
    .ok { b with sessions := Function.update b.sessions name none, relays, subs }

def hasRelay (name : String) (b : Bridge α) : Bool := (b.sessions name).isSome

/-- The id and the channel, or nothing when no relay is registered. -/
def subscribe (name : String) (b : Bridge α) : Option (Nat × Nat) × Bridge α :=
  match b.sessions name with
  | none => (none, b)
  | some sb =>
    let id := sb.nextID + 1
    let joined := ((b.relays[sb.relayCh]?).map (·.relayed.length)).getD 0
    (some (id, b.subs.length), { b with
      sessions := Function.update b.sessions name (some { sb with nextID := id, subscribers := sb.subscribers ++ [(id, b.subs.length)] })
      subs := b.subs ++ [⟨name, id, sb.relayCh, joined, .make buffer, [], false⟩] })

def unsubscribe (name : String) (id : Nat) (b : Bridge α) : Except ChanPanic (Bridge α) :=
  match b.sessions name with
  | none => .ok b
  | some sb =>
    match sb.subscribers.lookup id with
    | none => .ok b
    | some i => do
      let subs ← runAt b.subs i Subscriber.close
      .ok { b with
        sessions := Function.update b.sessions name (some { sb with subscribers := sb.subscribers.filter (·.1 != id) })
        subs }

/-- The channels that a message for the subscribers of a session goes to. -/
def channels (name : String) (b : Bridge α) : List Nat := ((b.sessions name).map (·.subscribers.map Prod.snd)).getD []

def subscriberToRelay (name : String) (data : α) (b : Bridge α) : Except ChanPanic (Bridge α) :=
  match b.sessions name with
  | none => .ok b
  | some sb => (runAt b.relays sb.relayCh fun rel => (rel.relayCh.trySend data).map fun relayCh => { rel with relayCh }).map
      fun relays => { b with relays }

end Bridge

/-! ## Steps -/

/-- The calls of the bridge, and the receives of both ends. A relay and a subscriber are named by their place, in the order
in which they came. -/
inductive BridgeStep (α : Type) where
  | registerRelay (name : String)
  | unregisterRelay (r : Nat)
  | subscribe (name : String)
  | unsubscribe (i : Nat)
  /-- `RelayToSubscribers` by the reader of the `r`-th relay: it takes the read lock and goes over the map. -/
  | relay (r : Nat) (data : α) (order : List Nat)
  | deliver (r : Nat)
  | relayEnds (r : Nat)
  | subscriberToRelay (name : String) (data : α)
  | recv (i : Nat)
  | recvRelay (r : Nat)
  deriving Repr, DecidableEq

/-- A call that panics leaves the bridge as it was, which none does. -/
def settle (b : Bridge α) : Except ChanPanic (Bridge α) → Except ChanPanic Unit × Bridge α
  | .ok b' => (.ok (), b')
  | .error p => (.error p, b)

def BridgeStep.act : BridgeStep α → Bridge α → Except ChanPanic Unit × Bridge α
  | .registerRelay name, b => (.ok (), (b.registerRelay name).2)
  | .unregisterRelay r, b =>
    match b.relays[r]? with
    | none => (.ok (), b)
    | some rel => settle b (({ b with relays := b.relays.set r { rel with unregistered := true } }).unregisterRelay rel.name)
  | .subscribe name, b => (.ok (), (b.subscribe name).2)
  | .unsubscribe i, b =>
    match b.subs[i]? with
    | none => (.ok (), b)
    | some sub => settle b (({ b with subs := b.subs.set i { sub with left := true } }).unsubscribe sub.name sub.id)
  | .relay r data order, b =>
    match b.relays[r]? with
    | none => (.ok (), b)
    | some rel => (.ok (), { b with relays := b.relays.set r { rel with relayed := rel.relayed ++ [data], fanout := some ⟨data, order⟩ } })
  | .deliver r, b =>
    match b.relays[r]? with
    | none => (.ok (), b)
    | some rel =>
      match rel.fanout with
      | some ⟨msg, i :: rest⟩ => settle b ((runAt b.subs i (Subscriber.offer msg)).map fun subs =>
          { b with subs, relays := b.relays.set r { rel with fanout := some ⟨msg, rest⟩ } })
      | _ => (.ok (), b)
  | .relayEnds r, b =>
    match b.relays[r]? with
    | none => (.ok (), b)
    | some rel => (.ok (), { b with relays := b.relays.set r { rel with fanout := none } })
  | .subscriberToRelay name data, b => settle b (b.subscriberToRelay name data)
  | .recv i, b => settle b ((runAt b.subs i fun sub => .ok { sub with ch := sub.ch.recv }).map fun subs => { b with subs })
  | .recvRelay r, b => settle b ((runAt b.relays r fun rel => .ok { rel with relayCh := rel.relayCh.recv }).map fun relays => { b with relays })

/-- Nobody holds the read lock for long. -/
def Bridge.Quiet (b : Bridge α) : Prop := ∀ rel ∈ b.relays, rel.fanout = none

/-- A step that can happen: what changes the map has the lock for itself. Who registered a relay unregisters it once, a
subscriber leaves once, and a relay has one reader. -/
def BridgeStep.Enabled (b : Bridge α) : BridgeStep α → Prop
  | .registerRelay _ | .subscribe _ => b.Quiet
  | .unregisterRelay r => b.Quiet ∧ ∃ rel : Relay α, b.relays[r]? = some rel ∧ rel.unregistered = false
  | .unsubscribe i => b.Quiet ∧ ∃ sub : Subscriber α, b.subs[i]? = some sub ∧ sub.left = false
  | .relay r _ order => ∃ rel : Relay α, b.relays[r]? = some rel ∧ rel.fanout = none ∧ order.Perm (b.channels rel.name)
  | .deliver r => ∃ rel : Relay α, b.relays[r]? = some rel ∧ ∃ msg i rest, rel.fanout = some ⟨msg, i :: rest⟩
  | .relayEnds r => ∃ rel : Relay α, b.relays[r]? = some rel ∧ ∃ msg, rel.fanout = some ⟨msg, []⟩
  | .subscriberToRelay _ _ => True
  | .recv i => i < b.subs.length
  | .recvRelay r => r < b.relays.length

abbrev BridgeRuns : Bridge α → List (Served (Bridge α) (BridgeStep α) (Except ChanPanic Unit)) → Prop :=
  Serves BridgeStep.act (· = Bridge.new) fun b st => st.Enabled b

end Purdex.Stream
