/-
The hook with the sockets that it opens: a socket that is asked to close, or that the other end closes, is told so later, and tickets come in
any order.
-/
import Purdex.Client.Streams
import Purdex.Conc.Reach

namespace Purdex.Client

open Hosts Json

/-! ## States -/

/-- The connection that a session's entry has. -/
def StreamStore.connOf (s : StreamStore) (key : String) : Option Nat := (s.sessions.get? key).bind (·.conn)

namespace RelayManager

variable (m : RelayManager)

def keyOf (n : Nat) : Option String := m.opened[n]?.map (·.pending.key)

/-- A session's sockets, the newest last. -/
def socketsOf (key : String) : List Nat := (List.range m.opened.length).filter fun n => m.keyOf n = some key

def newest (key : String) : Option Nat := (m.socketsOf key).getLast?

/-- The relay of the socket's session is connected. -/
def isConnected (n : Nat) : Bool := (m.keyOf n).bind m.store.relayStatus.get? = some true

/-- What `clearSession` closes. -/
def clearedSession (hostId sessionCode : String) : List Nat := (m.store.connOf (compositeKey hostId sessionCode)).toList

/-- What `clearHost` closes. -/
def clearedHost (hostId : String) : List Nat :=
  (m.store.sessions.entries.filter fun entry => OfHost hostId entry.1).filterMap fun entry => entry.2.conn

end RelayManager

/-- `manager.closed` has the sockets that the hook closes. `current` remembers those whose ticket came within the connection that their relay
has now. -/
structure Sockets where
  manager : RelayManager
  unmounted : Bool
  byPeer : List Nat
  byClear : List Nat
  /-- Whose close event has come. -/
  told : List Nat
  current : List Nat

namespace Sockets

variable (w : Sockets)

def initial : Sockets := ⟨.start, false, [], [], [], []⟩

/-- The socket was not closed yet, by either end. -/
def isOpen (n : Nat) : Bool := n ∉ w.manager.closed && n ∉ w.byPeer && n ∉ w.byClear

def openOf (key : String) : List Nat := (w.manager.socketsOf key).filter w.isOpen

/-- Behind a change of the status. -/
def relay (m : RelayManager) : Sockets := { w with manager := m, current := w.current.filter m.isConnected }

/-- What unmounts the hook: the listener goes, the sockets that it has are closed. -/
def unmount : Sockets :=
  { w with
    manager := { w.manager with closed := w.manager.closed ++ w.manager.activeConns.map (·.2), activeConns := [] }
    unmounted := true }

/-! ## Moves -/

inductive Move where
  | setRelayStatus (hostId sessionCode : String) (connected : Bool) (hosts : HostState)
  | clearHost (hostId : String) (hosts : HostState)
  | clearSession (hostId sessionCode : String)
  /-- Every other action on a session. -/
  | act (hostId sessionCode : String) (update : PerSessionState → PerSessionState) (hconn : ∀ cur, (update cur).conn = cur.conn)
  | ticket (i : Nat) (ticket : String)
  /-- No ticket, or no socket on it. -/
  | ticketFails (i : Nat)
  | message (n : Nat) (msg : StreamMessage)
  | peerCloses (n : Nat)
  | closeEvent (n : Nat)
  | unmount

/-- Without the listener a change of the status is one of the store alone, and a ticket is for nothing. -/
def step : Move → Sockets → Option Sockets
  | .setRelayStatus hostId sessionCode connected hosts, w =>
    if w.unmounted then some (w.relay { w.manager with store := w.manager.store.setRelayStatus hostId sessionCode connected })
    else some (w.relay (w.manager.step (.setRelayStatus hostId sessionCode connected hosts)))
  | .clearHost hostId hosts, w =>
    let w := { w with byClear := w.byClear ++ w.manager.clearedHost hostId }
    if w.unmounted then some (w.relay { w.manager with store := w.manager.store.clearHost hostId })
    else some (w.relay (w.manager.step (.clearHost hostId hosts)))
  | .clearSession hostId sessionCode, w =>
    some { w with
      manager := w.manager.step (.clearSession hostId sessionCode)
      byClear := w.byClear ++ w.manager.clearedSession hostId sessionCode }
  | .act hostId sessionCode update _, w => some { w with manager := w.manager.step (.act hostId sessionCode update) }
  | .ticket i ticket, w =>
    if w.manager.pendingFetches.length ≤ i then none
    else if w.unmounted then some { w with manager := w.manager.step (.ticketFails i) }
    else some { w with
      manager := w.manager.step (.ticket i ticket)
      current := w.current ++ (List.range (w.manager.step (.ticket i ticket)).opened.length).drop w.manager.opened.length }
  | .ticketFails i, w =>
    if w.manager.pendingFetches.length ≤ i then none else some { w with manager := w.manager.step (.ticketFails i) }
  | .message n msg, w => some { w with manager := w.manager.step (.message n msg) }
  | .peerCloses n, w =>
    if n < w.manager.opened.length ∧ w.isOpen n = true then some { w with byPeer := w.byPeer ++ [n] } else none
  | .closeEvent n, w =>
    if n < w.manager.opened.length ∧ w.isOpen n = false ∧ n ∉ w.told then
      some { w with manager := w.manager.step (.closes n), told := w.told ++ [n] }
    else none
  | .unmount, w => some w.unmount

end Sockets

end Purdex.Client
