/-
The watcher of the tmux sessions and what it tells the subscribers. Two goroutines list the sessions and broadcast the
list, the one when tmux signals a change and the other every five seconds, and each subscription sends a snapshot.
-/
import Purdex.Conc.Serial
import Mathlib.Data.List.Basic

namespace Purdex.Session

open Conc

variable {α : Type}

/-! ## The state -/

/-- Where the snapshot of a subscription is. -/
inductive Snapshot (α : Type) where
  | waiting
  | listing (since : Nat)
  | listed (sessions : List α)
  | done (sent : Bool)
  deriving Repr, DecidableEq

/-- A subscriber of host events with the `sessions` messages that went into its channel, and how many of them it received.
What finds the channel full is dropped. -/
structure Client (α : Type) where
  registered : Bool
  snapshot : Snapshot α
  sent : List (List α)
  received : Nat
  dropped : Nat
  deriving Repr, DecidableEq

def newClient : Client α := ⟨true, .waiting, [], 0, 0⟩

/-- Where a goroutine of the watcher is. `polled` says whether it is in `tickNormal` or in `broadcastSessions`; a list that is
under way knows how often the sessions had changed when it began, a broadcast how much had been sent. -/
inductive Phase (α : Type) where
  | idle
  /-- `tickTmuxDown` asks whether tmux is up again. -/
  | probing
  | entering
  | stamping
  | listing (polled : Bool) (since : Nat)
  | listed (sessions : List α)
  /-- The hash has changed. -/
  | changed (sessions : List α)
  | ready (polled : Bool) (sessions : List α)
  | sending (polled : Bool) (start : Nat) (sessions : List α) (rest : List Nat)
  deriving Repr, DecidableEq

/-- The goroutine of the tmux signal, and that of the ticker. -/
inductive Goroutine where
  | waitFor
  | ticker
  deriving Repr, DecidableEq

/-- The sessions as tmux has them with the number of their changes, the watcher's state, its goroutines and the subscribers.
`log` is all that was ever sent, to whom, and `hashedAt` how much of it when the hash was last changed. -/
structure Watch (α : Type) where
  sessions : List α
  changes : Nat
  tmuxAlive : Bool
  lastHash : String
  lastBroadcast : Option Int
  waitFor : Phase α
  ticker : Phase α
  clients : List (Client α)
  log : List (Nat × List α)
  hashedAt : Nat
  deriving Repr, DecidableEq

namespace Watch

/-- A watcher that has just started. -/
def start (sessions : List α) (tmuxAlive : Bool) : Watch α := ⟨sessions, 0, tmuxAlive, "", none, .idle, .idle, [], [], 0⟩

def phase (w : Watch α) : Goroutine → Phase α
  | .waitFor => w.waitFor
  | .ticker => w.ticker

def setPhase (g : Goroutine) (p : Phase α) (w : Watch α) : Watch α :=
  match g with
  | .waitFor => { w with waitFor := p }
  | .ticker => { w with ticker := p }

def client (i : Nat) (run : Client α → Client α) (w : Watch α) : Watch α := { w with clients := w.clients.modify i run }

/-- A send to one subscriber, in whose channel there is room or not: other events go through it too. -/
def send (i : Nat) (sessions : List α) (room : Bool) (w : Watch α) : Watch α :=
  match w.clients[i]? with
  | none => w
  | some c =>
    if room then { w with clients := w.clients.set i { c with sent := c.sent ++ [sessions] }, log := w.log ++ [(i, sessions)] }
    else { w with clients := w.clients.set i { c with dropped := c.dropped + 1 } }

def hasSubscribers (w : Watch α) : Bool := w.clients.any (·.registered)

/-- The subscribers that are registered. -/
def registered (w : Watch α) : List Nat := (List.range w.clients.length).filter fun i => (w.clients[i]?).any (·.registered)

end Watch

/-! ## Steps -/

/-- What happens, one access of the shared state at a time. -/
inductive WatchStep (α : Type) where
  /-- The sessions change, by the daemon or outside it. -/
  | change (sessions : List α)
  | add
  | remove (i : Nat)
  | recv (i : Nat)
  | snapshotBegins (i : Nat)
  | snapshotLists (i : Nat) (result : Option (List α))
  | snapshotSends (i : Nat) (room : Bool)
  /-- `tmux wait-for` returns. -/
  | signal
  | tick
  | probe (alive : Bool)
  | enter (g : Goroutine)
  | stamp (g : Goroutine) (now : Int)
  | lists (g : Goroutine) (result : Option (List α))
  | compare (alive : Bool)
  | check
  | broadcast (g : Goroutine) (order : List Nat)
  | deliver (g : Goroutine) (room : Bool)
  | broadcastEnds (g : Goroutine)
  deriving Repr, DecidableEq

/-- `broadcastSessions` was called less than half a second before. -/
def debounced (now : Int) : Option Int → Bool
  | none => false
  | some last => now - last < 500

variable (hashSessions : List α → String)

def WatchStep.act : WatchStep α → Watch α → Watch α
  | .change sessions, w => { w with sessions, changes := w.changes + 1 }
  | .add, w => { w with clients := w.clients ++ [newClient] }
  | .remove i, w => w.client i fun c => { c with registered := false }
  | .recv i, w => w.client i fun c => { c with received := c.received + 1 }
  | .snapshotBegins i, w => w.client i fun c => { c with snapshot := .listing w.changes }
  | .snapshotLists i none, w => w.client i fun c => { c with snapshot := .done false }
  | .snapshotLists i (some sessions), w => w.client i fun c => { c with snapshot := .listed sessions }
  | .snapshotSends i room, w =>
    match w.clients[i]? with
    | some ⟨_, .listed sessions, _, _, _⟩ => (w.send i sessions room).client i fun c => { c with snapshot := .done true }
    | _ => w
  | .signal, w => { w with waitFor := .entering }
  | .tick, w => { w with ticker := if w.tmuxAlive then .listing true w.changes else .probing }
  | .probe alive, w => if alive then { w with tmuxAlive := true, ticker := .entering } else { w with ticker := .idle }
  | .enter g, w => w.setPhase g (if w.hasSubscribers then .stamping else .idle)
  | .stamp g now, w =>
    if debounced now w.lastBroadcast then w.setPhase g .idle
    else { w with lastBroadcast := some now }.setPhase g (.listing false w.changes)
  | .lists g none, w => w.setPhase g .idle
  | .lists g (some sessions), w =>
    match w.phase g with
    | .listing true _ => w.setPhase g (.listed sessions)
    | .listing false _ => w.setPhase g (.ready false sessions)
    | _ => w
  | .compare alive, w =>
    match w.ticker with
    | .listed sessions =>
      if sessions.isEmpty && !alive then { w with tmuxAlive := false, ticker := .idle }
      else if hashSessions sessions = w.lastHash then { w with ticker := .idle }
      else { w with lastHash := hashSessions sessions, hashedAt := w.log.length, ticker := .changed sessions }
    | _ => w
  | .check, w =>
    match w.ticker with
    | .changed sessions => { w with ticker := if w.hasSubscribers then .ready true sessions else .idle }
    | _ => w
  | .broadcast g order, w =>
    match w.phase g with
    | .ready polled sessions => w.setPhase g (.sending polled w.log.length sessions order)
    | _ => w
  | .deliver g room, w =>
    match w.phase g with
    | .sending polled start sessions (i :: rest) => (w.send i sessions room).setPhase g (.sending polled start sessions rest)
    | _ => w
  | .broadcastEnds g, w => w.setPhase g .idle

/-- No broadcast holds the lock of the subscribers. -/
def Watch.Quiet (w : Watch α) : Prop := ∀ g polled start sessions rest, w.phase g ≠ .sending polled start sessions rest

/-- A list of the sessions that they did not change under is the sessions. -/
def Watch.Lists (w : Watch α) (since : Nat) (result : Option (List α)) : Prop :=
  ∀ sessions, result = some sessions → w.changes = since → sessions = w.sessions

/-- A step that can happen. -/
def WatchStep.Enabled (w : Watch α) : WatchStep α → Prop
  | .change _ => True
  | .add => w.Quiet
  | .remove _ => w.Quiet
  | .recv i => ∃ c : Client α, w.clients[i]? = some c ∧ c.received < c.sent.length
  | .snapshotBegins i => ∃ c : Client α, w.clients[i]? = some c ∧ c.snapshot = .waiting
  | .snapshotLists i result => ∃ c : Client α, w.clients[i]? = some c ∧ ∃ since, c.snapshot = .listing since ∧ w.Lists since result
  | .snapshotSends i _ => ∃ c : Client α, w.clients[i]? = some c ∧ c.registered = true ∧ ∃ sessions, c.snapshot = .listed sessions
  | .signal => w.waitFor = .idle
  | .tick => w.ticker = .idle
  | .probe _ => w.ticker = .probing
  | .enter g => w.phase g = .entering
  | .stamp g _ => w.phase g = .stamping
  | .lists g result => ∃ polled since, w.phase g = .listing polled since ∧ w.Lists since result
  | .compare _ => ∃ sessions, w.ticker = .listed sessions
  | .check => ∃ sessions, w.ticker = .changed sessions
  | .broadcast g order => (∃ polled sessions, w.phase g = .ready polled sessions) ∧ order.Perm w.registered
  | .deliver g _ => ∃ polled start sessions i rest, w.phase g = .sending polled start sessions (i :: rest)
  | .broadcastEnds g => ∃ polled start sessions, w.phase g = .sending polled start sessions []

abbrev WatchEvent (α : Type) := Served (Watch α) (WatchStep α) Unit

/-- The runs from the states that `Init` allows, of steps that `ok` allows. -/
abbrev WatchRuns (Init : Watch α → Prop) (ok : Watch α → WatchStep α → Prop) : Watch α → List (WatchEvent α) → Prop :=
  Serves (fun st w => ((), WatchStep.act hashSessions st w)) Init ok

end Purdex.Session
