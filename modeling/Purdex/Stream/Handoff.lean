/-
Handing a session over to the stream and back to the terminal, and the relays that connect and go: every handler takes one
access of the rows, the relays or the locks at a time, with the others in between.
-/
import Purdex.Conc.Stages
import Purdex.Session.Meta

namespace Purdex.Stream

open Conc
open Purdex.Session (SessionMeta MetaUpdate decodeSessionID)

/-! ## The state -/

structure HostEvent where
  session : String
  type : String
  value : String
  deriving Repr, DecidableEq

/-- The relay that is registered under a code and the handoff that holds its lock are named by the handlers that serve them;
the code itself keeps no more than that there is one. -/
structure Serving where
  rows : Keyed Nat SessionMeta
  relays : String → Option Nat
  locks : String → Option Nat
  events : List HostEvent

/-- What a handler keeps of a session that it looked up. -/
structure SessionSeen where
  mode : String
  ccSessionID : String
  deriving Repr, DecidableEq

/-- What the outside decides at a turn: with what a call fails, whether tmux still lists the session, whether the time to wait
is over, what the settings and the agent answer, and the first line of a relay that tells of its agent. -/
structure Luck where
  err : Option String
  gone : Bool
  late : Bool
  idle : Bool
  presets : List (String × String)
  status : String × String
  init : Option (String × String)
  deriving Repr, DecidableEq

namespace Serving

def broadcast (code type value : String) (s : Serving) : Serving := { s with events := s.events ++ [⟨code, type, value⟩] }

def hasRelay (code : String) (s : Serving) : Bool := (s.relays code).isSome

/-- A session that tmux does not list loses its row, and whether that fails is not looked at. -/
def getSession (luck : Luck) (code : String) (s : Serving) : Option SessionSeen × Serving :=
  match decodeSessionID code with
  | none => (none, s)
  | some id =>
    if luck.gone then (none, if luck.err.isSome then s else { s with rows := Function.update s.rows id none })
    else if luck.err.isSome then (none, s)
    else (some (((s.rows id).map fun row => ⟨row.mode, row.ccSessionID⟩).getD ⟨"terminal", ""⟩), s)

/-- The error, if any. A session without a row stays without. -/
def updateMeta (luck : Luck) (code : String) (update : MetaUpdate) (s : Serving) : Option String × Serving :=
  match decodeSessionID code with
  | none => (some "invalid session code", s)
  | some id =>
    match luck.err with
    | some err => (some err, s)
    | none => (none, { s with rows := Function.update s.rows id ((s.rows id).map update.apply) })

def updateMode (luck : Luck) (code mode : String) (s : Serving) : Option String × Serving :=
  s.updateMeta luck code ⟨some mode, none, none, none⟩

end Serving

/-! ## Handoffs -/

/-- What is done in the pane, step by step. -/
inductive PaneStep where
  | detect
  | interrupt
  | getStatus
  | exit
  | writeToken
  | launch
  | waitShell
  | resume
  | verify
  deriving Repr, DecidableEq

def PaneStep.announced : PaneStep → Option String
  | .detect => some "detecting"
  | .interrupt => some "stopping-cc"
  | .getStatus => some "extracting-id"
  | .exit => some "exiting-cc"
  | .writeToken => some "launching"
  | .waitShell => some "waiting-shell"
  | .resume => some "launching-cc"
  | .launch | .verify => none

def PaneStep.failure (err : String) : PaneStep → String
  | .detect => "failed:no CC running"
  | .interrupt => "failed:interrupt CC: " ++ err
  | .getStatus => "failed:get status: " ++ err
  | .exit => "failed:exit CC: " ++ err
  | .writeToken => "failed:write token file: " ++ err
  | .launch | .resume => "failed:send-keys error: " ++ err
  | .waitShell => "failed:shell did not recover"
  | .verify => "failed:CC did not start"

/-- An agent that is idle is not interrupted. -/
def PaneStep.skipped (luck : Luck) : PaneStep → Bool
  | .interrupt => luck.idle
  | _ => false

structure HandoffRequest where
  mode : String
  preset : String
  deriving Repr, DecidableEq

inductive Outcome where
  | failed (text : String)
  /-- Handed over to the stream, with the relay that was seen to be there. -/
  | streaming (relay : Nat)
  | interactive
  deriving Repr, DecidableEq

def Outcome.value : Outcome → String
  | .failed text => text
  | .streaming _ | .interactive => "connected"

/-- How far a handoff is. From `toStream` and `toTerm` on it holds the lock. -/
inductive HandoffAt where
  | start
  | found (sess : SessionSeen)
  | refused (status : Nat) (text : String)
  | toStream (sess : SessionSeen)
  | preUpdating
  | stopping (updated : Bool)
  | preparing (steps : List PaneStep) (ccSessionID cwd : String)
  | joined (relay : Nat) (ccSessionID cwd : String)
  | toTerm (sess : SessionSeen)
  | marked (origMode : String)
  | stoppingTerm (origMode : String)
  | resuming (steps : List PaneStep) (origMode : String)
  | rollingBack (origMode text : String)
  | unlocking (outcome : Outcome)
  | ended (outcome : Outcome)
  deriving Repr, DecidableEq

def presetCommand (presets : List (String × String)) (preset : String) : String := ((presets.find? (·.1 = preset)).map (·.2)).getD ""

/-- Until the lock is taken, or the request refused. -/
def handleHandoff (i : Nat) (luck : Luck) (code : String) (body : Option HandoffRequest) : HandoffAt → Serving → Option (HandoffAt × Serving)
  | .start, s =>
    match s.getSession luck code with
    | (none, s') => some (.refused 404 "session not found", s')
    | (some sess, s') => some (.found sess, s')
  | .found sess, s =>
    match body with
    | none => some (.refused 400 "invalid body", s)
    | some req =>
      if req.mode ≠ "stream" ∧ req.mode ≠ "terminal" then some (.refused 400 "mode must be stream or terminal", s)
      else if req.mode ≠ "terminal" ∧ presetCommand luck.presets req.preset = "" then some (.refused 400 "preset not found", s)
      else if (s.locks code).isSome then some (.refused 409 "handoff already in progress", s)
      else some (if req.mode = "terminal" then .toTerm sess else .toStream sess, { s with locks := Function.update s.locks code (some i) })
  | _, _ => none

/-- The handoff is over but for its lock. -/
def finish (code : String) (outcome : Outcome) (s : Serving) : Option (HandoffAt × Serving) :=
  some (.unlocking outcome, s.broadcast code "handoff" outcome.value)

def announce (code : String) (step : PaneStep) (s : Serving) : Serving :=
  match step.announced with
  | none => s
  | some value => s.broadcast code "handoff" value

def streamSteps : List PaneStep := [.detect, .interrupt, .getStatus, .exit, .writeToken, .launch]

def termSteps : List PaneStep := [.waitShell, .resume, .verify]

/-- Between its looks at the relay a handoff that waits does nothing. -/
def runHandoff (luck : Luck) (code : String) : HandoffAt → Serving → Option (HandoffAt × Serving)
  | .toStream sess, s =>
    if !s.hasRelay code then some (.preparing streamSteps "" "", s)
    else if sess.mode ≠ "terminal" then some (.preUpdating, s)
    else some (.stopping false, s.broadcast code "handoff" "stopping-relay")
  | .preUpdating, s =>
    match s.updateMode luck code "terminal" with
    | (some err, s') => finish code (.failed ("failed:meta pre-update error: " ++ err)) s'
    | (none, s') => some (.stopping true, s'.broadcast code "handoff" "stopping-relay")
  | .stopping _, s =>
    if !s.hasRelay code then some (.preparing streamSteps "" "", s)
    else if luck.late then finish code (.failed "failed:existing relay did not disconnect") s
    else none
  | .preparing (step :: steps) ccSessionID cwd, s =>
    if step.skipped luck then some (.preparing steps ccSessionID cwd, s)
    else match luck.err with
      | some err => finish code (.failed (step.failure err)) (announce code step s)
      | none =>
        let (ccSessionID', cwd') := if step = .getStatus then luck.status else (ccSessionID, cwd)
        some (.preparing steps ccSessionID' cwd', announce code step s)
  | .preparing [] ccSessionID cwd, s =>
    match s.relays code with
    | some j => some (.joined j ccSessionID cwd, s)
    | none => if luck.late then finish code (.failed "failed:relay did not connect within 15s") s else none
  | .joined j ccSessionID cwd, s =>
    match s.updateMeta luck code ⟨some "stream", some ccSessionID, none, if cwd = "" then none else some cwd⟩ with
    | (some err, s') => finish code (.failed ("failed:meta update: " ++ err)) s'
    | (none, s') => finish code (.streaming j) s'
  | .unlocking outcome, s => some (.ended outcome, { s with locks := Function.update s.locks code none })
  | _, _ => none

def runHandoffToTerm (luck : Luck) (code : String) : HandoffAt → Serving → Option (HandoffAt × Serving)
  | .toTerm sess, s =>
    if sess.ccSessionID = "" then finish code (.failed "failed:no CC session ID stored") s
    else match s.updateMode luck code "terminal" with
      | (some err, s') => finish code (.failed ("failed:meta pre-update error: " ++ err)) s'
      | (none, s') => some (.marked sess.mode, s')
  | .marked origMode, s =>
    if s.hasRelay code then some (.stoppingTerm origMode, s.broadcast code "handoff" "stopping-relay")
    else some (.resuming termSteps origMode, s)
  | .stoppingTerm origMode, s =>
    if !s.hasRelay code then some (.resuming termSteps origMode, s)
    else if luck.late then some (.rollingBack origMode "failed:relay did not disconnect", s)
    else none
  | .resuming (step :: steps) origMode, s =>
    match luck.err with
    | some err => some (.rollingBack origMode (step.failure err), announce code step s)
    | none => some (.resuming steps origMode, announce code step s)
  | .resuming [] _, s => finish code .interactive (s.updateMeta luck code ⟨none, some "", none, none⟩).2
  | .rollingBack origMode text, s => finish code (.failed text) (s.updateMode luck code origMode).2
  | _, _ => none

/-! ## Relays -/

/-- How far the connection of a relay is: it is registered while it is `connected` and `closing`. -/
inductive RelayAt where
  | start
  | found
  | upgraded
  | refused (status : Nat) (text : String)
  | connected
  | closing
  | unregistered
  | reverting
  | ended
  deriving Repr, DecidableEq

def handleCliBridge (i : Nat) (luck : Luck) (code : String) : RelayAt → Serving → Option (RelayAt × Serving)
  | .start, s =>
    match s.getSession luck code with
    | (none, s') => some (.refused 404 "session not found", s')
    | (some _, s') => some (.found, s')
  | .found, s =>
    if s.hasRelay code then some (.refused 409 "relay already connected", s)
    else match luck.err with
      | some err => some (.refused 400 err, s)
      | none => some (.upgraded, s)
  | .upgraded, s =>
    if s.hasRelay code then some (.refused 1000 ("relay already registered for session \"" ++ code ++ "\""), s)
    else some (.connected, { s with relays := Function.update s.relays code (some i) }.broadcast code "relay" "connected")
  | .connected, s => some (.closing, s.broadcast code "relay" "disconnected")
  | .closing, s => some (.unregistered, { s with relays := Function.update s.relays code none })
  | .unregistered, s =>
    match s.getSession luck code with
    | (none, s') => some (.ended, s')
    | (some sess, s') => some (if sess.mode = "terminal" then .ended else .reverting, s')
  | .reverting, s => some (.ended, (s.updateMode luck code "terminal").2.broadcast code "handoff" "failed:relay disconnected")
  | .refused .., _ | .ended, _ => none

/-- A relay was registered once. -/
def RelayAt.joined : RelayAt → Bool
  | .connected | .closing | .unregistered | .reverting | .ended => true
  | _ => false

def orNone (text : String) : Option String := if text = "" then none else some text

/-- The reader of a relay's lines goes on by itself until its connection ends, and may be behind that. -/
def captureInitMetadata (luck : Luck) (code model sessionID : String) (s : Serving) : Serving :=
  let upd : MetaUpdate := ⟨none, orNone sessionID, orNone model, none⟩
  if upd = .none then s
  else
    let s' := (s.updateMeta luck code upd).2
    if model = "" then s' else s'.broadcast code "init" model

/-! ## The daemon -/

inductive Handler where
  | handoff (code : String) (body : Option HandoffRequest) (at' : HandoffAt)
  | relay (code : String) (initCaptured : Bool) (at' : RelayAt)
  deriving Repr, DecidableEq

def Handler.code : Handler → String
  | .handoff code _ _ | .relay code _ _ => code

def serveHandler (i : Nat) (luck : Luck) : Handler → Serving → Option (Handler × Serving)
  | .handoff code body at', s =>
    ((handleHandoff i luck code body at' s).or ((runHandoff luck code at' s).or (runHandoffToTerm luck code at' s))).map
      fun (at'', s') => (.handoff code body at'', s')
  | .relay code initCaptured at', s =>
    match luck.init with
    | none => (handleCliBridge i luck code at' s).map fun (at'', s') => (.relay code initCaptured at'', s')
    | some (model, sessionID) =>
      if initCaptured || !at'.joined then none else some (.relay code true at', captureInitMetadata luck code model sessionID s)

/-- What else writes rows is left out. -/
def handoffs : Stages Serving Handler Luck Empty where
  act := serveHandler
  tick o := nomatch o

abbrev Hosting := Staged Serving Handler

abbrev HostMove := Move Handler Luck Empty

abbrev HostTrace := List (Moved Serving Handler Luck Empty)

def Handler.Fresh : Handler → Prop
  | .handoff _ _ at' => at' = .start
  | .relay _ initCaptured at' => initCaptured = false ∧ at' = .start

instance : (t : Handler) → Decidable t.Fresh
  | .handoff .. => inferInstanceAs (Decidable (_ = _))
  | .relay .. => inferInstanceAs (Decidable (_ ∧ _))

/-- A daemon that has just started: stale modes were reset, and nobody is served. -/
structure Started (w : Hosting) : Prop where
  threads : w.threads = []
  rows : ∀ id row, w.shared.rows id = some row → row.mode = "terminal"
  relays : ∀ code, w.shared.relays code = none
  locks : ∀ code, w.shared.locks code = none

end Purdex.Stream
