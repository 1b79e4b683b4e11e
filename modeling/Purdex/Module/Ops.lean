/-
The atomic operations of the agent module: each SQL statement, each reading of the process table
or tmux, and each critical section under one of the module's mutexes.
-/
import Purdex.Module.State
import Purdex.Conc.Pool

namespace Purdex.Module

open Purdex.Agent Purdex.Store Conc

/-! ## Critical sections under `m.mu` -/

/-- Which entry a probe callback must still find: the armed detector of its generation, or the
screen watcher of its agent. -/
inductive StaleCheck where
  | intent (session : String) (kind : ProbeIntentKind) (agentType : String) (generation : Nat)
  | watcher (session agentType : String)
  deriving DecidableEq

def StaleCheck.holds (m : Mem) : StaleCheck → Bool
  | .intent session kind agentType generation =>
    match m.activeProbeIntents.lookup (session, kind) with
    | some cur => cur.agentType == agentType && cur.generation == generation
    | none => false
  | .watcher session agentType => m.activeWatchers.lookup session == some agentType

/-- Remove the entry of a session and kind, if there is one and its generation is the expected
one (0 expects any), and hand back the generation whose context is to be cancelled. -/
def stopActiveIntentInLock (m : Mem) (session : String) (kind : ProbeIntentKind) (expectGeneration : Nat) :
    Option Nat × Mem :=
  match m.activeProbeIntents.lookup (session, kind) with
  | none => (none, m)
  | some cur =>
    if expectGeneration ≠ 0 ∧ cur.generation ≠ expectGeneration then (none, m)
    else (some cur.generation, { m with activeProbeIntents := m.activeProbeIntents.erase (session, kind) })

/-- An entry that does not fit the agent and its declared kinds; with no declared kinds at all none
fits. -/
def staleEntry (newAgentType : String) (declaredKinds : Option (List ProbeIntentKind)) (kind : ProbeIntentKind)
    (cur : ActiveIntent) : Bool :=
  match declaredKinds with
  | none => true
  | some kinds => cur.agentType ≠ newAgentType ∨ kind ∉ kinds

def staleKinds (m : Mem) (session newAgentType : String) (declaredKinds : Option (List ProbeIntentKind)) :
    List ProbeIntentKind :=
  (m.activeProbeIntents.entries.filter fun e =>
    e.1.1 = session ∧ staleEntry newAgentType declaredKinds e.1.2 e.2).map (·.1.2)

/-- Stop the entries of these kinds, collecting the generations to cancel. -/
def stopKinds (session : String) : List ProbeIntentKind → Mem → List Nat × Mem
  | [], m => ([], m)
  | kind :: kinds, m =>
    let (stopped, m) := stopActiveIntentInLock m session kind 0
    let (gens, m) := stopKinds session kinds m
    (stopped.toList ++ gens, m)

def reconcileLocked (m : Mem) (session newAgentType : String) (declaredKinds : Option (List ProbeIntentKind)) :
    List Nat × Mem :=
  stopKinds session (staleKinds m session newAgentType declaredKinds) m

/-- What is left to do after the lock is released: cancel the old context, start a detector. -/
structure LifecyclePlan where
  stopOld : Option Nat := none
  start : Option Nat := none

def lookupTopFrameForSessionLocked (s : State) (session : String) : Option (String × Int) :=
  if s.env.dbFault.isSome then none
  else ((projectionOf s.env session (selectAll s.table)).bind (·.topFrame)).map fun top => (top.paneID, top.pid)

def stopPlan (m : Mem) (session : String) (kind : ProbeIntentKind) : LifecyclePlan × Mem :=
  let (stopOld, m) := stopActiveIntentInLock m session kind 0
  ({ stopOld }, m)

/-- Put a detector of a new generation in place of whatever was there. -/
def armPlan (m : Mem) (session agentType : String) (kind : ProbeIntentKind) (paneID : String) (senderPID : Int) :
    LifecyclePlan × Mem :=
  let (stopOld, m) := stopActiveIntentInLock m session kind 0
  let generation := m.probeIntentGen + 1
  ({ stopOld, start := some generation },
    { m with
      probeIntentGen := generation
      activeProbeIntents := m.activeProbeIntents.insert (session, kind)
        { agentType, paneID, senderPID, generation } })

def applyIntentLifecycleLocked (cfg : Config) (s : State) (session agentType : String) (newStatus : Status)
    (intent : ProbeIntent) : LifecyclePlan × Mem :=
  if newStatus ∉ intent.onEntryStatus then stopPlan s.mem session intent.kind
  else match s.mem.currentStatus.lookup session with
    | none => stopPlan s.mem session intent.kind
    | some curStatus =>
      if curStatus ∉ intent.onEntryStatus then stopPlan s.mem session intent.kind
      else match lookupTopFrameForSessionLocked s session with
        | none => stopPlan s.mem session intent.kind
        | some (paneID, senderPID) =>
          if paneID = "" ∨ senderPID = 0 then stopPlan s.mem session intent.kind
          else if (s.mem.activeProbeIntents.lookup (session, intent.kind)).any fun cur =>
              cur.agentType = agentType ∧ cur.paneID = paneID ∧ cur.senderPID = senderPID then
            ({}, s.mem)
          else if !cfg.supportedKinds intent.kind then stopPlan s.mem session intent.kind
          else armPlan s.mem session agentType intent.kind paneID senderPID

/-- Step 4 of the probe pipeline: stale check, error guard and transition gate, then the write. -/
def commitStatusLocked (m : Mem) (check : StaleCheck) (session : String) (newStatus : Status) : Bool × Mem :=
  if !check.holds m then (false, m)
  else match m.currentStatus.lookup session with
    | some prev =>
      if prev = .error ∨ prev = newStatus then (false, m)
      else (true, { m with currentStatus := m.currentStatus.insert session newStatus })
    | none => (true, { m with currentStatus := m.currentStatus.insert session newStatus })

/-- The handler's write of an accepted status. -/
def setStatusLocked (m : Mem) (session : String) (status : Status) : Mem :=
  if status = .clear then
    { m with currentStatus := m.currentStatus.erase session, subagents := m.subagents.erase session }
  else { m with currentStatus := m.currentStatus.insert session status }

/-- The sync after the sweep deleted a frame: a session without a frame left loses its watcher. -/
def syncClearedLocked (m : Mem) (session : String) (projection : Option SessionProjection) : Mem :=
  let m := syncProjectionState m session projection
  if (projection.bind (·.topFrame)).isNone then { m with activeWatchers := m.activeWatchers.erase session } else m

/-- Move an entry to another key, if there is one: written under the new key first. -/
def moveEntry {β : Type} (l : AList fun _ : String => β) (oldName newName : String) : AList fun _ : String => β :=
  match l.lookup oldName with
  | some v => (l.insert newName v).erase oldName
  | none => l

/-- `migrateLastHookAt` deletes the old key before it writes the new one. -/
def migrateLastHookAt (m : Mem) (oldName newName : String) : Mem :=
  match m.lastHookAt.lookup oldName with
  | some stamp => { m with lastHookAt := (m.lastHookAt.erase oldName).insert newName stamp }
  | none => m

/-- The entries of a session, dropped from the map, and the generations to cancel. -/
def dropSessionIntents (m : Mem) (session : String) : List Nat × Mem :=
  ((m.activeProbeIntents.entries.filter (·.1.1 = session)).map (·.2.generation),
    { m with
      activeProbeIntents := ⟨m.activeProbeIntents.entries.filter (·.1.1 ≠ session),
        m.activeProbeIntents.nodupKeys.sublist List.filter_sublist⟩ })

/-- Evict the watcher of the old name; only then is the grace map migrated. -/
def evictWatcher (m : Mem) (oldName newName : String) : Mem :=
  match m.activeWatchers.lookup oldName with
  | some _ => migrateLastHookAt { m with activeWatchers := m.activeWatchers.erase oldName } oldName newName
  | none => m

def renameSessionLocked (m : Mem) (oldName newName : String) : List Nat × Mem :=
  let m := { m with subagents := moveEntry m.subagents oldName newName }
  let m := { m with currentStatus := moveEntry m.currentStatus oldName newName }
  dropSessionIntents (evictWatcher m oldName newName) oldName

/-- What the re-evaluation after a rename starts from. -/
def captureProbeIntentReevalLocked (s : State) (session : String) : Option (String × Status) :=
  (s.mem.currentStatus.lookup session).map fun status =>
    let top := if s.env.dbFault.isSome then none
      else (projectionOf s.env session (selectAll s.table)).bind (·.topFrame)
    ((top.map (·.agentType)).getD "", status)

/-! ## The grace window -/

/-- Two seconds, in the nanoseconds of the clock. -/
def probeGraceWindow : Int := 2000000000

/-- A screen-change detector is armed by the hook itself, so the hook does not suppress it. -/
def probeIntentPostGraceWindow : ProbeIntentKind → Int
  | .screenChange => 0
  | .processDead => probeGraceWindow

/-- A hook no later than the signal and less than `window` before it. -/
def withinPostGrace (window : Int) (lastHook : Option Int) (signalAt : Int) : Bool :=
  match lastHook with
  | some last => decide (0 < window) && !decide (signalAt < last) && decide (signalAt - last < window)
  | none => false

/-! ## The operations -/

inductive Op where
  -- the frames table, one SQL statement each
  | getByIdentity (i : Ident)
  | findByPanePID (paneID : String) (pid : Int)
  | listByPane (paneID : String)
  | listAll
  | insertOnConflict (frame : Frame)
  | updateIfUnchanged (frame : Frame) (expectedLastSeenAt : Int)
  | deleteFrame (frameID : String)
  | deleteIfUnchanged (frameID : String) (lastSeenAt : Int)
  | updateStatusAndLastSeen (frameID : String) (status : Status) (lastSeenAt : Int)
  | updateHookPath (frame : Frame)
  | updateSessionIdentity (frameID sessionID cwd : String) (seq : Int)
  | nextIdentitySeq
  | deleteLegacyEvent (session : String)
  -- processes, tmux and the clock
  | isPidAlive (pid : Int)
  | processStartTime (pid : Int)
  | readProcessInfo (pid : Int)
  | firstAliveAgentInTree (paneID : String)
  | verifyEvent (req : EventRequest)
  | resolvePaneSession (paneID : String)
  | sessionProjection (session : String) (frames : List Frame)
  | paneProjection (paneID : String) (frames : List Frame)
  | sessionProjections (frames : List Frame)
  | looksLikeShellPrompt (session : String)
  | now
  -- sections under `m.mu`
  | readStatus (session : String)
  | syncProjection (session : String) (projection : Option SessionProjection)
  | syncCleared (session : String) (projection : Option SessionProjection)
  | setStatus (session : String) (status : Status)
  | dropSubagents (session : String)
  | dropWatcher (session : String)
  | dropAllWatchers
  | checkStale (check : StaleCheck)
  | commitStatus (check : StaleCheck) (session : String) (newStatus : Status)
  | reconcile (session agentType : String) (declaredKinds : Option (List ProbeIntentKind))
  | intentLifecycle (session agentType : String) (newStatus : Status) (intent : ProbeIntent)
  | stopActiveIntent (session : String) (kind : ProbeIntentKind) (generation : Nat)
  | renameSession (oldName newName : String)
  | stopAllIntents
  | snapshotStatuses
  -- the orchestrator's grace map
  | recordHookAt (session : String)
  | readHookAt (session : String)
  -- contexts and goroutines
  | cancel (generation : Nat)
  | startConsumer (session agentType : String) (intent : ProbeIntent) (generation : Nat)
  | recvSignal (generation : Nat)
  | preGraceHold (generation : Nat)

/-- The type of each operation's answer; the database and the process table may fail. -/
@[reducible] def Op.Res : Op → Type
  | .getByIdentity _ => Except Err (Option Frame)
  | .findByPanePID _ _ => Except Err (Option Frame)
  | .listByPane _ => Except Err (List Frame)
  | .listAll => Except Err (List Frame)
  | .insertOnConflict _ => Except Err Unit
  | .updateIfUnchanged _ _ => Except Err Bool
  | .deleteFrame _ => Except Err Unit
  | .deleteIfUnchanged _ _ => Except Err Bool
  | .updateStatusAndLastSeen _ _ _ => Except Err Unit
  | .updateHookPath _ => Except Err Unit
  | .updateSessionIdentity _ _ _ _ => Except Err Unit
  | .nextIdentitySeq => Int
  | .deleteLegacyEvent _ => Except Err Unit
  | .isPidAlive _ => Bool
  | .processStartTime _ => Except Err String
  | .readProcessInfo _ => Except Err ProcessInfo
  | .firstAliveAgentInTree _ => Except Err String
  | .verifyEvent _ => Bool
  | .resolvePaneSession _ => String × String
  | .sessionProjection _ _ => Option SessionProjection
  | .paneProjection _ _ => SessionProjection
  | .sessionProjections _ => List (String × SessionProjection)
  | .looksLikeShellPrompt _ => Bool
  | .now => Int
  | .readStatus _ => Option Status
  | .syncProjection _ _ => Unit
  | .syncCleared _ _ => Unit
  | .setStatus _ _ => Unit
  | .dropSubagents _ => Unit
  | .dropWatcher _ => Unit
  | .dropAllWatchers => Unit
  | .checkStale _ => Bool
  | .commitStatus _ _ _ => Bool
  | .reconcile _ _ _ => List Nat
  | .intentLifecycle _ _ _ _ => LifecyclePlan
  | .stopActiveIntent _ _ _ => Option Nat × Option Status
  | .renameSession _ _ => List Nat × Option (String × Status)
  | .stopAllIntents => List Nat
  | .snapshotStatuses => List (String × String × Status)
  | .recordHookAt _ => Unit
  | .readHookAt _ => Option Int
  | .cancel _ => Unit
  | .startConsumer _ _ _ _ => Unit
  | .recvSignal _ => Option Signal
  | .preGraceHold _ => Bool

abbrev iface : Iface := ⟨Op, Op.Res⟩

namespace State

def setMem {α : Type} (s : State) (r : α × Mem) : α × State :=
  (r.1, { s with mem := r.2 })

/-- Run a statement, unless the database does not answer. -/
def stmt {α : Type} (s : State) (f : Table → Stmt α) : Except Err α × State :=
  match s.env.dbFault with
  | some e => (.error e, s)
  | none => ((f s.table).1, { s with table := (f s.table).2 })

/-- Read the table, unless the database does not answer. -/
def query {α : Type} (s : State) (f : Table → α) : Except Err α × State :=
  match s.env.dbFault with
  | some e => (.error e, s)
  | none => (.ok (f s.table), s)

end State

/-- A frame without an id gets a fresh one where it is inserted. -/
def withFreshID (env : Env) (frame : Frame) : Frame :=
  if frame.frameID = "" then { frame with frameID := env.uuid } else frame

/-- What each operation answers and does. -/
def exec (cfg : Config) : (o : Op) → State → o.Res × State
  | .getByIdentity i, s => s.query (selectByIdentity · i)
  | .findByPanePID paneID pid, s => s.query (selectByPanePID · paneID pid)
  | .listByPane paneID, s => s.query (selectByPane · paneID)
  | .listAll, s => s.query selectAll
  | .insertOnConflict frame, s => s.stmt (insertOnConflict · (withFreshID s.env frame))
  | .updateIfUnchanged frame expected, s => s.stmt (updateIfUnchanged · frame expected)
  | .deleteFrame frameID, s => s.stmt (deleteFrame · frameID)
  | .deleteIfUnchanged frameID lastSeenAt, s => s.stmt (deleteIfUnchanged · frameID lastSeenAt)
  | .updateStatusAndLastSeen frameID status ts, s => s.stmt (updateStatusAndLastSeen · frameID status ts)
  | .updateHookPath frame, s => s.stmt (updateHookPath · frame)
  | .updateSessionIdentity frameID sessionID cwd seq, s =>
    s.stmt (updateSessionIdentity · frameID sessionID cwd seq)
  | .nextIdentitySeq, s => (s.identitySeq + 1, { s with identitySeq := s.identitySeq + 1 })
  | .deleteLegacyEvent _, s => s.query fun _ => ()
  | .isPidAlive pid, s => (s.env.isPidAlive pid, s)
  | .processStartTime pid, s => (s.env.processStartTime pid, s)
  | .readProcessInfo pid, s => (s.env.processInfo pid, s)
  | .firstAliveAgentInTree paneID, s => (s.env.aliveAgentInTree paneID, s)
  | .verifyEvent req, s => (s.env.verifies req, s)
  | .resolvePaneSession paneID, s => ((s.env.paneSession paneID, s.env.paneCode paneID), s)
  | .sessionProjection session frames, s => (projectionOf s.env session frames, s)
  | .paneProjection paneID frames, s =>
    (buildPaneProjection paneID (filterPaneOwnedProjectionFrames s.env paneID frames), s)
  | .sessionProjections frames, s => (liveSessionProjections s.env frames, s)
  | .looksLikeShellPrompt session, s => (s.env.shellPrompt session, s)
  | .now, s => (s.env.clock, s)
  | .readStatus session, s => (s.mem.currentStatus.lookup session, s)
  | .syncProjection session projection, s => s.setMem ((), syncProjectionState s.mem session projection)
  | .syncCleared session projection, s => s.setMem ((), syncClearedLocked s.mem session projection)
  | .setStatus session status, s => s.setMem ((), setStatusLocked s.mem session status)
  | .dropSubagents session, s => s.setMem ((), { s.mem with subagents := s.mem.subagents.erase session })
  | .dropWatcher session, s =>
    s.setMem ((), { s.mem with activeWatchers := s.mem.activeWatchers.erase session })
  | .dropAllWatchers, s => s.setMem ((), { s.mem with activeWatchers := ∅ })
  | .checkStale check, s => (check.holds s.mem, s)
  | .commitStatus check session newStatus, s => s.setMem (commitStatusLocked s.mem check session newStatus)
  | .reconcile session agentType kinds, s => s.setMem (reconcileLocked s.mem session agentType kinds)
  | .intentLifecycle session agentType newStatus intent, s =>
    s.setMem (applyIntentLifecycleLocked cfg s session agentType newStatus intent)
  | .stopActiveIntent session kind generation, s =>
    let (stopped, m) := stopActiveIntentInLock s.mem session kind generation
    s.setMem ((stopped, m.currentStatus.lookup session), m)
  | .renameSession oldName newName, s =>
    let (gens, m) := renameSessionLocked s.mem oldName newName
    s.setMem ((gens, captureProbeIntentReevalLocked { s with mem := m } newName), m)
  | .stopAllIntents, s =>
    s.setMem (s.mem.activeProbeIntents.entries.map (·.2.generation), { s.mem with activeProbeIntents := ∅ })
  | .snapshotStatuses, s =>
    (s.mem.currentStatus.entries.map fun e =>
      let top := if s.env.dbFault.isSome then none
        else (projectionOf s.env e.1 (selectAll s.table)).bind (·.topFrame)
      (e.1, (top.map (·.agentType)).getD "", e.2), s)
  | .recordHookAt session, s =>
    s.setMem ((), { s.mem with lastHookAt := s.mem.lastHookAt.insert session s.env.clock })
  | .readHookAt session, s => (s.mem.lastHookAt.lookup session, s)
  | .cancel _, s => ((), s)
  | .startConsumer _ _ _ _, s => ((), s)
  | .recvSignal generation, s => (s.env.signal generation, s)
  | .preGraceHold generation, s => (s.env.canceled generation, s)

end Purdex.Module
