/-
What the agent module works on: requests, providers and their probe intents, the process table
and tmux as the module sees them, its own maps, and the projection of frames to a session.
-/
import Purdex.Store.Frames
import Mathlib.Data.List.AList

namespace Purdex.Module

open Purdex.Agent Purdex.Store

/-! ## Requests and providers -/

structure EventRequest where
  tmuxSession : String
  tmuxPaneID : String
  purdexName : String
  rawEvent : String
  agentType : String
  senderPID : Int
  senderStartTime : String
  senderUncertain : Bool
  deriving DecidableEq, Repr

/-- What a provider makes of an event; `agentID` is the `agent_id` of its detail, empty when absent. -/
structure DeriveResult where
  status : Status := .unset
  valid : Bool := false
  agentID : String := ""
  deriving DecidableEq, Repr

inductive ProbeIntentKind where
  | processDead
  | screenChange
  deriving DecidableEq, Repr

structure Signal where
  kind : ProbeIntentKind
  paneAlive : Bool
  paneID : String
  senderPID : Int
  deriving DecidableEq, Repr

structure ProbeIntent where
  kind : ProbeIntentKind
  onEntryStatus : List Status
  onSignal : Signal → Status

/-- An agent provider: its event catalog, its status mapping, the session identity it reads off an
event, and the probe intents it declares. -/
structure Provider where
  lifecycle : String → LifecycleEventKind
  deriveStatus : String → String → DeriveResult
  identifyEvent : String → String → String × String
  probeIntents : List ProbeIntent

structure DelegationHint where
  agentID : String
  toolUseID : String
  isCodexMark : Bool
  isUnmark : Bool
  deriving DecidableEq, Repr

/-- What the module is built with: the providers by agent type, the two payload readers, and the
probe kinds that have a detector. -/
structure Config where
  registry : String → Option Provider
  parseCodexTurnID : String → String
  extractDelegationHint : String → String → Option DelegationHint
  supportedKinds : ProbeIntentKind → Bool

/-! ## The world outside the module -/

structure ProcessInfo where
  ppid : Int
  deriving DecidableEq, Repr

/-- The process table, tmux, the clock, the next fresh id, what detectors send, and whether the
database answers. -/
structure Env where
  isPidAlive : Int → Bool
  processStartTime : Int → Except Err String
  processInfo : Int → Except Err ProcessInfo
  pidAncestorIncludes : Int → Int → Bool
  aliveAgentInTree : String → Except Err String
  panePID : String → Except Err Int
  paneSession : String → String
  paneCode : String → String
  verifies : EventRequest → Bool
  shellPrompt : String → Bool
  clock : Int
  uuid : String
  signal : Nat → Option Signal
  canceled : Nat → Bool
  dbFault : Option Err

/-! ## Projections -/

structure SessionProjection where
  paneID : String
  primaryFrame : Option Frame
  topFrame : Option Frame
  subagents : List SubagentRef
  deriving DecidableEq, Repr

/-- A frame whose process another frame of the pane already carries as a proxy ref. -/
def claimed (frames : List Frame) (frame : Frame) : Bool :=
  frames.any fun owner => subagentsContainProxySender owner.subagents frame.pid frame.processStartTime

/-- The same subagent across frames: a proxy ref by its process, a native ref by family and id. -/
def sameAcrossFrames (ref existing : SubagentRef) : Bool :=
  if ref.isProxy then isBrokerRef ref.sourcePID ref.sourceStartTime existing
  else !existing.isProxy && existing.type == ref.type && existing.id == ref.id

def mergeHidden (subagents hidden : List SubagentRef) : List SubagentRef :=
  hidden.foldl (fun acc ref => if acc.any (sameAcrossFrames ref) then acc else acc ++ [ref]) subagents

/-- The order of the frames of a pane: by start, then by id. -/
def frameLe (a b : Frame) : Prop :=
  a.startedAt < b.startedAt ∨ a.startedAt = b.startedAt ∧ a.frameID ≤ b.frameID

instance : DecidableRel frameLe := fun _ _ => inferInstanceAs (Decidable (_ ∨ _))

def buildPaneProjection (paneID : String) (frames : List Frame) : SessionProjection :=
  let visible := frames.filter (!claimed frames ·)
  let hidden := (frames.filter (claimed frames ·)).flatMap (·.subagents)
  -- when every frame is claimed, none is hidden
  let (visible, hidden) := if visible.isEmpty then (frames, []) else (visible, hidden)
  let sorted := visible.insertionSort frameLe
  match sorted.getLast? with
  | none => ⟨paneID, none, none, []⟩
  | some top => ⟨paneID, sorted.head?, some top, mergeHidden top.subagents hidden⟩

def projectionFrameEligibleForPane (env : Env) (frame : Frame) (panePID : Int) : Bool :=
  env.isPidAlive frame.pid &&
    match env.processStartTime frame.pid with
    | .error _ => true
    | .ok actualStart => actualStart == frame.processStartTime && env.pidAncestorIncludes frame.pid panePID

def filterPaneOwnedProjectionFrames (env : Env) (paneID : String) (frames : List Frame) : List Frame :=
  match env.panePID paneID with
  | .error _ => frames
  | .ok panePID => frames.filter (projectionFrameEligibleForPane env · panePID)

/-- The projections of the panes that have a frame left, by pane id. -/
def liveFrameProjections (env : Env) (frames : List Frame) : List SessionProjection :=
  let panes := (frames.map (·.paneID)).dedup.insertionSort (· ≤ ·)
  (panes.map fun paneID => buildPaneProjection paneID
    (filterPaneOwnedProjectionFrames env paneID (frames.filter (·.paneID = paneID)))).filter (·.topFrame.isSome)

def projectionSortGreater (candidate current : SessionProjection) : Bool :=
  match candidate.topFrame, current.topFrame with
  | none, _ => false
  | some _, none => true
  | some a, some b => if a.startedAt ≠ b.startedAt then b.startedAt < a.startedAt else b.frameID < a.frameID

def selectGreatest (projections : List SessionProjection) : Option SessionProjection :=
  projections.foldl (fun selected projection => match selected with
    | none => some projection
    | some current => if projectionSortGreater projection current then some projection else selected) none

def selectSessionProjection (env : Env) (sessionName : String) (projections : List SessionProjection) :
    Option SessionProjection :=
  selectGreatest (projections.filter fun p => env.paneSession p.paneID = sessionName)

/-- The projection of a session over these frames. -/
def projectionOf (env : Env) (sessionName : String) (frames : List Frame) : Option SessionProjection :=
  selectSessionProjection env sessionName (liveFrameProjections env frames)

/-- The projections of all sessions that have one, by session name. -/
def liveSessionProjections (env : Env) (frames : List Frame) : List (String × SessionProjection) :=
  let projections := liveFrameProjections env frames
  let names := ((projections.map fun p => env.paneSession p.paneID).filter (· ≠ "")).dedup.insertionSort (· ≤ ·)
  names.filterMap fun name => (selectSessionProjection env name projections).map (name, ·)

/-! ## The module's own state -/

/-- A detector that is armed for one session and kind; its generation names its context. -/
structure ActiveIntent where
  agentType : String
  paneID : String
  senderPID : Int
  generation : Nat
  deriving DecidableEq, Repr

/-- The module's maps; a missing key is a missing entry. -/
structure Mem where
  currentStatus : AList fun _ : String => Status
  subagents : AList fun _ : String => List SubagentRef
  activeWatchers : AList fun _ : String => String
  activeProbeIntents : AList fun _ : String × ProbeIntentKind => ActiveIntent
  probeIntentGen : Nat
  lastHookAt : AList fun _ : String => Int

def Mem.empty : Mem := ⟨∅, ∅, ∅, ∅, 0, ∅⟩

/-- The whole state: the frames table with its identity counter, the module's maps, the world. -/
structure State where
  table : Table
  identitySeq : Int
  mem : Mem
  env : Env

def syncProjectionState (m : Mem) (tmuxSession : String) (projection : Option SessionProjection) : Mem :=
  match projection with
  | some ⟨_, _, some top, subagents⟩ =>
    { m with
      currentStatus := m.currentStatus.insert tmuxSession top.status
      subagents := m.subagents.insert tmuxSession subagents }
  | _ =>
    { m with
      currentStatus := m.currentStatus.erase tmuxSession
      subagents := m.subagents.erase tmuxSession }

end Purdex.Module
