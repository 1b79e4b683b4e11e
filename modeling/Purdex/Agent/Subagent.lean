/-
The Subagents list of a frame: its entries, the three ways of telling two entries apart, and
the list each kind of write computes from the list it read.
-/
import Mathlib.Data.List.Basic
import Mathlib.Data.List.Infix

namespace Purdex.Agent

/-- The normalized agent status; `unset` is the empty string of an event that carries none. -/
inductive Status where
  | unset
  | running
  | waiting
  | idle
  | error
  | clear
  deriving DecidableEq, Repr

inductive LifecycleEventKind where
  | none
  | sessionStart
  | userPromptSubmit
  | stop
  | stopFailure
  | sessionEnd
  | subagentStart
  | subagentStop
  deriving DecidableEq, Repr

structure SubagentRef where
  id : String
  type : String
  startedAt : Int
  sourcePID : Int := 0
  sourceStartTime : String := ""
  isProxy : Bool := false
  sourceTurnID : String := ""
  delegating : Bool := false
  delegatingToolUseIDs : List String := []
  deriving DecidableEq, Repr

/-! ## The references the code builds -/

/-- The native ref of a SubagentStart or SubagentStop event. -/
def nativeRef (agentID agentType : String) (broadcastTs : Int) : SubagentRef :=
  { id := agentID, type := agentType, startedAt := broadcastTs }

/-- The ref that stands for a whole process folded into an ancestor's frame. -/
def proxyRef (agentType : String) (pid : Int) (startTime : String) (broadcastTs : Int) : SubagentRef where
  id := s!"proxy:{agentType}:{pid}:{startTime}"
  type := agentType
  startedAt := broadcastTs
  sourcePID := pid
  sourceStartTime := startTime
  isProxy := true

/-! ## Which refs are the same subagent -/

def subagentRefMatches (a b : SubagentRef) : Bool :=
  if a.isProxy != b.isProxy then false
  else if a.isProxy then
    if a.sourcePID != b.sourcePID || a.sourceStartTime != b.sourceStartTime then false
    -- an unset turn on either side falls back to the process
    else if a.sourceTurnID == "" || b.sourceTurnID == "" then true
    else a.sourceTurnID == b.sourceTurnID
  else a.id == b.id

/-- A proxy ref of this broker process, whatever its turn. -/
def isBrokerRef (pid : Int) (startTime : String) (ref : SubagentRef) : Bool :=
  ref.isProxy && ref.sourcePID == pid && ref.sourceStartTime == startTime

def subagentsContainProxySender (refs : List SubagentRef) (pid : Int) (startTime : String) : Bool :=
  refs.any (isBrokerRef pid startTime)

/-! ## The list a write computes -/

def updateSubagents (current : List SubagentRef) (lifecycle : LifecycleEventKind) (ref : SubagentRef) :
    List SubagentRef :=
  match lifecycle with
  | .subagentStart => if current.any (subagentRefMatches · ref) then current else current ++ [ref]
  | .subagentStop => current.filter fun existing => !subagentRefMatches existing ref
  | _ => current

/-- The identity of a native ref in the baseline of a SessionStart. -/
structure NativeBaselineKey where
  typ : String
  id : String
  startedAt : Int
  deriving DecidableEq, Repr

/-! ## Small facts -/

end Purdex.Agent
