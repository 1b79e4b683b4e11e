/-
The writes to a frame's row under optimistic concurrency: one retry loop, each caller with its own
edit of the list; and the folds of a frame into an ancestor's row.
-/
import Purdex.Module.Ancestor

namespace Purdex.Module

open Purdex.Agent Purdex.Store Conc

/-! ## The retry loop -/

def proxyUpsertMaxAttempts : Nat := 3

/-- How a retry loop ends without an error: the edit is stored, the edit found nothing to do, or
the row is gone. -/
inductive CasOutcome where
  | stored (frame : Frame)
  | declined
  | missing

/-- Edit the frame held, write it if its row is unchanged, reload on a conflict. -/
def casRetry (i : Ident) (edit : Frame → Quiet (Option Frame)) (exceeded : Frame → String) :
    Nat → Frame → Code CasOutcome
  | 0, current => throw (.exceeded (exceeded current))
  | attempts + 1, current => do
    match ← quiet (edit current) with
    | none => return .declined
    | some next =>
      match ← upsertIfUnchanged next current.lastSeenAt with
      | some stored => return .stored stored
      | none =>
        match ← getByIdentity i with
        | none => return .missing
        | some reloaded => casRetry i edit exceeded attempts reloaded

/-- A frame with another list, seen at `ts`. -/
def withSubagents (frame : Frame) (subagents : List SubagentRef) (ts : Int) : Frame :=
  { frame with subagents, lastSeenAt := ts }

/-! ## Its callers -/

def lifecycleText : LifecycleEventKind → String
  | .none => "None"
  | .sessionStart => "SessionStart"
  | .userPromptSubmit => "UserPromptSubmit"
  | .stop => "Stop"
  | .stopFailure => "StopFailure"
  | .sessionEnd => "SessionEnd"
  | .subagentStart => "SubagentStart"
  | .subagentStop => "SubagentStop"

def mutateSubagentsWithRetry (frame : Frame) (lifecycle : LifecycleEventKind) (ref : SubagentRef)
    (broadcastTs : Int) : Code CasOutcome :=
  casRetry frame.ident
    (fun current => pure (withSubagents current (updateSubagents current.subagents lifecycle ref) broadcastTs))
    (fun _ => s!"subagent mutation {lifecycleText lifecycle}: exceeded {proxyUpsertMaxAttempts} retries for frame {frame.frameID}")
    proxyUpsertMaxAttempts frame

def attachProxyRefWithRetry (parent : Frame) (ref : SubagentRef) (broadcastTs : Int) : Code CasOutcome :=
  mutateSubagentsWithRetry parent .subagentStart ref broadcastTs

/-! ## Folding a frame into an ancestor -/

/-- Native refs and proxy refs that may be live are state a fold must not lose. -/
def ownedState : List SubagentRef → Quiet Bool
  | [] => return false
  | ref :: refs => do
    if !ref.isProxy then
      return true
    match ← identityGate ref.sourcePID ref.sourceStartTime with
    | .live | .unreadable => return true
    | .dead | .reused => ownedState refs

def candidateHasOwnedState (candidate : Frame) : Quiet Bool :=
  ownedState candidate.subagents

/-- The walk of `pidIsAncestorOfWithCap` with `depth` levels left. -/
def ancestorWithin (ancestorPID : Int) : Nat → Int → Quiet Bool
  | 0, _ => return false
  | depth + 1, current => do
    match ← readProcessInfo current with
    | .error _ => return false
    | .ok info =>
      if info.ppid = ancestorPID then
        return true
      else if info.ppid ≤ 1 ∨ info.ppid = current then
        return false
      else ancestorWithin ancestorPID depth info.ppid

def pidIsAncestorOfWithCap (descendantPID ancestorPID : Int) (maxDepth : Nat) : Quiet Bool :=
  ancestorWithin ancestorPID maxDepth descendantPID

/-- The proxy ref a frame is folded into. -/
def asProxy (frame : Frame) (broadcastTs : Int) : SubagentRef :=
  proxyRef frame.agentType frame.pid frame.processStartTime broadcastTs

/-- Whether a frame of the pane is to be folded into `current`: a live standalone descendant of
another agent that owns nothing. -/
def isFoldable (current candidate : Frame) : Quiet Bool := do
  if candidate.frameID = current.frameID ∨ candidate.agentType = current.agentType then
    return false
  else if !(← pidIsAncestorOfWithCap candidate.pid current.pid proxyMaxDepth) then
    return false
  else if ← candidateHasOwnedState candidate then
    return false
  else return (← frameGate (some candidate)) = .live

/-- Fold the frames of a listing one after the other, holding the row as last stored. -/
def foldDescendants (broadcastTs : Int) : List Frame → Frame → Code Frame
  | [], current => return current
  | candidate :: candidates, current => do
    if ← quiet (isFoldable current candidate) then
      match ← attachProxyRefWithRetry current (asProxy candidate broadcastTs) broadcastTs with
      | .stored parentStored =>
        let _ ← deleteIfUnchanged candidate.frameID candidate.lastSeenAt
        foldDescendants broadcastTs candidates parentStored
      | _ => return current
    else foldDescendants broadcastTs candidates current

def canonicalizeDescendantsAfterUpsert (self : Frame) (broadcastTs : Int) : Code Frame := do
  let frames ← listByPane self.paneID
  foldDescendants broadcastTs frames self

end Purdex.Module
