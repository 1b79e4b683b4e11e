/-
The two walks up a process's ancestry that look for the frame to fold it into: the hot path's
`classifyAncestor` and the sweep's `findCanonicalAncestor`.
-/
import Purdex.Module.Calls

namespace Purdex.Module

open Purdex.Agent Purdex.Store Conc

def proxyMaxDepth : Nat := 5

inductive AncestorVerdict where
  | root
  | sameTypeAbove
  | proxyParent
  | indeterminate
  deriving DecidableEq, Repr

structure AncestryResult where
  verdict : AncestorVerdict
  frame : Option Frame := none
  sawPanePID : Bool := false
  deriving DecidableEq, Repr

structure AncestryOpts where
  panePID : Int := 0
  checkPane : Bool := false

/-- The walk of `walkPaneAncestry` with `depth` levels left. -/
def walkFrom (paneID agentType : String) (read : Int → Quiet (Except Err ProcessInfo)) (opts : AncestryOpts) :
    Nat → Int → Bool → Code AncestryResult
  | 0, _, sawPanePID => return ⟨.indeterminate, none, sawPanePID⟩
  | depth + 1, ppid, sawPanePID => do
    let sawPanePID := sawPanePID || (opts.checkPane && ppid == opts.panePID)
    if ppid ≤ 1 then
      return ⟨.root, none, sawPanePID⟩
    let candidate ← findByPanePID paneID ppid
    match candidate, ← quiet (frameGate candidate) with
    | some candidate, .live =>
      return ⟨if candidate.agentType = agentType then .sameTypeAbove else .proxyParent, some candidate, sawPanePID⟩
    | _, .unreadable => return ⟨.indeterminate, none, sawPanePID⟩
    | _, _ =>
      -- no frame here, or a stale one: one level up
      match ← quiet (read ppid) with
      | .error _ => return ⟨.indeterminate, none, sawPanePID⟩
      | .ok info =>
        if info.ppid = ppid then
          return ⟨.indeterminate, none, sawPanePID⟩
        walkFrom paneID agentType read opts depth info.ppid sawPanePID

def walkPaneAncestry (paneID : String) (startPID : Int) (agentType : String)
    (read : Int → Quiet (Except Err ProcessInfo)) (opts : AncestryOpts) : Code AncestryResult :=
  walkFrom paneID agentType read opts proxyMaxDepth startPID false

def classifyAncestor (req : EventRequest) : Code (AncestorVerdict × Option Frame) := do
  match ← quiet (readProcessInfo req.senderPID) with
  | .error _ => return (.indeterminate, none)
  | .ok info =>
    let res ← walkPaneAncestry req.tmuxPaneID info.ppid req.agentType readProcessInfo {}
    return (res.verdict, res.frame)

def findProxyParent (req : EventRequest) : Code (Option Frame) := do
  let (verdict, parent) ← classifyAncestor req
  return if verdict = .proxyParent then parent else none

/-- The frame of a pid in the sweep's map of a pane listing: the last one listed. -/
def framesByPID (frames : List Frame) (pid : Int) : Option Frame :=
  frames.reverse.find? (·.pid = pid)

/-- The loop of `findCanonicalAncestor` with `depth` levels left. -/
def canonicalFrom (candidate : Frame) (framesByPID : Int → Option Frame) : Nat → Int → Quiet (Option Frame)
  | 0, _ => return none
  | depth + 1, ppid => do
    if ppid ≤ 1 then
      return none
    let ancestor := framesByPID ppid
    -- a frame of the same agent stops the walk before its process is looked at
    if ancestor.any (·.agentType = candidate.agentType) then
      return none
    match ancestor, ← frameGate ancestor with
    | some ancestor, .live => return some ancestor
    | _, _ =>
      match ← readProcessInfo ppid with
      | .error _ => return none
      | .ok info =>
        if info.ppid = ppid then
          return none
        canonicalFrom candidate framesByPID depth info.ppid

def findCanonicalAncestor (candidate : Frame) (framesByPID : Int → Option Frame) : Quiet (Option Frame) := do
  match ← readProcessInfo candidate.pid with
  | .error _ => return none
  | .ok info => canonicalFrom candidate framesByPID proxyMaxDepth info.ppid

end Purdex.Module
