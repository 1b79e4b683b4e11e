/-
When the hot path and the sweep name the same canonical parent: both walks read the frames along
one chain of processes, and they differ only in what makes them stop at a frame.
-/
import Purdex.Module.Ancestor
import Mathlib

namespace Purdex.Module

open Purdex.Agent Purdex.Store Conc

/-! ## The chain and its two readings -/

def Env.frameGate (env : Env) (frame : Frame) : Gate :=
  env.gate frame.pid frame.processStartTime

/-- The frames a walk meets, with `depth` levels left: up the parents until init, an unreadable
process or one that is its own parent. -/
def chainFrames (env : Env) (frameAt : Int → Option Frame) : Nat → Int → List Frame
  | 0, _ => []
  | depth + 1, ppid =>
    if ppid ≤ 1 then []
    else (frameAt ppid).toList ++ match env.processInfo ppid with
      | .error _ => []
      | .ok info => if info.ppid = ppid then [] else chainFrames env frameAt depth info.ppid

/-- The frames above a process in its pane. -/
def framesAbove (s : State) (paneID : String) (pid : Int) : List Frame :=
  match s.env.processInfo pid with
  | .error _ => []
  | .ok info => chainFrames s.env (selectByPanePID s.table paneID) proxyMaxDepth info.ppid

/-- The hot path: past stale frames, and no further than an unreadable or a live one. -/
def hotScan (env : Env) (agentType : String) : List Frame → Option Frame
  | [] => none
  | frame :: frames => match env.frameGate frame with
    | .live => if frame.agentType = agentType then none else some frame
    | .unreadable => none
    | _ => hotScan env agentType frames

/-- The sweep: no further than a frame of the same agent, and past every other one that is not live. -/
def sweepScan (env : Env) (agentType : String) : List Frame → Option Frame
  | [] => none
  | frame :: frames =>
    if frame.agentType = agentType then none
    else if env.frameGate frame = .live then some frame else sweepScan env agentType frames

/-- Neither walk folds into a stale frame: its process is dead, or the pid is another process's now. -/
def Env.Stale (env : Env) (frame : Frame) : Prop :=
  env.frameGate frame = .dead ∨ env.frameGate frame = .reused

/-- What both walks look for: a live frame of another agent. -/
def Env.Parent (env : Env) (agentType : String) (frame : Frame) : Prop :=
  frame.agentType ≠ agentType ∧ env.frameGate frame = .live

/-- Past frames with `P` there is one with `R`, which is told which frames are above it. -/
def Until (P : Frame → Prop) (R : Frame → List Frame → Prop) : List Frame → Prop
  | [] => False
  | frame :: above => R frame above ∨ P frame ∧ Until P R above

/-- Only the sweep stops here: the frame is of the same agent but stale, and the hot path goes on
past stale frames to a parent. -/
def SameAgentShield (env : Env) (agentType : String) (frame : Frame) (above : List Frame) : Prop :=
  frame.agentType = agentType ∧ env.Stale frame ∧ Until env.Stale (fun f _ => env.Parent agentType f) above

/-- Only the hot path stops here: the start time cannot be read, and the sweep goes on past frames of
other agents that are not live to a parent. -/
def UnreadableShield (env : Env) (agentType : String) (frame : Frame) (above : List Frame) : Prop :=
  frame.agentType ≠ agentType ∧ env.frameGate frame = .unreadable ∧
    Until (fun f => f.agentType ≠ agentType ∧ env.frameGate f ≠ .live) (fun f _ => env.Parent agentType f) above

/-- Behind stale frames of other agents, which stop neither walk, a frame stops one of them and
keeps it from the parent the other one finds. -/
def Shielded (env : Env) (agentType : String) : List Frame → Prop :=
  Until (fun f => f.agentType ≠ agentType ∧ env.Stale f) fun f above =>
    SameAgentShield env agentType f above ∨ UnreadableShield env agentType f above

/-! ## Each walk reads the chain -/

variable {cfg : Config} {s : State} {env : Env} {agentType : String} {frames : List Frame}

theorem eval_identityGate (pid : Int) (startTime : String) :
    (identityGate pid startTime).eval (exec cfg) s = (s.env.gate pid startTime, s) := by
  unfold Env.gate
  show Prog.eval _ (if s.env.isPidAlive pid = true then _ else _) s = _
  cases s.env.isPidAlive pid with
  | false => rfl
  | true =>
    have hread : (processStartTime pid).eval (exec cfg) s = (s.env.processStartTime pid, s) := rfl
    simp only [if_true, Prog.bind_eq, Prog.eval_bind, hread]
    cases s.env.processStartTime pid with
    | error e => rfl
    | ok a => rfl

theorem eval_frameGate (frame : Option Frame) :
    (frameGate frame).eval (exec cfg) s = ((frame.map s.env.frameGate).getD .dead, s) := by
  cases frame with
  | none => rfl
  | some f => exact eval_identityGate _ _

theorem eval_readProcessInfo (pid : Int) :
    (readProcessInfo pid).eval (exec cfg) s = (s.env.processInfo pid, s) := rfl

theorem eval_findByPanePID (h : s.env.dbFault = none) (paneID : String) (pid : Int) :
    (findByPanePID paneID pid).run.eval (exec cfg) s = (.ok (selectByPanePID s.table paneID pid), s) := by
  show (exec cfg (.findByPanePID paneID pid) s) = _
  simp only [exec, State.query, h]

/-- The frame to fold into, when the verdict is that there is one. -/
def proxyParentOf (r : AncestorVerdict × Option Frame) : Option Frame :=
  if r.1 = .proxyParent then r.2 else none

theorem proxyParentOf_eq_some {r : AncestorVerdict × Option Frame} {parent : Frame} :
    proxyParentOf r = some parent ↔ r = (.proxyParent, some parent) := by
  obtain ⟨verdict, f⟩ := r
  cases verdict <;> simp [proxyParentOf]

theorem hotScan_toList (f : Option Frame) (rest : List Frame) :
    hotScan env agentType (f.toList ++ rest) = match f, (f.map env.frameGate).getD .dead with
      | some f, .live => if f.agentType = agentType then none else some f
      | _, .unreadable => none
      | _, _ => hotScan env agentType rest := by
  cases f with
  | none => rfl
  | some f =>
    simp only [Option.toList_some, List.cons_append, List.nil_append, hotScan, Option.map_some, Option.getD_some]
    cases env.frameGate f <;> rfl

theorem sweepScan_toList (f : Option Frame) (rest : List Frame) :
    sweepScan env agentType (f.toList ++ rest) =
      if f.any (·.agentType = agentType) then none
      else match f, (f.map env.frameGate).getD .dead with
        | some f, .live => some f
        | _, _ => sweepScan env agentType rest := by
  cases f with
  | none => rfl
  | some f =>
    simp only [Option.toList_some, List.cons_append, List.nil_append, sweepScan, Option.map_some, Option.getD_some,
      Option.any_some, decide_eq_true_eq]
    split
    · rfl
    · cases env.frameGate f <;> simp

/-- The hot walk ends with the verdict and frame its reading of the chain gives. -/
theorem eval_walkFrom (h : s.env.dbFault = none) (paneID : String) : ∀ (depth : Nat) (ppid : Int) (saw : Bool),
    ∃ res, (walkFrom paneID agentType readProcessInfo {} depth ppid saw).run.eval (exec cfg) s = (.ok res, s) ∧
      proxyParentOf (res.verdict, res.frame) =
        hotScan s.env agentType (chainFrames s.env (selectByPanePID s.table paneID) depth ppid)
  | 0, ppid, saw => ⟨_, rfl, rfl⟩
  | depth + 1, ppid, saw => by
    have ih := eval_walkFrom h paneID depth
    unfold walkFrom chainFrames
    by_cases hp : ppid ≤ 1
    · simp only [hp, if_true]
      exact ⟨_, rfl, rfl⟩
    · simp only [hp, if_false]
      simp only [eval_run_bind, eval_findByPanePID h, quiet, eval_run_lift, eval_frameGate, hotScan_toList]
      cases hf : selectByPanePID s.table paneID ppid with
      | none =>
        simp only [Option.map_none, Option.getD_none, eval_run_bind, eval_run_lift, eval_readProcessInfo]
        cases s.env.processInfo ppid with
        | error e => exact ⟨_, rfl, rfl⟩
        | ok info =>
          by_cases hself : info.ppid = ppid
          · simp only [hself, if_true]
            exact ⟨_, rfl, rfl⟩
          · simp only [hself, if_false]
            exact ih info.ppid _
      | some f =>
        simp only [Option.map_some, Option.getD_some]
        cases hg : s.env.frameGate f with
        | live =>
          refine ⟨_, rfl, ?_⟩
          by_cases ht : f.agentType = agentType <;> simp [proxyParentOf, ht]
        | unreadable => exact ⟨_, rfl, rfl⟩
        | dead | reused =>
          simp only [eval_run_bind, eval_run_lift, eval_readProcessInfo]
          cases s.env.processInfo ppid with
          | error e => exact ⟨_, rfl, rfl⟩
          | ok info =>
            by_cases hself : info.ppid = ppid
            · simp only [hself, if_true]
              exact ⟨_, rfl, rfl⟩
            · simp only [hself, if_false]
              exact ih info.ppid _

/-- The sweep's walk ends with the frame its reading of the chain gives. -/
theorem eval_canonicalFrom (candidate : Frame) (frameAt : Int → Option Frame) : ∀ (depth : Nat) (ppid : Int),
    (canonicalFrom candidate frameAt depth ppid).eval (exec cfg) s =
      (sweepScan s.env candidate.agentType (chainFrames s.env frameAt depth ppid), s)
  | 0, _ => rfl
  | depth + 1, ppid => by
    have ih := eval_canonicalFrom candidate frameAt depth
    unfold canonicalFrom chainFrames
    by_cases hp : ppid ≤ 1
    · simp only [hp, if_true]
      rfl
    · simp only [hp, if_false, sweepScan_toList]
      by_cases ht : (frameAt ppid).any (·.agentType = candidate.agentType) = true
      · simp only [ht, if_true]
        rfl
      · simp only [ht, Bool.false_eq_true, if_false, Prog.bind_eq, Prog.eval_bind, eval_frameGate]
        have hclimb : (readProcessInfo ppid >>= fun x => match x with
            | .error _ => pure none
            | .ok info => if info.ppid = ppid then pure none else canonicalFrom candidate frameAt depth info.ppid).eval
              (exec cfg) s = (sweepScan s.env candidate.agentType (match s.env.processInfo ppid with
                | .error _ => []
                | .ok info => if info.ppid = ppid then [] else chainFrames s.env frameAt depth info.ppid), s) := by
          rw [Prog.bind_eq, Prog.eval_bind, eval_readProcessInfo]
          cases s.env.processInfo ppid with
          | error e => rfl
          | ok info =>
            by_cases hself : info.ppid = ppid
            · simp only [hself, if_true]
              rfl
            · simp only [hself, if_false]
              exact ih info.ppid
        cases hf : frameAt ppid with
        | none => exact hclimb
        | some f =>
          simp only [Option.map_some, Option.getD_some]
          cases hg : s.env.frameGate f with
          | live => rfl
          | unreadable | dead | reused => exact hclimb

/-! ## When the two readings agree -/

theorem hotScan_eq_none : ∀ frames : List Frame,
    hotScan env agentType frames = none ↔ ¬ Until env.Stale (fun f _ => env.Parent agentType f) frames
  | [] => by simp [hotScan, Until]
  | frame :: above => by
    have ih := hotScan_eq_none above
    unfold hotScan Until
    cases hg : env.frameGate frame <;> simp [Env.Stale, Env.Parent, hg, ih]

theorem sweepScan_eq_none : ∀ frames : List Frame, sweepScan env agentType frames = none ↔
    ¬ Until (fun f => f.agentType ≠ agentType ∧ env.frameGate f ≠ .live) (fun f _ => env.Parent agentType f) frames
  | [] => by simp [sweepScan, Until]
  | frame :: above => by
    have ih := sweepScan_eq_none above
    unfold sweepScan Until
    by_cases ht : frame.agentType = agentType
    · simp [Env.Parent, ht]
    · by_cases hg : env.frameGate frame = .live <;> simp [Env.Parent, ht, hg, ih]

/-- The two readings of a chain give the same frame exactly when nothing on it is a shield. -/
theorem scan_agree_iff : ∀ frames : List Frame,
    sweepScan env agentType frames = hotScan env agentType frames ↔ ¬ Shielded env agentType frames
  | [] => by simp [sweepScan, hotScan, Shielded, Until]
  | frame :: above => by
    have ih := scan_agree_iff above
    have hhot : hotScan env agentType above = none ↔ _ := hotScan_eq_none above
    have hsweep : sweepScan env agentType above = none ↔ _ := sweepScan_eq_none above
    unfold Shielded Until sweepScan hotScan
    by_cases ht : frame.agentType = agentType
    · -- the sweep stops, so the hot path has to find nothing either
      cases hg : env.frameGate frame with
      | dead | reused => simp [ht, hg, SameAgentShield, UnreadableShield, Env.Stale, eq_comm (a := none), hhot]
      | live | unreadable => simp [ht, hg, SameAgentShield, UnreadableShield, Env.Stale]
    · cases hg : env.frameGate frame with
      | dead | reused => simpa [ht, hg, SameAgentShield, UnreadableShield, Env.Stale, Shielded] using ih
      | live => simp [ht, hg, SameAgentShield, UnreadableShield, Env.Stale]
      | unreadable => simpa [ht, hg, SameAgentShield, UnreadableShield, Env.Stale] using hsweep

/-! ## One listing of the pane -/

section Pane

variable {t : Table} {paneID : String} {pid : Int}

/-- With one frame per pid the sweep's map answers as the store does. -/
theorem framesByPID_selectByPane
    (hone : ∀ f ∈ selectByPane t paneID, ∀ g ∈ selectByPane t paneID, f.pid = g.pid → f = g) :
    framesByPID (selectByPane t paneID) = selectByPanePID t paneID := by
  funext pid
  cases hsel : selectByPanePID t paneID pid with
  | none =>
    have hno := selectByPanePID_none hsel
    simpa [framesByPID] using hno
  | some f =>
    obtain ⟨hf, hpid⟩ := selectByPanePID_some hsel
    cases hmap : framesByPID (selectByPane t paneID) pid with
    | none => exact absurd hpid (by simpa using List.find?_eq_none.1 hmap f (List.mem_reverse.2 hf))
    | some g =>
      have hg : g ∈ selectByPane t paneID := List.mem_reverse.1 (List.mem_of_find?_eq_some hmap)
      have hgpid : g.pid = pid := by simpa using List.find?_some hmap
      exact congrArg some (hone g hg f hf (hgpid.trans hpid.symm))

end Pane

/-! ## The two paths -/

/-- A hook of the process a frame stands for. -/
def EventRequest.FromProcessOf (req : EventRequest) (frame : Frame) : Prop :=
  req.tmuxPaneID = frame.paneID ∧ req.agentType = frame.agentType ∧
    req.senderPID = frame.pid ∧ req.senderStartTime = frame.processStartTime

/-- The sweep names a parent for the candidate exactly when the hot path does, and the same one. -/
def SameParent (cfg : Config) (s : State) (candidate : Frame) (req : EventRequest) : Prop :=
  ∀ parent, ((findCanonicalAncestor candidate (framesByPID (selectByPane s.table candidate.paneID))).eval
      (exec cfg) s).1 = some parent ↔
    ((classifyAncestor req).run.eval (exec cfg) s).1 = .ok (.proxyParent, some parent)

theorem eval_findCanonicalAncestor (candidate : Frame) (frameAt : Int → Option Frame) :
    ((findCanonicalAncestor candidate frameAt).eval (exec cfg) s).1 =
      match s.env.processInfo candidate.pid with
      | .error _ => none
      | .ok info => sweepScan s.env candidate.agentType (chainFrames s.env frameAt proxyMaxDepth info.ppid) := by
  unfold findCanonicalAncestor
  rw [Prog.bind_eq, Prog.eval_bind, eval_readProcessInfo]
  cases s.env.processInfo candidate.pid with
  | error e => rfl
  | ok info => exact congrArg Prod.fst (eval_canonicalFrom candidate frameAt proxyMaxDepth info.ppid)

theorem eval_classifyAncestor (hdb : s.env.dbFault = none) (req : EventRequest) :
    ∃ res, ((classifyAncestor req).run.eval (exec cfg) s).1 = .ok res ∧
      proxyParentOf res = hotScan s.env req.agentType (framesAbove s req.tmuxPaneID req.senderPID) := by
  unfold classifyAncestor framesAbove
  simp only [eval_run_bind, quiet, eval_run_lift, eval_readProcessInfo]
  cases s.env.processInfo req.senderPID with
  | error e => exact ⟨_, rfl, rfl⟩
  | ok info =>
    obtain ⟨res, hres, hscan⟩ : ∃ res, (walkFrom req.tmuxPaneID req.agentType readProcessInfo {} proxyMaxDepth
        info.ppid false).run.eval (exec cfg) s = (.ok res, s) ∧ _ := eval_walkFrom hdb _ _ _ _
    refine ⟨(res.verdict, res.frame), ?_, hscan⟩
    simp only [walkPaneAncestry, eval_run_bind, hres, eval_run_pure]

/-- The sweep folds a candidate into the parent its own hooks would be folded into, exactly when no
frame above it shields a parent from one of the two walks. -/
theorem same_parent_iff (cfg : Config) (s : State) (candidate : Frame) (req : EventRequest)
    (hdb : s.env.dbFault = none) (hreq : req.FromProcessOf candidate)
    (hone : ∀ f ∈ selectByPane s.table candidate.paneID, ∀ g ∈ selectByPane s.table candidate.paneID,
      f.pid = g.pid → f = g) :
    SameParent cfg s candidate req ↔
      ¬ Shielded s.env candidate.agentType (framesAbove s candidate.paneID candidate.pid) := by
  obtain ⟨hpane, hagent, hpid, -⟩ := hreq
  obtain ⟨⟨verdict, parent⟩, hres, hhot⟩ := eval_classifyAncestor hdb req
  rw [hpane, hagent, hpid] at hhot
  have hsweep : ((findCanonicalAncestor candidate (framesByPID (selectByPane s.table candidate.paneID))).eval
      (exec cfg) s).1 = sweepScan s.env candidate.agentType (framesAbove s candidate.paneID candidate.pid) := by
    rw [eval_findCanonicalAncestor, framesByPID_selectByPane hone, framesAbove]
    cases s.env.processInfo candidate.pid <;> rfl
  rw [← scan_agree_iff, ← hhot, Option.ext_iff, SameParent, hsweep, hres]
  refine forall_congr' fun parent => iff_congr Iff.rfl ?_
  rw [Except.ok.injEq]
  exact proxyParentOf_eq_some.symm

/-! A codex under a leftover codex frame, whose pid another process has taken, under a live claude. -/

def paneFrame (frameID agentType : String) (pid startedAt : Int) : Frame where
  frameID := frameID
  paneID := "%1"
  agentType := agentType
  pid := pid
  ppid := 1
  processStartTime := "t0"
  parentFrameID := ""
  subagents := []
  status := .running
  startedAt := startedAt
  lastSeenAt := startedAt
  verified := true
  sessionID := ""
  cwd := ""

def claudeFrame : Frame := paneFrame "f1" "cc" 10 1

def leftoverFrame : Frame := paneFrame "f2" "codex" 20 2

def codexFrame : Frame := paneFrame "f3" "codex" 30 3

def paneTable (frames : List Frame) (ids : (frames.map (·.frameID)).Nodup)
    (idents : (frames.map (·.ident)).Nodup) : Table where
  rows := frames.map fun f => { f with identitySeq := 0 }
  ids := by rw [List.map_map]; exact ids
  idents := by rw [List.map_map]; exact idents

/-- Every process is alive, only the start time of pid 20 has changed, and each pid is the child of
the one ten below it. -/
def recycledEnv : Env where
  isPidAlive := fun _ => true
  processStartTime := fun pid => .ok (if pid = 20 then "t1" else "t0")
  processInfo := fun pid => .ok ⟨pid - 10⟩
  pidAncestorIncludes := fun _ _ => false
  aliveAgentInTree := fun _ => .ok ""
  panePID := fun _ => .ok 1
  paneSession := fun _ => "s"
  paneCode := fun _ => "c"
  verifies := fun _ => true
  shellPrompt := fun _ => false
  clock := 0
  uuid := ""
  signal := fun _ => none
  canceled := fun _ => false
  dbFault := none

def recycledPane : State where
  table := paneTable [claudeFrame, leftoverFrame, codexFrame] (by decide) (by decide)
  identitySeq := 0
  mem := Mem.empty
  env := recycledEnv

def codexHook : EventRequest where
  tmuxSession := "s"
  tmuxPaneID := "%1"
  purdexName := "PdxPreToolUse"
  rawEvent := ""
  agentType := "codex"
  senderPID := 30
  senderStartTime := "t0"
  senderUncertain := false

def noProviders : Config where
  registry := fun _ => none
  parseCodexTurnID := fun _ => ""
  extractDelegationHint := fun _ _ => none
  supportedKinds := fun _ => false

/-- The hypotheses can be met, by the pane without its leftover frame. -/
theorem same_parent_plain_pane :
    SameParent noProviders { recycledPane with table := paneTable [claudeFrame, codexFrame] (by decide) (by decide) }
        codexFrame codexHook ↔
      ¬ Shielded recycledEnv "codex"
        (framesAbove { recycledPane with table := paneTable [claudeFrame, codexFrame] (by decide) (by decide) } "%1" 30) :=
  same_parent_iff noProviders _ codexFrame codexHook rfl ⟨rfl, rfl, rfl, rfl⟩ (by decide)

/-- The leftover frame of the same agent stops the sweep's walk; the codex's own hook walks past it,
since its process is gone, and finds the claude. -/
theorem sweep_misses_parent : ¬ ∀ (cfg : Config) (s : State) (candidate : Frame) (req : EventRequest),
    s.env.dbFault = none → candidate ∈ selectByPane s.table candidate.paneID →
    s.env.frameGate candidate = .live → req.FromProcessOf candidate →
    (∀ f ∈ selectByPane s.table candidate.paneID, ∀ g ∈ selectByPane s.table candidate.paneID,
      f.pid = g.pid → f = g) →
    SameParent cfg s candidate req := by
  intro h
  have hsame := h noProviders recycledPane codexFrame codexHook rfl (by decide) (by decide) ⟨rfl, rfl, rfl, rfl⟩
    (by decide)
  have hhook : ((classifyAncestor codexHook).run.eval (exec noProviders) recycledPane).1 =
      .ok (.proxyParent, some claudeFrame) := rfl
  have hsweep : ((findCanonicalAncestor codexFrame (framesByPID (selectByPane recycledPane.table "%1"))).eval
      (exec noProviders) recycledPane).1 = none := rfl
  cases hsweep.symm.trans ((hsame claudeFrame).2 hhook)

end Purdex.Module
