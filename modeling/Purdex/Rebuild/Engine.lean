/-
The rebuild of a pane: create, resume and re-point in a row, and what one run may do to the pane and the
cached sessions however the tabs and the hosts change while it waits.
-/
import Purdex.Rebuild.State

namespace Purdex.Rebuild

open Conc Json Panes

/-! ## Refusals -/

/-- `name`, `name-2`, … `name-5`. -/
def CREATE_ATTEMPT_CAP : Nat := 5

def paneOwner (paneId : String) : String := s!"rebuild:{paneId}"

def PaneBusy (paneId : String) (w : World) : Prop := (w.operation paneId).map (·.status) = some .running

instance (paneId : String) (w : World) : Decidable (PaneBusy paneId w) := inferInstanceAs (Decidable (_ = _))

/-- The step that the report of a refusal fails. -/
inductive RefusedStep where
  | create
  | resume
  deriving Repr, DecidableEq

def refusedReport (hostId : String) (step : RefusedStep) (reason : String) : RebuildReport where
  hostId := hostId
  created := none
  steps := match step with
    | .create => ⟨failed reason, skipped none, skipped none⟩
    | .resume => ⟨skipped none, failed reason, skipped none⟩
  repointed := false

/-- An entry that runs, or that a retry hangs off, is not traded for a reason. -/
def RebuildOperation.Kept (op : RebuildOperation) : Prop := op.status = .running ∨ op.createdSession.isSome

instance (op : RebuildOperation) : Decidable op.Kept := inferInstanceAs (Decidable (_ ∨ _))

/-- The operation of a refusal, under what the pane holds now. -/
def refusalOperation (hostId tabId paneId : String) (plan : RebuildPlan) (report : RebuildReport) (w : World) : RebuildOperation :=
  let content := w.readTerminalPane tabId paneId
  { paneId, tabId, hostId, plan
    binding := (content.map (·.binding)).getD ⟨hostId, "", ""⟩
    host := none
    resumeCommand := resolveResumeCommand (content.bind (·.rebuild)) (liveResumeTemplates w)
    createdSession := none
    status := .running
    report }

def publishRefusal (hostId tabId paneId : String) (plan : RebuildPlan) (report : RebuildReport) : RebuildM RebuildReport := do
  let w ← Async.read
  if ∃ existing ∈ w.operation paneId, existing.Kept then pure report
  else do
    Async.modify fun w => w.beginOperation (refusalOperation hostId tabId paneId plan report w)
    Async.modify fun w => w.finishOperation paneId fun op => { op with report }
    pure report

/-! ## Steps -/

def isDuplicateName (err : ApiError) : Prop := err.status = some 409

instance (err : ApiError) : Decidable (isDuplicateName err) := inferInstanceAs (Decidable (_ = _))

def isGenerationConflict (err : ApiError) : Prop := err.status = some 409

instance (err : ApiError) : Decidable (isGenerationConflict err) := inferInstanceAs (Decidable (_ = _))

/-- `pinned.assertUnchanged()` before the request itself. -/
def unlessChanged {α : Type} (pinned : PinnedTransport) (send : RebuildM (Except ApiError α)) : RebuildM (Except ApiError α) := do
  let w ← Async.read
  if HostUnchanged pinned w then send else pure (.error pinned.changed)

def attemptName (baseName : String) (attempt : Nat) : String := if attempt = 1 then baseName else s!"{baseName}-{attempt}"

/-- The given attempt and up to `left` more, each after a duplicate name. -/
def createFrom (pinned : PinnedTransport) (baseName cwd : String) : Nat → Nat → RebuildM (Except ApiError Session)
  | attempt, 0 => unlessChanged pinned (pinned.createSession (attemptName baseName attempt) cwd "terminal")
  | attempt, left + 1 => do
    let outcome ← unlessChanged pinned (pinned.createSession (attemptName baseName attempt) cwd "terminal")
    match outcome with
    | .ok created => pure (.ok created)
    | .error err => if isDuplicateName err then createFrom pinned baseName cwd (attempt + 1) left else pure (.error err)

/-- What the resume and the re-point need, however they were reached. -/
structure StepContext where
  tabId : String
  paneId : String
  pinned : PinnedTransport
  binding : SessionBinding
  resumeCommand : String
  created : Option Session
  fallbackCode : String
  report : RebuildReport

namespace StepContext

variable (ctx : StepContext)

/-- The session that the resume is for. -/
def code : String :=
  match ctx.created with
  | some created => created.code
  | none => ctx.fallbackCode

/-- The generation that the resume is authorised against. -/
def expectedTmuxInstance : String :=
  match ctx.created with
  | some created => created.generation
  | none => ctx.binding.tmuxInstance

def unauthorised : String :=
  match ctx.created with
  | some _ => s!"the daemon did not report a tmux generation for the session it created ({ctx.code}), so the resume cannot be authorised"
  | none => s!"pane {ctx.paneId} records no tmux generation, so the resume cannot be authorised"

end StepContext

namespace RebuildReport

def withCreate (report : RebuildReport) (step : StepResult) : RebuildReport :=
  { report with steps := { report.steps with create := step } }

def withResume (report : RebuildReport) (step : StepResult) : RebuildReport :=
  { report with steps := { report.steps with resume := step } }

def withRepoint (report : RebuildReport) (step : StepResult) : RebuildReport :=
  { report with steps := { report.steps with repoint := step } }

end RebuildReport

def runResumeStep (ctx : StepContext) (enabled : Bool) : RebuildM RebuildReport :=
  if enabled = false then pure (ctx.report.withResume (skipped (some "not requested")))
  else if ctx.resumeCommand = "" then pure (ctx.report.withResume (skipped (some "no resume command recorded")))
  else if ctx.expectedTmuxInstance = "" then pure (ctx.report.withResume (failed ctx.unauthorised))
  else do
    let outcome ← unlessChanged ctx.pinned (ctx.pinned.sendKeys ctx.code ctx.resumeCommand ctx.expectedTmuxInstance)
    match outcome with
    | .ok () => pure (ctx.report.withResume .ok)
    | .error err =>
      pure (ctx.report.withResume { failed err.message with refusal := if isGenerationConflict err then some .generation else none })

def runRepointStep (ctx : StepContext) : RebuildM RebuildReport :=
  if ctx.report.steps.resume.status = .failed then pure (ctx.report.withRepoint (skipped (some "resume failed")))
  else match ctx.created with
    | none => pure (ctx.report.withRepoint (skipped (some "nothing was created")))
    | some created => do
      let w ← Async.read
      if ¬HostUnchanged ctx.pinned w then pure (ctx.report.withRepoint (failed ctx.pinned.changed.message))
      else if ¬w.BindingUnchanged ctx.tabId ctx.paneId ctx.binding then
        pure (ctx.report.withRepoint (skipped (some "the pane binding changed")))
      else do
        Async.modify (defaultRepoint ctx.tabId ctx.paneId created)
        pure { ctx.report.withRepoint .ok with repointed := true }

def publish (paneId : String) (report : RebuildReport) (created : Option Session) : RebuildM Unit :=
  Async.modify fun w => w.finishOperation paneId fun op => { op with report, createdSession := created }

/-- The resume, then the re-point. -/
def runSteps (ctx : StepContext) (runResume : Bool) : RebuildM RebuildReport := do
  let resumed ← runResumeStep ctx runResume
  await .turn
  let report ← runRepointStep { ctx with report := resumed }
  publish ctx.paneId report ctx.created
  pure report

/-- The create, where it is planned, and the steps after it. -/
def runOperation (ctx : StepContext) (plan : RebuildPlan) (baseName cwd : String) : RebuildM RebuildReport :=
  if plan.createSession = false then
    runSteps { ctx with report := ctx.report.withCreate (skipped (some "not requested")) } plan.runResume
  else do
    let outcome ← createFrom ctx.pinned baseName cwd 1 (CREATE_ATTEMPT_CAP - 1)
    match outcome with
    | .error err => do
      let report := ctx.report.withCreate (failed err.message)
      publish ctx.paneId report none
      pure report
    | .ok created =>
      let report := { ctx.report.withCreate .ok with created := some created.summary }
      runSteps { ctx with created := some created, report } plan.runResume

/-! ## A run -/

def withOperationLock {α : Type} (owner : String) (body : RebuildM α) (onRefused : String → RebuildM α)
    (parent : Option OperationLockGrant) : RebuildM α := do
  let w ← Async.read
  match acquireOperationLock owner parent w.lock with
  | (none, _) => onRefused (w.lock.lockedBy.getD "")
  | (some grant, lock) => do
    Async.modify fun w => { w with lock }
    let a ← body
    await .turn
    Async.modify fun w => { w with lock := releaseOperationLock (some grant) w.lock }
    pure a

def generationText (tmuxInstance : String) : String := if tmuxInstance = "" then "unknown" else tmuxInstance

/-- The pane as the rebuild finds it, under a host that is configured and the binding it was planned from. -/
def rebuildTarget (hostId tabId paneId : String) (expectedBinding : Option SessionBinding) (w : World) :
    Except String (HostIdentity × TmuxSessionContent) :=
  match pinHost hostId none w with
  | .error err => .error err.message
  | .ok pinned =>
    match w.readTerminalPane tabId paneId with
    | none => .error s!"pane {paneId} is no longer a terminal pane on {hostId}"
    | some content =>
      if content.hostId ≠ hostId then .error s!"pane {paneId} is no longer a terminal pane on {hostId}"
      else if ∀ want ∈ expectedBinding, bindingEquals content.binding want then .ok (pinned, content)
      else
        let want := expectedBinding.getD content.binding
        .error s!"pane {paneId} no longer holds the binding this operation planned from ({want.sessionCode}@{generationText want.tmuxInstance} → {content.sessionCode}@{generationText content.tmuxInstance})"

def runRebuild (hostId tabId paneId : String) (plan : RebuildPlan) (expectedBinding : Option SessionBinding) : RebuildM RebuildReport := do
  let w ← Async.read
  let report : RebuildReport := ⟨hostId, none, ⟨skipped none, skipped none, skipped none⟩, false⟩
  match rebuildTarget hostId tabId paneId expectedBinding w with
  | .error message => publishRefusal hostId tabId paneId plan (report.withCreate (failed message))
  | .ok (identity, content) => do
    let binding : SessionBinding := ⟨hostId, content.sessionCode, content.tmuxInstance⟩
    let baseName := orElse ((content.rebuild.map (·.sessionName)).getD "") content.cachedName
    let resumeCommand := resolveResumeCommand content.rebuild (liveResumeTemplates w)
    let cwd := if plan.applyCwd then (content.rebuild.bind (·.cwd)).getD "" else ""
    Async.modify fun w => w.beginOperation
      { paneId, tabId, hostId, plan, binding, host := some identity, resumeCommand, createdSession := none, status := .running, report }
    runOperation
      { tabId, paneId, pinned := ⟨hostId, identity⟩, binding, resumeCommand, created := none, fallbackCode := content.sessionCode, report }
      plan baseName cwd

/-- A caller that holds the lock hands in its grant, and the binding it planned from. -/
def rebuildPane (hostId tabId paneId : String) (plan : RebuildPlan) (lockGrant : Option OperationLockGrant)
    (expectedBinding : Option SessionBinding) : RebuildM RebuildReport := do
  let refuse (reason : String) := publishRefusal hostId tabId paneId plan (refusedReport hostId .create reason)
  let held (holder : String) := refuse (match lockGrant with
    | some borrowed => s!"the caller's operation lock ({borrowed.owner}) is no longer held"
    | none => s!"another operation is already running ({holder})")
  let w ← Async.read
  if PaneBusy paneId w then refuse s!"a rebuild is already running for pane {paneId}"
  else withOperationLock (paneOwner paneId) (runRebuild hostId tabId paneId plan expectedBinding) held lockGrant

/-- The call ends before its operation begins. -/
def RebuildRefused (hostId tabId paneId : String) (lockGrant : Option OperationLockGrant) (expectedBinding : Option SessionBinding)
    (w : World) : Prop :=
  PaneBusy paneId w ∨ (acquireOperationLock (paneOwner paneId) lockGrant w.lock).1 = none ∨
    ¬(rebuildTarget hostId tabId paneId expectedBinding w).isOk

instance (hostId tabId paneId : String) (lockGrant : Option OperationLockGrant) (expectedBinding : Option SessionBinding) (w : World) :
    Decidable (RebuildRefused hostId tabId paneId lockGrant expectedBinding w) := inferInstanceAs (Decidable (_ ∨ _ ∨ _))

end Purdex.Rebuild
