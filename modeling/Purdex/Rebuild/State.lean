/-
What a rebuild reads and writes: the tabs, the hosts, the cached sessions, the operations by pane and the lock;
and the daemon requests it waits for.
-/
import Purdex.Conc.Async
import Purdex.Panes.Record
import Purdex.Panes.Tree
import Purdex.Rebuild.Lock

namespace Purdex.Rebuild

open Conc Json Panes

/-! ## Data -/

/-- The address an operation is pinned to; the hosts are kept by these. -/
structure HostIdentity where
  ip : String
  port : Nat
  token : Option String
  deriving Repr, DecidableEq

structure Session where
  code : String
  name : String
  tmuxInstance : Option String
  deriving Repr, DecidableEq

/-- `session.tmux_instance ?? ''`. -/
def Session.generation (session : Session) : String := session.tmuxInstance.getD ""

structure RebuildPlan where
  createSession : Bool
  applyCwd : Bool
  runResume : Bool
  deriving Repr, DecidableEq

inductive StepStatus where
  | ok
  | skipped
  | failed
  deriving Repr, DecidableEq

inductive Refusal where
  | generation
  deriving Repr, DecidableEq

structure StepResult where
  status : StepStatus
  error : Option String
  refusal : Option Refusal
  deriving Repr, DecidableEq

def StepResult.ok : StepResult := ⟨.ok, none, none⟩

def skipped (error : Option String) : StepResult := ⟨.skipped, error, none⟩

def failed (message : String) : StepResult := ⟨.failed, some message, none⟩

structure CreatedSession where
  code : String
  name : String
  tmuxInstance : String
  deriving Repr, DecidableEq

def Session.summary (session : Session) : CreatedSession := ⟨session.code, session.name, session.generation⟩

structure Steps where
  create : StepResult
  resume : StepResult
  repoint : StepResult
  deriving Repr, DecidableEq

structure RebuildReport where
  hostId : String
  created : Option CreatedSession
  steps : Steps
  repointed : Bool
  deriving Repr, DecidableEq

inductive OperationStatus where
  | running
  | done
  deriving Repr, DecidableEq

structure RebuildOperation where
  paneId : String
  tabId : String
  hostId : String
  plan : RebuildPlan
  binding : SessionBinding
  host : Option HostIdentity
  resumeCommand : String
  createdSession : Option Session
  status : OperationStatus
  report : RebuildReport
  deriving Repr, DecidableEq

structure ResumeTemplatePair where
  exact : String
  fallback : String
  deriving Repr, DecidableEq

/-- The stores. -/
structure World where
  tabs : Tabs
  hosts : Record HostIdentity
  sessions : Record (List Session)
  operations : Record RebuildOperation
  lock : OperationLock
  agents : Record ResumeTemplatePair

/-! ## Requests -/

/-- An answer, a status that is not ok, or none that could be read. -/
inductive Response (α : Type) where
  | ok (body : α)
  | status (status : Nat) (statusText : String)
  | rejected (message : String)
  deriving Repr, DecidableEq

def Response.isOk {α : Type} : Response α → Bool
  | .ok _ => true
  | _ => false

/-- A request goes to the address of the pinned host; `turn` is an `await` of what is already there. -/
inductive Request where
  | create (host : HostIdentity) (name cwd mode : String)
  | getSession (host : HostIdentity) (code : String)
  | sendKeys (host : HostIdentity) (code keys expected : String)
  | turn
  deriving Repr, DecidableEq

abbrev Daemon : Iface where
  Op := Request
  Res
    | .create .. => Response Session
    | .getSession .. => Response Session
    | .sendKeys .. => Response Unit
    | .turn => Unit

abbrev RebuildM (α : Type) := Async Daemon World α

abbrev Step := Turn Daemon World

def await (o : Request) : RebuildM (Daemon.Res o) := Async.request (I := Daemon) o

/-- What was thrown; an HTTP error has a status. -/
structure ApiError where
  status : Option Nat
  message : String
  deriving Repr, DecidableEq

def HostApiError (status : Nat) (statusText : String) : ApiError := ⟨some status, s!"{status} {statusText}"⟩

def GenerationConflictError (sessionCode expected : String) : ApiError :=
  ⟨some 409, s!"session {sessionCode} no longer belongs to tmux generation {expected}"⟩

/-! ## The pinned transport -/

def sameIdentity (a b : HostIdentity) : Prop := a.ip = b.ip ∧ a.port = b.port ∧ a.token = b.token

instance (a b : HostIdentity) : Decidable (sameIdentity a b) := inferInstanceAs (Decidable (_ ∧ _))

theorem sameIdentity_iff {a b : HostIdentity} : sameIdentity a b ↔ a = b := by
  cases a
  cases b
  simp [sameIdentity]

/-- The host as it is configured now, which has to be the expected one where an earlier stage pinned it. -/
def pinHost (hostId : String) (expected : Option HostIdentity) (w : World) : Except ApiError HostIdentity :=
  match w.hosts.get? hostId with
  | none => .error ⟨none, s!"host {hostId} is not configured"⟩
  | some pinned =>
    match expected with
    | none => .ok pinned
    | some want =>
      if sameIdentity pinned want then .ok pinned
      else .error ⟨none, s!"host {hostId} now points at {pinned.ip}:{pinned.port}, not the {want.ip}:{want.port} this rebuild ran against"⟩

/-- A host under the address it was pinned to. -/
structure PinnedTransport where
  hostId : String
  identity : HostIdentity
  deriving Repr, DecidableEq

def HostUnchanged (pinned : PinnedTransport) (w : World) : Prop := ∃ now, w.hosts.get? pinned.hostId = some now ∧ sameIdentity now pinned.identity

theorem hostUnchanged_iff {pinned : PinnedTransport} {w : World} :
    HostUnchanged pinned w ↔ w.hosts.get? pinned.hostId = some pinned.identity := by
  constructor
  · rintro ⟨now, hnow, hsame⟩
    rw [hnow, sameIdentity_iff.1 hsame]
  · intro h
    exact ⟨_, h, sameIdentity_iff.2 rfl⟩

instance (pinned : PinnedTransport) (w : World) : Decidable (HostUnchanged pinned w) := decidable_of_iff _ hostUnchanged_iff.symm

def PinnedTransport.changed (pinned : PinnedTransport) : ApiError := ⟨none, s!"host {pinned.hostId} changed during the operation"⟩

/-- The expected identity of a host that is pinned anew is the one it gets. -/
theorem pinHost_ok {hostId : String} {expected : Option HostIdentity} {w : World} {pinned : HostIdentity}
    (h : pinHost hostId expected w = .ok pinned) : w.hosts.get? hostId = some pinned ∧ ∀ want ∈ expected, pinned = want := by
  unfold pinHost at h
  cases hhost : w.hosts.get? hostId with
  | none =>
    rw [hhost] at h
    cases h
  | some host =>
    rw [hhost] at h
    cases expected with
    | none =>
      obtain rfl := Except.ok.inj h
      exact ⟨rfl, nofun⟩
    | some want =>
      dsimp only at h
      split at h
      next hsame =>
        obtain rfl := Except.ok.inj h
        refine ⟨rfl, ?_⟩
        rintro _ ⟨⟩
        exact sameIdentity_iff.1 hsame
      next => cases h

/-- The request goes out while the host is what was pinned. -/
def PinnedTransport.asserted {α : Type} (pinned : PinnedTransport) (send : RebuildM (Except ApiError α)) : RebuildM (Except ApiError α) := do
  let w ← Async.read
  if HostUnchanged pinned w then send
  else do
    await .turn
    pure (.error pinned.changed)

def PinnedTransport.createSession (pinned : PinnedTransport) (name cwd mode : String) : RebuildM (Except ApiError Session) :=
  pinned.asserted do
    let res : Response Session ← await (.create pinned.identity name cwd mode)
    match res with
    | .ok session => pure (.ok session)
    | .status status statusText => pure (.error (HostApiError status statusText))
    | .rejected message => pure (.error ⟨none, message⟩)

/-- No session under that code is an answer. -/
def PinnedTransport.getSession (pinned : PinnedTransport) (sessionCode : String) : RebuildM (Except ApiError (Option Session)) :=
  pinned.asserted do
    let res : Response Session ← await (.getSession pinned.identity sessionCode)
    match res with
    | .ok session => pure (.ok (some session))
    | .status status statusText => pure (if status = 404 then .ok none else .error (HostApiError status statusText))
    | .rejected message => pure (.error ⟨none, message⟩)

def PinnedTransport.sendKeys (pinned : PinnedTransport) (sessionCode command expectedTmuxInstance : String) :
    RebuildM (Except ApiError Unit) :=
  if expectedTmuxInstance = "" then do
    await .turn
    pure (.error ⟨none, s!"refusing to send keys to {sessionCode} without a tmux generation to assert"⟩)
  else pinned.asserted do
    let res : Response Unit ← await (.sendKeys pinned.identity sessionCode (command ++ "\n") expectedTmuxInstance)
    match res with
    | .ok () => pure (.ok ())
    | .status status statusText =>
      pure (.error (if status = 409 then GenerationConflictError sessionCode expectedTmuxInstance else HostApiError status statusText))
    | .rejected message => pure (.error ⟨none, message⟩)

/-! ## Operations -/

namespace World

variable (w : World)

def operation (paneId : String) : Option RebuildOperation := w.operations.get? paneId

def beginOperation (op : RebuildOperation) : World :=
  { w with operations := w.operations.set op.paneId { op with status := .running } }

def patchOperation (paneId : String) (patch : RebuildOperation → RebuildOperation) : World :=
  match w.operations.get? paneId with
  | none => w
  | some prev => { w with operations := w.operations.set paneId (patch prev) }

def finishOperation (paneId : String) (patch : RebuildOperation → RebuildOperation) : World :=
  w.patchOperation paneId fun prev => { patch prev with status := .done }

/-- The created session that a retry would act on, with the host it was created on. -/
def holds (paneId : String) : Option (Session × Option HostIdentity) :=
  (w.operation paneId).bind fun op => op.createdSession.map (·, op.host)

/-! ## Panes and sessions -/

/-- The pane, if it is there and shows the terminal of a session. -/
def readTerminalPane (tabId paneId : String) : Option TmuxSessionContent :=
  match w.tabs.get? tabId with
  | none => none
  | some tab =>
    match tab.layout.findPane paneId with
    | some ⟨_, .tmuxSession content⟩ => if content.mode = .terminal then some content else none
    | _ => none

def BindingUnchanged (tabId paneId : String) (binding : SessionBinding) : Prop :=
  ∃ now ∈ w.readTerminalPane tabId paneId, bindingEquals now.binding binding

theorem bindingUnchanged_iff {tabId paneId : String} {binding : SessionBinding} :
    w.BindingUnchanged tabId paneId binding ↔ (w.readTerminalPane tabId paneId).map (·.binding) = some binding := by
  simp [BindingUnchanged, bindingEquals_iff]

instance (tabId paneId : String) (binding : SessionBinding) : Decidable (w.BindingUnchanged tabId paneId binding) :=
  decidable_of_iff _ (w.bindingUnchanged_iff).symm

def setPaneContent (tabId paneId : String) (content : PaneContent) : World :=
  match w.tabs.get? tabId with
  | none => w
  | some tab => { w with tabs := w.tabs.set tabId { tab with layout := tab.layout.updatePaneInLayout paneId content } }

end World

/-- `byCode.set(session.code, session)`, of a map of sessions by their codes in the order they were put in. -/
def putSession (byCode : List Session) (session : Session) : List Session :=
  if byCode.any (·.code = session.code) then byCode.map fun s => if s.code = session.code then session else s
  else byCode ++ [session]

/-- The dead session goes, where the cached one of its code is of its generation. -/
def syncSessionStore (hostId : String) (session : Session) (dead : SessionBinding) (w : World) : World :=
  let byCode := ((w.sessions.get? hostId).getD []).foldl putSession []
  let live := match byCode.find? (·.code = dead.sessionCode) with
    | some cached => if cached.generation = dead.tmuxInstance then byCode.filter (·.code ≠ dead.sessionCode) else byCode
    | none => byCode
  { w with sessions := w.sessions.set hostId (putSession live session) }

/-- The content that shows the session; it is not terminated. -/
def repointed (content : TmuxSessionContent) (session : Session) : TmuxSessionContent where
  hostId := content.hostId
  sessionCode := session.code
  mode := content.mode
  cachedName := session.name
  tmuxInstance := session.generation
  terminated := none
  rebuild := content.rebuild.map fun record =>
    { record with sessionName := session.name, tmuxInstance := orElse session.generation record.tmuxInstance }

def defaultRepoint (tabId paneId : String) (session : Session) (w : World) : World :=
  match w.readTerminalPane tabId paneId with
  | none => w
  | some content =>
    syncSessionStore content.hostId session content.binding
      (w.setPaneContent tabId paneId (.tmuxSession (repointed content session)))

/-! ## What writes leave as it is -/

/-- The panes and the cached sessions are what they were. -/
def Untouched (pre post : World) : Prop := post.tabs = pre.tabs ∧ post.sessions = pre.sessions

section Writes

variable {w : World} {tabId paneId : String}

theorem untouched_beginOperation (op : RebuildOperation) : Untouched w (w.beginOperation op) := ⟨rfl, rfl⟩

theorem untouched_patchOperation (patch : RebuildOperation → RebuildOperation) : Untouched w (w.patchOperation paneId patch) := by
  unfold World.patchOperation
  split
  · exact ⟨rfl, rfl⟩
  · exact ⟨rfl, rfl⟩

theorem operation_beginOperation (op : RebuildOperation) :
    (w.beginOperation op).operation paneId = if paneId = op.paneId then some { op with status := .running } else w.operation paneId :=
  Record.get?_set _ _ _ _

theorem operation_patchOperation (patch : RebuildOperation → RebuildOperation) (other : String) :
    (w.patchOperation paneId patch).operation other = if other = paneId then (w.operation paneId).map patch else w.operation other := by
  unfold World.patchOperation World.operation
  cases hop : w.operations.get? paneId with
  | none =>
    dsimp only
    split
    next heq => rw [heq, hop, Option.map_none]
    next => rfl
  | some prev => exact Record.get?_set _ _ _ _

theorem readTerminalPane_eq_some {content : TmuxSessionContent} : w.readTerminalPane tabId paneId = some content ↔
    content.mode = .terminal ∧ ∃ tab, w.tabs.get? tabId = some tab ∧ ∃ id, tab.layout.findPane paneId = some ⟨id, .tmuxSession content⟩ := by
  unfold World.readTerminalPane
  cases w.tabs.get? tabId with
  | none => simp
  | some tab =>
    rcases hfound : tab.layout.findPane paneId with _ | ⟨id, content'⟩
    · simp [hfound]
    · cases content' <;> simp [hfound, eq_comm, and_comm]
      rintro rfl
      exact Iff.rfl

theorem mem_putSession (byCode : List Session) (session : Session) : session ∈ putSession byCode session := by
  unfold putSession
  split
  next hany =>
    obtain ⟨s, hs, hcode⟩ := List.any_eq_true.1 hany
    exact List.mem_map.2 ⟨s, hs, if_pos (of_decide_eq_true hcode)⟩
  next => simp

end Writes

/-- The write puts the pane onto the session, by its code, its name and its generation, and nothing else. -/
structure PutsOn (tabId paneId : String) (session : Session) (pre post : World) : Prop where
  pane : ∃ content next, pre.readTerminalPane tabId paneId = some content ∧ post.readTerminalPane tabId paneId = some next ∧
    next.hostId = content.hostId ∧ next.sessionCode = session.code ∧ next.cachedName = session.name ∧
    next.tmuxInstance = session.generation ∧ next.terminated = none
  panes : ∃ tab tab', pre.tabs.get? tabId = some tab ∧ post.tabs.get? tabId = some tab' ∧
    tab'.layout.collectLeaves.filter (·.id ≠ paneId) = tab.layout.collectLeaves.filter (·.id ≠ paneId)
  tabs : ∀ other, other ≠ tabId → post.tabs.get? other = pre.tabs.get? other
  sessions : ∀ content, pre.readTerminalPane tabId paneId = some content →
    session ∈ (post.sessions.get? content.hostId).getD [] ∧
      ∀ other, other ≠ content.hostId → post.sessions.get? other = pre.sessions.get? other

theorem putsOn_defaultRepoint {tabId paneId : String} {session : Session} {w : World} {content : TmuxSessionContent}
    (h : w.readTerminalPane tabId paneId = some content) : PutsOn tabId paneId session w (defaultRepoint tabId paneId session w) := by
  obtain ⟨hmode, tab, htab, id, hfound⟩ := readTerminalPane_eq_some.1 h
  let tab' : Tab := { tab with layout := tab.layout.updatePaneInLayout paneId (.tmuxSession (repointed content session)) }
  have htabs : (defaultRepoint tabId paneId session w).tabs = w.tabs.set tabId tab' := by
    simp [defaultRepoint, h, syncSessionStore, World.setPaneContent, htab, tab']
  have hat : (defaultRepoint tabId paneId session w).tabs.get? tabId = some tab' := by
    rw [htabs, Record.get?_set, if_pos rfl]
  refine ⟨⟨content, repointed content session, h, ?_, rfl, rfl, rfl, rfl, rfl⟩, ⟨tab, tab', htab, hat, ?_⟩, fun other hother => ?_,
    fun content' hcontent => ?_⟩
  · refine readTerminalPane_eq_some.2 ⟨hmode, tab', hat, id, ?_⟩
    rw [PaneLayout.findPane_updatePaneInLayout, hfound]
    rfl
  · exact PaneLayout.others_updatePaneInLayout _ _ _
  · rw [htabs, Record.get?_set, if_neg hother]
  · obtain rfl := Option.some.inj (h.symm.trans hcontent)
    simp only [defaultRepoint, h, syncSessionStore, World.setPaneContent, htab, Record.get?_set, if_true, Option.getD_some]
    exact ⟨mem_putSession _ _, fun other hother => if_neg hother⟩

/-- A re-point writes no operation. -/
theorem operation_defaultRepoint (tabId paneId : String) (session : Session) (w : World) (other : String) :
    (defaultRepoint tabId paneId session w).operation other = w.operation other := by
  unfold defaultRepoint
  split
  · rfl
  · simp only [syncSessionStore, World.setPaneContent]
    split <;> rfl

/-! ## Resume commands -/

def DEFAULT_RESUME_TEMPLATES (agentType : String) : Option ResumeTemplatePair :=
  if agentType = "cc" then some ⟨"claude --resume \x7bid\x7d", "claude -c"⟩
  else if agentType = "codex" then some ⟨"codex resume \x7bid\x7d", "codex resume --last"⟩
  else if agentType = "opencode" then some ⟨"opencode -s \x7bid\x7d", "opencode -c"⟩
  else none

def liveResumeTemplates (w : World) (agentType : String) : Option ResumeTemplatePair :=
  (w.agents.get? agentType).or (DEFAULT_RESUME_TEMPLATES agentType)

/-- Nothing that a shell would take for anything else. -/
def SAFE_SESSION_ID (id : String) : Prop :=
  (1 ≤ id.length ∧ id.length ≤ 128) ∧ ∀ c ∈ id.toList, c.isAlphanum = true ∨ c = '_' ∨ c = '-'

instance (id : String) : Decidable (SAFE_SESSION_ID id) :=
  have : Decidable (∀ c ∈ id.toList, c.isAlphanum = true ∨ c = '_' ∨ c = '-') := List.decidableBAll _ _
  inferInstanceAs (Decidable (_ ∧ _))

/-- Each placeholder of an id replaced by it. -/
def fillIn (id : List Char) : List Char → List Char
  | '\x7b' :: 'i' :: 'd' :: '\x7d' :: rest => id ++ fillIn id rest
  | c :: rest => c :: fillIn id rest
  | [] => []

/-- What the pane overrides, else what the template of the agent makes of its session, else nothing. -/
def resolveResumeCommand (record : Option PaneRebuildRecord) (templates : String → Option ResumeTemplatePair) : String :=
  let override := (record.bind (·.resumeCommandOverride)).getD ""
  if override ≠ "" then override
  else match record.bind (·.agent) with
    | none => ""
    | some agent =>
      if agent.type = "" then ""
      else match templates agent.type with
        | none => ""
        | some pair =>
          let id := agent.sessionId.getD ""
          if id ≠ "" ∧ SAFE_SESSION_ID id then String.ofList (fillIn id.toList pair.exact.toList) else pair.fallback

end Purdex.Rebuild
