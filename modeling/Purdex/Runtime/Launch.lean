/-
From a dispatch to a running execution: admission under the lock of the repository, the row, the launch, and the
rejection of what cannot run.
-/
import Purdex.Runtime.Daemon

namespace Purdex.Runtime

open Conc Dispatch

/-! ## Programs of the daemon -/

/-- What a goroutine does; any of its operations may panic. -/
abbrev Go (α : Type) := ProgE Daemon Panic α

def perform (o : DaemonOp) : Go o.Answer := ExceptT.mk (Prog.call (I := Daemon) o)

/-- Run `body` with the lock, which is released however it ends. -/
def locked {α : Type} (key : String) (body : Go α) : Go α := ExceptT.mk do
  let _ ← Prog.call (I := Daemon) (.lock key)
  let r ← body.run
  let _ ← Prog.call (I := Daemon) (.unlock key)
  return r

/-- What the daemon is set up with; `describe` is the text of an error of the store. -/
structure Host where
  hostPolicy : Profile
  daemonID : String
  describe : StoreError → String

/-! ## Errors -/

def quoted (s : String) : String := "\"" ++ s ++ "\""

inductive LaunchError where
  | sessionExists (name : String)
  | createSession (name err : String)
  | listSessions (err : String)
  | notFound (name : String)
  | encode (err : String)
  | tokenFile (err : String)
  | sendKeys (err : String)
  | notConnected (code : String)
  deriving Repr, DecidableEq

def LaunchError.text : LaunchError → String
  | .sessionExists name => "launch: tmux session " ++ quoted name ++ " already exists"
  | .createSession name err => "launch: create session " ++ quoted name ++ ": " ++ err
  | .listSessions err => "launch: derive session code: list sessions: " ++ err
  | .notFound name => "launch: derive session code: session " ++ quoted name ++ " not found after create"
  | .encode err => "launch: derive session code: " ++ err
  | .tokenFile err => "launch: write token file: " ++ err
  | .sendKeys err => "launch: send relay command: " ++ err
  | .notConnected code => "launch: relay for " ++ quoted code ++ " did not connect within 15s"

inductive AcceptError where
  | unknownProfile (request : String)
  | canonical (err : String)
  | liveCheck (e : StoreError)
  | repoBusy (key : String)
  | snapshotHead (key err : String)
  | snapshotDirty (key err : String)
  | createRow (e : StoreError)
  | launch (executionID : String) (e : LaunchError)
  | markLaunched (e : StoreError)
  deriving Repr, DecidableEq

def AcceptError.text (host : Host) : AcceptError → String
  | .unknownProfile request => "unknown sandbox_profile: " ++ request
  | .canonical err => err
  | .liveCheck e => "admission live check: " ++ host.describe e
  | .repoBusy key => "repo already has a live execution: " ++ key
  | .snapshotHead key err => "snapshot HEAD for " ++ quoted key ++ ": " ++ err
  | .snapshotDirty key err => "snapshot dirty for " ++ quoted key ++ ": " ++ err
  | .createRow e => "create execution row: " ++ host.describe e
  | .launch executionID e => "launch execution " ++ executionID ++ ": " ++ e.text
  | .markLaunched e => "mark launched: " ++ host.describe e

def rejectionCode : AcceptError → String
  | .repoBusy _ => "repo_busy"
  | .canonical _ => "invalid_repo_location"
  | .unknownProfile _ => "unknown_sandbox_profile"
  | _ => "launch_failed"

/-! ## Admission -/

/-- What is known of the repository while its lock is held. -/
structure Admission where
  canonicalPath : String
  headAtStart : String
  dirtyAtStart : Bool
  deriving Repr, DecidableEq

def snapshot (canonical : String) : Go (Except AcceptError Admission) := do
  match ← perform (.revParse canonical) with
  | .error err => return .error (.snapshotHead canonical err)
  | .ok head =>
    match ← perform (.porcelain canonical) with
    | .error err => return .error (.snapshotDirty canonical err)
    | .ok status => return .ok ⟨canonical, head, trimSpace status ≠ ""⟩

/-- The repository is looked at while its lock is held. -/
def inspect (canonical : String) : Go (Except AcceptError Admission) := do
  match ← perform (.hasLiveByRepo canonical) with
  | .error e => return .error (.liveCheck e)
  | .ok true => return .error (.repoBusy canonical)
  | .ok false => snapshot canonical

def withRepoLock {α : Type} (repoLocation : String) (fn : Admission → Go (Except AcceptError α)) : Go (Except AcceptError α) := do
  match ← perform (.canonicalize repoLocation) with
  | .error err => return .error (.canonical err)
  | .ok canonical =>
    locked canonical do
      match ← inspect canonical with
      | .error e => return .error e
      | .ok admission => fn admission

/-! ## Launch -/

structure LaunchSpec where
  executionID : String
  sessionName : String
  cwd : String
  prompt : String
  sandboxProfile : String
  deriving Repr, DecidableEq

def claudeBaseCommand : String := "claude -p --verbose --input-format stream-json --output-format stream-json"

/-- A profile that is unknown has no flag. -/
def permissionModeFlag (sandboxProfile : String) : String :=
  match parseProfile sandboxProfile with
  | some p => "--permission-mode " ++ p.toPermissionMode
  | none => ""

def buildRelayCommand (code : String) (cfg : LaunchConfig) (tokenFile sandboxProfile : String) : String :=
  let cmd := "pdx relay --session " ++ code ++ " --daemon ws://" ++ cfg.bind ++ ":" ++ toString cfg.port ++ " --token-file " ++ tokenFile ++
    " -- " ++ claudeBaseCommand
  if permissionModeFlag sandboxProfile = "" then cmd else cmd ++ " " ++ permissionModeFlag sandboxProfile

/-- The code of the session that was just made. -/
def sessionCode (sessionName : String) : Go (Except LaunchError String) := do
  match ← perform .listSessions with
  | .error err => return .error (.listSessions err)
  | .ok sessions =>
    match sessions.find? (·.name = sessionName) with
    | none => return .error (.notFound sessionName)
    | some s => return (encodeSessionID s.id).mapError .encode

/-- Look for the relay until the time is over, which is after `polls` more looks. -/
def waitRelayConnect (code : String) : Nat → Go Bool
  | 0 => perform (.hasRelay code)
  | polls + 1 => do
    match ← perform (.hasRelay code) with
    | true => return true
    | false => waitRelayConnect code polls

/-- Start what the specification says in a session of its own, and hand it the prompt when its relay is there. -/
def launch (polls : Nat) (spec : LaunchSpec) : Go (Except LaunchError String) := do
  match ← perform (.hasSession spec.sessionName) with
  | true => return .error (.sessionExists spec.sessionName)
  | false =>
    match ← perform (.newSession spec.sessionName spec.cwd) with
    | .error err => return .error (.createSession spec.sessionName err)
    | .ok () =>
      match ← sessionCode spec.sessionName with
      | .error e => return .error e
      | .ok code =>
        let cfg ← perform .config
        match ← perform (.writeToken spec.executionID cfg.token) with
        | .error err => return .error (.tokenFile err)
        | .ok () =>
          match ← perform (.sendKeys (spec.sessionName ++ ":0")
            (buildRelayCommand code cfg ("purdex-token-" ++ spec.executionID) spec.sandboxProfile)) with
          | .error err => return .error (.sendKeys err)
          | .ok () =>
            match ← waitRelayConnect code polls with
            | false => return .error (.notConnected code)
            | true =>
              perform (.subscriberToRelay code spec.prompt)
              return .ok code

/-! ## Accept and reject -/

structure LaunchRequest where
  dispatchID : String
  repoLocation : String
  repoLocationJSON : String
  prompt : String
  sandboxProfile : String
  deriving Repr, DecidableEq

/-- The row that an admission makes. -/
def LaunchRequest.admitted (req : LaunchRequest) (execID effective : String) (adm : Admission) : NewExecution where
  executionID := execID
  dispatchID := req.dispatchID
  repoLocation := adm.canonicalPath
  repoLocationJSON := req.repoLocationJSON
  provider := "claude"
  sessionName := sessionNameFor execID
  launchState := some .launching
  headAtStart := adm.headAtStart
  dirtyAtStart := adm.dirtyAtStart
  sandboxProfile := effective

def LaunchRequest.rejected (req : LaunchRequest) (execID effective : String) : NewExecution where
  executionID := execID
  dispatchID := req.dispatchID
  repoLocation := req.repoLocation
  repoLocationJSON := req.repoLocationJSON
  provider := "claude"
  sessionName := sessionNameFor execID
  launchState := some .none
  headAtStart := ""
  dirtyAtStart := false
  sandboxProfile := effective

/-- Launch a row that was made now. -/
def launchRow (polls : Nat) (req : LaunchRequest) (effective sessionName : String) (adm : Admission) (exec : Execution) :
    Go (Except AcceptError Execution) := do
  match ← launch polls ⟨exec.executionID, sessionName, adm.canonicalPath, req.prompt, effective⟩ with
  | .error e =>
    -- an error of the store is logged, and the row stays live
    let _ ← perform (.store (.updateStatus exec.executionID .failed [] "launch_failed" e.text))
    return .error (.launch exec.executionID e)
  | .ok code =>
    match ← perform (.store (.markLaunched exec.executionID code)) with
    | .error e => return .error (.markLaunched e)
    | .ok (.launched row) => return .ok row
    | .ok _ => return .ok exec

/-- What happens while the lock of the repository is held. -/
def durableCut (polls : Nat) (req : LaunchRequest) (effective : String) (adm : Admission) : Go (Except AcceptError Execution) := do
  let execID ← perform .newID
  match ← perform (.store (.upsertByDispatch execID (req.admitted execID effective adm))) with
  | .error e => return .error (.createRow e)
  | .ok (.row exec true) => launchRow polls req effective (sessionNameFor execID) adm exec
  | .ok (.row exec false) => return .ok exec
  | .ok _ => return .error (.createRow .noRows)

def accept (host : Host) (polls : Nat) (req : LaunchRequest) : Go (Except AcceptError Execution) :=
  match clamp req.sandboxProfile host.hostPolicy with
  | none => return .error (.unknownProfile req.sandboxProfile)
  | some effective => withRepoLock req.repoLocation (durableCut polls req effective.string)

def effectiveProfile (host : Host) (request : String) : String :=
  ((clamp request host.hostPolicy).getD strictestProfile).string

def reject (host : Host) (req : LaunchRequest) (errCode errMsg : String) : Go (Except StoreError StoreReply) := do
  let execID ← perform .newID
  perform (.store (.insertRejected execID (req.rejected execID (effectiveProfile host req.sandboxProfile)) errCode errMsg))

/-! ## The consumer -/

/-- Title and body with a blank line between them. -/
def buildPrompt (issue : Issue) : String :=
  let title := trimSpace issue.title
  let body := trimSpace issue.body
  if body = "" then title else if title = "" then body else title ++ "\n\n" ++ body

def consume (host : Host) (polls : Nat) (req : LaunchRequest) : Go Unit := do
  match ← accept host polls req with
  | .error e =>
    let _ ← reject host req (rejectionCode e) (e.text host)
    return ()
  | .ok _ => return ()

def consumeSink (host : Host) (polls : Nat) (dispatchID : String) (detail : DispatchDetail) : Go Unit :=
  consume host polls ⟨dispatchID, detail.repoLocation.localDir, detail.repoLocation.json, buildPrompt detail.issue, detail.sandboxProfile⟩

/-- A claim that is lost to another is skipped. -/
def processPending (host : Host) (polls : Nat) (dispatchID : String) : Go (Except PloomError Unit) := do
  match ← perform (.claim dispatchID) with
  | .error .alreadyClaimed | .error .dispatchNotFound => return .ok ()
  | .error e => return .error e
  | .ok () =>
    match ← perform (.fetch dispatchID) with
    | .error e => return .error e
    | .ok detail =>
      consumeSink host polls dispatchID detail
      return .ok ()

def processAll (host : Host) (polls : Nat) : List String → Go (List PloomError)
  | [] => return []
  | dispatchID :: rest => do
    let r ← processPending host polls dispatchID
    let errs ← processAll host polls rest
    match r with
    | .ok () => return errs
    | .error e => return e :: errs

/-- One poll, and each dispatch by itself. -/
def runOnce (host : Host) (polls : Nat) : Go (List PloomError) := do
  match ← perform .pollPending with
  | .error e => return [e]
  | .ok pendings => processAll host polls pendings

end Purdex.Runtime
