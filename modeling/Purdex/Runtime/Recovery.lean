/-
The ends of executions: the exit of what was launched, the sweep over what is live after a restart, and the reclaim
of one execution. The system of all goroutines.
-/
import Purdex.Runtime.Launch

namespace Purdex.Runtime

open Conc Dispatch

/-! ## Outcomes -/

/-- What was captured of the `result` event. -/
structure ResultOutcome where
  hasResult : Bool
  isError : Bool
  subtype : String
  deriving Repr, DecidableEq

/-- The exit code decides, and then the result where there is one. -/
def classifyOutcome (exitCode : Int) (signaled : Bool) (res : ResultOutcome) : Status × OutcomeSource :=
  let source := if res.hasResult then OutcomeSource.result else .exitOnly
  if signaled ∨ exitCode ≠ 0 then (.failed, source)
  else if res.hasResult ∧ res.isError then (.failed, .result)
  else (.completed, source)

def failureDetail (exitCode : Int) (signaled : Bool) (res : ResultOutcome) : String × String :=
  if res.hasResult ∧ res.isError then ("execution_error", "agent result error: " ++ if res.subtype = "" then "error" else res.subtype)
  else if signaled then ("execution_error", "subprocess terminated by signal")
  else ("execution_error", "subprocess exited with code " ++ toString exitCode)

def diffPointer (daemonID executionID : String) : String := "pdx://" ++ daemonID ++ "/execution/" ++ executionID ++ "/diff"

def transcriptPointer (daemonID executionID : String) : String := "pdx://" ++ daemonID ++ "/execution/" ++ executionID ++ "/transcript"

/-- A diff, which a failure has only where there are changes, and the transcript. -/
def buildTerminalArtifacts (host : Host) (exec : Execution) (status : Status) : Go (List Artifact) := do
  let transcript : Artifact := ⟨"transcript", transcriptPointer host.daemonID exec.executionID⟩
  match ← perform (.gitDiff exec.repoLocation exec.headAtStart) with
  | .error _ => return [transcript]
  | .ok diff =>
    if status = .completed ∨ 0 < diff.files then return [⟨"diff", diffPointer host.daemonID exec.executionID⟩, transcript]
    else return [transcript]

/-- Lose the race for the terminal transition without an error. -/
def tolerated (r : Except StoreError StoreReply) : Except StoreError Unit :=
  match r with
  | .ok _ | .error .illegalTransition => .ok ()
  | .error e => .error e

/-! ## Exits -/

def getByID (id : String) : Go (Except StoreError (Option Execution)) := do
  match ← perform (.loadByID id) with
  | .error .noRows => return .ok none
  | .error e => return .error e
  | .ok exec => return .ok (some exec)

def getBySessionCode (code : String) : Go (Except StoreError (Option Execution)) := do
  match ← perform (.idByCode code) with
  | .error e => return .error e
  | .ok none => return .ok none
  | .ok (some id) => getByID id

/-- The exit of the process whose relay has that code. -/
def handle (host : Host) (sessionCode : String) (exitCode : Int) (signaled : Bool) (res : ResultOutcome) : Go (Except StoreError Unit) := do
  match ← getBySessionCode sessionCode with
  | .error e => return .error e
  | .ok none => return .ok ()
  | .ok (some exec) =>
    if exec.status.IsTerminal then return .ok ()
    else
      let (status, source) := classifyOutcome exitCode signaled res
      let artifacts ← buildTerminalArtifacts host exec status
      let (errCode, errMsg) := if status = .failed then failureDetail exitCode signaled res else ("", "")
      return tolerated (← perform (.store (.markTerminal exec.executionID status source artifacts errCode errMsg)))

/-! ## Sweeps -/

def loadAll : List String → Go (Except StoreError (List Execution))
  | [] => return .ok []
  | id :: ids => do
    match ← perform (.loadByID id) with
    | .error e => return .error e
    | .ok exec =>
      match ← loadAll ids with
      | .error e => return .error e
      | .ok execs => return .ok (exec :: execs)

def listLive : Go (Except StoreError (List Execution)) := do
  match ← perform .liveIDs with
  | .error e => return .error e
  | .ok ids => loadAll ids

def finishFailed (host : Host) (exec : Execution) (errCode errMsg : String) : Go (Except StoreError Unit) := do
  let artifacts ← buildTerminalArtifacts host exec .failed
  return tolerated (← perform (.store (.markTerminal exec.executionID .failed .exitOnly artifacts errCode errMsg)))

def reconcileOne (host : Host) (exec : Execution) : Go (Except StoreError Unit) := do
  if exec.status.IsTerminal then return .ok ()
  else
    let alive ← perform (.hasSession exec.sessionName)
    if exec.launchState = .launched then
      match alive with
      | true => return .ok ()
      | false =>
        finishFailed host exec "execution_error" "execution session ended without a terminal report (recovered on daemon restart)"
    else
      match alive with
      | true =>
        -- an error of the kill is logged
        let _ ← perform (.killSession exec.sessionName)
        finishFailed host exec "launch_failed" "launch did not complete before daemon restart"
      | false => finishFailed host exec "launch_failed" "launch did not complete before daemon restart"

/-- The errors of the rows do not end the sweep. -/
def reconcileAll (host : Host) : List Execution → Go (List StoreError)
  | [] => return []
  | exec :: rest => do
    let r ← reconcileOne host exec
    let errs ← reconcileAll host rest
    match r with
    | .ok () => return errs
    | .error e => return e :: errs

/-- How many were swept, and the errors. -/
def sweep (host : Host) : Go (Nat × List StoreError) := do
  match ← listLive with
  | .error e => return (0, [e])
  | .ok execs =>
    let errs ← reconcileAll host execs
    return (execs.length, errs)

def reclaimByID (host : Host) (execID : String) : Go (Bool × Except StoreError Unit) := do
  match ← listLive with
  | .error e => return (false, .error e)
  | .ok execs =>
    match execs.find? (·.executionID = execID) with
    | some exec => return (true, ← reconcileOne host exec)
    | none => return (false, .ok ())

/-! ## The system -/

inductive Job where
  | consume (polls : Nat) (req : LaunchRequest)
  | pass (polls : Nat)
  /-- The exit of what the execution launched, as it comes from the relay of its session. -/
  | exit (execID sessionCode : String) (exitCode : Int) (signaled : Bool) (res : ResultOutcome)
  | reconcile
  | reclaim (execID : String)
  deriving Repr, DecidableEq

/-- A goroutine belongs to the run of the daemon that started it. -/
structure DaemonThread where
  boot : Nat
  job : Job
  deriving Repr, DecidableEq

def Job.go (host : Host) : Job → Go Unit
  | .consume polls req => Runtime.consume host polls req
  | .pass polls => do let _ ← runOnce host polls; return ()
  | .exit _ sessionCode exitCode signaled res => do let _ ← handle host sessionCode exitCode signaled res; return ()
  | .reconcile => do let _ ← sweep host; return ()
  | .reclaim execID => do let _ ← reclaimByID host execID; return ()

def DaemonThread.body (host : Host) (k : DaemonThread) : Prog Daemon (Option DaemonThread) := do
  let _ ← (k.job.go host).run
  return none

def daemon (host : Host) : Sys Daemon DaemonState DaemonThread DaemonEvent where
  body := DaemonThread.body host
  exec := DaemonOp.exec
  spawns _ := []
  tick := DaemonEvent.tick

abbrev DaemonPool := Pool Daemon DaemonState DaemonThread

abbrev DaemonEntry := Entry Daemon DaemonState DaemonThread

/-- What a goroutine of a run of the daemon that is over does no more, and a lock that is not free is waited for. -/
def Scheduled (p : DaemonPool) : Label DaemonThread DaemonEvent → Prop
  | .spawn k => k.boot = p.shared.boot
  | .act i => ∀ k h o f, p.threads[i]? = some ⟨k, h, .op o f⟩ → k.boot = p.shared.boot ∧ ∀ key, o = .lock key → key ∉ p.shared.locks
  | .env _ => True

/-- The same as a check of one step. -/
def scheduledB (p : DaemonPool) : Label DaemonThread DaemonEvent → Bool
  | .spawn k => decide (k.boot = p.shared.boot)
  | .act i =>
    match p.threads[i]? with
    | some ⟨k, _, .op (.lock key) _⟩ => decide (k.boot = p.shared.boot ∧ key ∉ p.shared.locks)
    | some ⟨k, _, .op _ _⟩ => decide (k.boot = p.shared.boot)
    | _ => true
  | .env _ => true

theorem scheduled_of_scheduledB {p : DaemonPool} {l : Label DaemonThread DaemonEvent} (h : scheduledB p l = true) : Scheduled p l := by
  cases l with
  | spawn k =>
    show k.boot = p.shared.boot
    simpa [scheduledB] using h
  | env e => trivial
  | act i =>
    intro k hist o f hth
    unfold scheduledB at h
    simp only [hth] at h
    cases o with
    | lock key =>
      obtain ⟨hboot, hfree⟩ : k.boot = p.shared.boot ∧ key ∉ p.shared.locks := by simpa using h
      refine ⟨hboot, fun key' heq => ?_⟩
      obtain rfl := DaemonOp.lock.inj heq
      exact hfree
    | _ => exact ⟨by simpa using h, nofun⟩

end Purdex.Runtime
