/-
The verdict on one broker: predicates A (active execution), B (recent delivery readable) and C
(live ownership), the idle rule, the tracker of missing working directories and the foreign
classification.
-/
import Purdex.Broker.Kill

namespace Purdex.Broker

open Conc

/-! ## The launch registry and the tracker -/

abbrev LaunchRegistry := List LaunchEntry

def LaunchRegistry.lookup (registry : LaunchRegistry) (brokerKey : String) : Option LaunchEntry :=
  registry.find? fun entry => entry.brokerKey == brokerKey

def recordHasAnomaly (record : BrokerRecord) (code : AnomalyCode) : Bool := record.anomalies.contains code

abbrev E1Tracker := List E1State

/-- Minimum distance of two observations of a missing directory. -/
def defaultE1ConfirmationGap : Int := 60 * second

/-- Whether the record's directory was seen missing twice, far enough apart. -/
def E1Tracker.observe (tracker : E1Tracker) (record : BrokerRecord) (now : Int) : Bool × E1Tracker :=
  if recordHasAnomaly record .cwdMissing then
    match tracker.find? fun state => state.brokerKey == record.key with
    | none => (false, tracker ++ [⟨record.key, now, none⟩])
    | some prior =>
      if Time.sub now prior.firstSeenAt ≥ defaultE1ConfirmationGap then
        (true, tracker.map fun state => if state.brokerKey == record.key then { state with firstConfirmedAt := some now } else state)
      else (false, tracker)
  else (false, tracker.filter fun state => state.brokerKey != record.key)

def E1Tracker.reset (tracker : E1Tracker) (brokerKey : String) : E1Tracker :=
  tracker.filter fun state => state.brokerKey != brokerKey

/-! ## Predicate A -/

def isActiveStatus (status : String) : Bool :=
  ["active", "running", "pending", "pending_approval", "approval_required"].contains (toLower status)

def defaultStaleRunningThreshold : Int := hour

/-- The deadline of the listing a staleness check reads. -/
def staleDeadline : Int := second / 4

/-- The verdict on a running job's pid in one listing. -/
def staleIn (pid : Int) : Option (List RawProcess) → Bool
  | none => true
  | some rows =>
    match rows.find? fun row => row.pid == pid with
    | none => true
    | some row => !row.hasMarker

def isStaleRunning (job : StateJobLite) (threshold now : Int) : Code Bool := do
  if job.status ≠ "running" then return false
  else match job.pid with
    | none => return decide (Time.sub now job.updatedAt > threshold)
    | some pid =>
      let rows ← list staleDeadline
      return staleIn pid rows

/-- Whether the broker answered, whether a thread is active, and how. -/
def tryThreadList (record : BrokerRecord) (dialer : Bool) : Code (Bool × Bool × String) := do
  if !dialer || record.endpoint = "" then return (false, false, "no-endpoint-or-dialer")
  else match unixAddr record.endpoint with
    | none => return (false, false, "non-unix-endpoint")
    | some addr =>
      match ← threadList addr with
      | .error detail => return (false, false, detail)
      | .ok [] => return (true, false, "no-threads")
      | .ok threads =>
        match threads.find? fun thread => isActiveStatus thread.status with
        | some thread => return (true, true, "thread-" ++ thread.status ++ ":" ++ thread.id)
        | none => return (true, false, "no-active-threads")

/-- The first job that is queued, or running and not stale. -/
def busyJob (now : Int) : List StateJobLite → Code (Option String)
  | [] => return none
  | job :: jobs => do
    if job.status = "queued" then return some ("state:queued:" ++ job.id)
    else if job.status = "running" then
      if ← isStaleRunning job defaultStaleRunningThreshold now then busyJob now jobs
      else return some ("state:running-fresh:" ++ job.id)
    else busyJob now jobs

def evalPredicateA (record : BrokerRecord) (jobs : List StateJobLite) (dialer : Bool) : Code (Bool × String) := do
  let (rpcOK, sawActive, detail) ← tryThreadList record dialer
  if sawActive then return (true, "rpc:" ++ detail)
  else
    let now ← clock
    match ← busyJob now jobs with
    | some detail => return (true, detail)
    | none => return (false, if rpcOK then "rpc:no-active-threads" else "rpc-down-and-state-quiet")

/-! ## Predicate B -/

def defaultRecentResultWindow : Int := 30 * minute

/-- The file decodes and has a result or a rendering. -/
def readable : FileAnswer (Bool × Bool) → Bool
  | .decoded (result, rendered) => result || rendered
  | _ => false

/-- The first job completed within the window whose result can be read. -/
def deliveredJob (record : BrokerRecord) (window now : Int) : List StateJobLite → Code (Option String)
  | [] => return none
  | job :: jobs => do
    match job.status == "completed", job.completedAt with
    | true, some completedAt =>
      if Time.sub now completedAt > window then deliveredJob record window now jobs
      else
        let answer ← openJobResult record.stateDir job.id
        if readable answer then return some ("completed:" ++ job.id)
        else deliveredJob record window now jobs
    | _, _ => deliveredJob record window now jobs

def evalPredicateB (record : BrokerRecord) (jobs : List StateJobLite) (window : Int) : Code (Bool × String) := do
  if record.stateDir = "" then return (false, "no-state-dir")
  else
    let now ← clock
    match ← deliveredJob record window now jobs with
    | some detail => return (true, detail)
    | none => return (false, "no-recent-delivery")

/-! ## Predicate C -/

/-- The seams of the decision and its time limits. -/
structure DecisionOpts where
  dialer : Bool
  registry : Option LaunchRegistry
  panes : Bool
  idleTimeout : Int
  resultWindow : Int
  deriving Repr, DecidableEq

/-- A record that was not already found missing or unreadable is looked at again. -/
def cwdGone (record : BrokerRecord) : Code Bool := do
  if !record.cwdExists && !recordHasAnomaly record .cwdTransientStatError && record.cwd != "" then
    match ← stat record.cwd with
    | .enoent => return true
    | _ => return false
  else return false

def evalPredicateC (record : BrokerRecord) (opts : DecisionOpts) : Code (Bool × String) := do
  if recordHasAnomaly record .cwdMissing then return (false, "cwd-missing")
  else if ← cwdGone record then return (false, "cwd-stat-enoent")
  else match opts.registry with
    | none => return (false, "no-registry")
    | some registry =>
      match registry.lookup record.key with
      | none => return (false, "no-registry-entry")
      | some entry =>
        if entry.tmuxPane = "" then return (false, "no-tmux-pane-in-entry")
        else if !opts.panes then return (false, "no-pane-checker")
        else match ← paneAlive entry.tmuxPane with
          | none => return (false, "pane-checker-error")
          | some false => return (false, "pane-closed")
          | some true => return (true, "pane-alive:" ++ entry.tmuxPane)

/-! ## The decision -/

def defaultIdleTimeout : Int := 30 * minute

/-- The jobs of a state file, and whether reading it failed; a missing file has no jobs. -/
def FileAnswer.jobs : FileAnswer (List StateJobLite) → List StateJobLite × Bool
  | .absent => ([], false)
  | .failed => ([], true)
  | .decoded jobs => (jobs, false)

def readStateJobs (stateDir : String) : Code (List StateJobLite × Bool) := do
  if stateDir = "" then return ([], false)
  else
    let answer ← openState stateDir
    return answer.jobs

/-- -1 stands for a record without job updates. -/
def idleSeconds (record : BrokerRecord) (now : Int) : Int :=
  match record.lastJobUpdatedAt with
  | none => -1
  | some updatedAt => Duration.wholeSeconds (Time.sub now updatedAt)

def idleExpired (idleTimeout idleSeconds : Int) : Bool :=
  idleSeconds < 0 || idleSeconds * second ≥ idleTimeout

/-- No registry, an empty one, or none of its entries is the record's. -/
def isForeign (registry : Option LaunchRegistry) (key : String) : Bool :=
  match registry with
  | none => true
  | some registry => registry.isEmpty || (registry.lookup key).isNone

/-- The verdict, and the tracker after it observed the record. -/
def evalDecision (record : BrokerRecord) (opts : DecisionOpts) (tracker : Option E1Tracker) :
    Code (DecisionResult × Option E1Tracker) := do
  let now ← clock
  let (jobs, jobsErr) ← readStateJobs record.stateDir
  let unreadable := if jobsErr && !recordHasAnomaly record .stateJSONUnreadable then [AnomalyCode.stateJSONUnreadable] else []
  let (a, aDetail) ← evalPredicateA record jobs opts.dialer
  let (b, bDetail) ← evalPredicateB record jobs (orDefault opts.resultWindow defaultRecentResultWindow)
  let (c, cDetail) ← evalPredicateC record opts
  let idle := idleSeconds record now
  let kill := !a && !b && !c && idleExpired (orDefault opts.idleTimeout defaultIdleTimeout) idle
  let overrideE1 := (tracker.map fun t => (t.observe record now).1) == some true
  let tracker := tracker.map fun t => (t.observe record now).2
  let foreign := isForeign opts.registry record.key || recordHasAnomaly record .foreignOwner
  let added := if foreign && !recordHasAnomaly record .foreignOwner then [AnomalyCode.foreignOwner] else []
  let reason := if foreign then "foreign_quarantine" else if kill then "idle_timeout" else ""
  return (⟨⟨a, aDetail, b, bDetail, c, cDetail⟩, idle, overrideE1, kill, reason, unreadable ++ added⟩, tracker)

end Purdex.Broker
