/-
`POST /api/codex/brokers/sweep`: evaluate every broker of the inventory and, in apply mode, run
the kill sequence of those that are to go; a broker whose identity does not hold is quarantined.
The request holds its locks throughout, so the quarantine file and the tracker are passed along.
-/
import Purdex.Broker.Decision

namespace Purdex.Broker

open Conc

/-! ## Quarantine -/

/-- The latest fingerprint wins; an unknown file starts at version 1. -/
def addEntry (file : Option QuarantineFile) (entry : QuarantineEntry) : QuarantineFile :=
  let file := file.getD ⟨1, []⟩
  if file.entries.any fun existing => existing.brokerKey == entry.brokerKey then
    { file with entries := replaceFirst file.entries }
  else { file with entries := file.entries ++ [entry] }
where
  replaceFirst : List QuarantineEntry → List QuarantineEntry
    | [] => []
    | existing :: rest => if existing.brokerKey = entry.brokerKey then entry :: rest else existing :: replaceFirst rest

def isQuarantined (file : Option QuarantineFile) (brokerKey : String) : Bool :=
  match file with
  | none => false
  | some file => file.entries.any fun entry => entry.brokerKey == brokerKey

/-! ## The handler -/

/-- The handler's wiring. `killer` holds the seams of every kill sequence. -/
structure SweepHandler where
  opts : DecisionOpts
  registry : Option LaunchRegistry
  killer : KillSequence
  lister : Bool
  quarantinePath : String
  quarantineRetentionDays : Int
  applyDisabled : String
  deriving Repr, DecidableEq

/-- What outlives a request. -/
structure SweepState where
  quarantine : Option QuarantineFile
  tracker : Option E1Tracker
  deriving Repr, DecidableEq

structure SweepRequest where
  method : String
  mode : String
  brokerKey : String
  deriving Repr, DecidableEq

structure SweepResponse where
  dryRun : Bool
  evaluated : List (BrokerRecord × DecisionResult)
  applied : List String
  quarantined : List String
  errors : List String
  deriving Repr, DecidableEq

inductive SweepReply where
  | status (code : Nat) (error : String)
  | ok (response : SweepResponse)
  deriving Repr, DecidableEq

/-- The mode asked for; none means a dry run. -/
def SweepRequest.effectiveMode (req : SweepRequest) : String :=
  if req.mode = "" then "dry-run" else req.mode

/-- The registry the decisions read: the one of the options, else the handler's. -/
def SweepHandler.decisionOpts (handler : SweepHandler) : DecisionOpts :=
  { handler.opts with registry := handler.opts.registry <|> handler.registry }

/-- The runner the factory builds for a record. -/
def SweepHandler.killerFactory (handler : SweepHandler) (record : BrokerRecord) : KillSequence :=
  { handler.killer with record := record }

/-- The command line that took the pid, as far as it can be seen. -/
def snapshotFingerprint (handler : SweepHandler) (record : BrokerRecord) : Code BrokerFingerprint := do
  if !handler.lister then return ⟨"", "", record.pidFile⟩
  else match ← list (second / 2) with
    | none => return ⟨"", "", record.pidFile⟩
    | some rows =>
      match rows.find? fun row => row.pid == record.pid with
      | none => return ⟨"", "", record.pidFile⟩
      | some row =>
        let first := String.ofList (row.cmdline.toList.takeWhile (· ≠ ' '))
        return ⟨if first = "" then row.cmdline else first, row.cmdline, record.pidFile⟩

/-- How long an entry is to last; 7 days unless configured. -/
def SweepHandler.retentionDays (handler : SweepHandler) : Int :=
  if handler.quarantineRetentionDays ≤ 0 then 7 else handler.quarantineRetentionDays

/-- The new file and the error of writing it, if that failed. -/
def recordQuarantine (handler : SweepHandler) (file : Option QuarantineFile) (record : BrokerRecord) :
    Code (QuarantineFile × Option String) := do
  let fp ← snapshotFingerprint handler record
  let now ← clock
  let entry : QuarantineEntry :=
    ⟨record.key, record.pid, record.lstart, now, "pid_reuse_suspicion", fp, now + handler.retentionDays * day⟩
  let _ ← recordEntry entry
  let file := addEntry file entry
  if handler.quarantinePath = "" then return (file, none)
  else match ← saveQuarantine with
    | .ok _ => return (file, none)
    | .error err => return (file, some err)

/-- Whether a verdict is acted on, and the reason the audit is given. -/
def shouldKill (mode brokerKey : String) (decision : DecisionResult) : Bool × String :=
  let foreign := decision.reason == "foreign_quarantine"
  if mode ≠ "apply" then (false, decision.reason)
  else if !decision.kill then (false, decision.reason)
  else if brokerKey = "" && foreign then (false, decision.reason)
  else if brokerKey ≠ "" && foreign then (true, "manual_sweep_override")
  else (true, decision.reason)

/-- The kill of one record and what becomes of it. -/
def killOne (handler : SweepHandler) (record : BrokerRecord) (decision : DecisionResult)
    (st : SweepState) (resp : SweepResponse) : Code (SweepState × SweepResponse) := do
  let _ ← killerRun record
  match ← (handler.killerFactory record).run decision true with
  | .error e =>
    if isIdentityMismatch e then
      let (file, saveErr) ← recordQuarantine handler st.quarantine record
      let st := { st with quarantine := some file }
      match saveErr with
      | some err => return (st, { resp with errors := resp.errors ++ [record.key ++ ": quarantine save failed: " ++ err] })
      | none => return (st, { resp with quarantined := resp.quarantined ++ [record.key] })
    else return (st, { resp with errors := resp.errors ++ [record.key ++ ": " ++ e.text] })
  | .ok _ =>
    return ({ st with tracker := st.tracker.map fun t => t.reset record.key },
      { resp with applied := resp.applied ++ [record.key] })

/-- One record of the inventory. -/
def sweepRecord (handler : SweepHandler) (mode brokerKey : String) (record : BrokerRecord)
    (st : SweepState) (resp : SweepResponse) : Code (SweepState × SweepResponse) := do
  if brokerKey ≠ "" && record.key ≠ brokerKey then return (st, resp)
  else if isQuarantined st.quarantine record.key then return (st, resp)
  else
    let _ ← evalFn record
    let (decision, tracker) ← evalDecision record handler.decisionOpts st.tracker
    let st := { st with tracker := tracker }
    let (kill, reason) := shouldKill mode brokerKey decision
    let decision := { decision with reason := reason }
    let (st, resp) ← if kill then killOne handler record decision st resp else return (st, resp)
    return (st, { resp with evaluated := resp.evaluated ++ [(record, decision)] })

def sweepRecords (handler : SweepHandler) (mode brokerKey : String) : List BrokerRecord → SweepState →
    SweepResponse → Code (SweepState × SweepResponse)
  | [], st, resp => return (st, resp)
  | record :: records, st, resp => do
    let (st, resp) ← sweepRecord handler mode brokerKey record st resp
    sweepRecords handler mode brokerKey records st resp

def handleSweep (handler : SweepHandler) (req : SweepRequest) (st : SweepState) : Code (SweepState × SweepReply) := do
  let mode := req.effectiveMode
  if req.method ≠ "POST" then return (st, .status 405 "method not allowed")
  else if mode ≠ "dry-run" && mode ≠ "apply" then return (st, .status 400 "invalid mode")
  else if mode = "apply" && handler.applyDisabled ≠ "" then
    return (st, .status 503 ("apply disabled: " ++ handler.applyDisabled))
  else if !(← acquireLocks mode req.brokerKey) then return (st, .status 503 "sweep busy")
  else if ← ctxErr then return (st, .status 503 "sweep ctx expired")
  else match ← scan with
    | .error err => return (st, .status 503 err)
    | .ok brokers =>
      let (st, resp) ← sweepRecords handler mode req.brokerKey brokers st ⟨mode = "dry-run", [], [], [], []⟩
      return (st, .ok resp)

end Purdex.Broker
