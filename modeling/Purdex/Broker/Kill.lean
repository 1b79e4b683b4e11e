/-
The kill sequence of one broker: identity check, audit preimage, graceful shutdown, SIGTERM,
SIGKILL, cleanup. The process table may change between any two of its operations.
-/
import Purdex.Broker.Types

namespace Purdex.Broker

open Conc

def lstartTolerance : Int := second

/-- What a live task worker's command line contains. -/
def brokerTaskWorkerCmdlineMarker : String := "app-server-broker.mjs"

def RawProcess.hasMarker (row : RawProcess) : Bool := contains row.cmdline brokerTaskWorkerCmdlineMarker

/-- The absolute value as it is computed, which overflows on the least duration. -/
def drift (t u : Int) : Int :=
  if Time.sub t u < 0 then Duration.neg (Time.sub t u) else Time.sub t u

/-! ## Identity -/

def verifyRow (record : BrokerRecord) (row : RawProcess) : Bool × String :=
  if !row.hasMarker then (false, "cmdline-mismatch")
  else if Time.isZero row.lstart != Time.isZero record.lstart then (false, "lstart-zero-mismatch")
  else if drift row.lstart record.lstart > lstartTolerance then (false, "lstart-drift")
  else (true, "match")

/-- The verdict on one listing: the first row of the recorded pid decides. -/
def verifyRows (record : BrokerRecord) : List RawProcess → Bool × String
  | [] => (false, "pid-not-found")
  | row :: rows => if row.pid ≠ record.pid then verifyRows record rows else verifyRow record row

def verifyAnswer (record : BrokerRecord) : Option (List RawProcess) → Bool × String
  | none => (false, "lister-error")
  | some rows => verifyRows record rows

/-- The deadline of the listing an identity check reads. -/
def verifyDeadline : Int := second

/-- The seams of a kill sequence and which of them are wired. -/
structure KillSequence where
  record : BrokerRecord
  lister : Bool
  dialer : Bool
  signaller : Bool
  gracefulTimeout : Int
  termTimeout : Int
  killTimeout : Int
  deriving Repr, DecidableEq

def verifyIdentity (record : BrokerRecord) (lister : Bool) : Code (Bool × String) := do
  if !lister then return (false, "no-lister")
  else
    let rows ← list verifyDeadline
    return verifyAnswer record rows

/-! ## Waiting -/

/-- The listing no longer has the recorded pid; a failed one says nothing. -/
def goneIn (record : BrokerRecord) : Option (List RawProcess) → Bool
  | none => false
  | some rows => rows.all fun row => row.pid != record.pid

/-- The deadline of the listings a poll loop reads. -/
def pollDeadline : Int := second / 5

def processGone (ks : KillSequence) : Code Bool := do
  if !ks.lister then return false
  else
    let rows ← list pollDeadline
    return goneIn ks.record rows

/-- At least one listing, then one more for each tick the budget still has room for. -/
def pollGone (ks : KillSequence) : Nat → Code Bool
  | 0 => processGone ks
  | n + 1 => do
    if ← processGone ks then return true
    else pollGone ks n

def waitForExit (ks : KillSequence) (budget : Int) : Code Bool := do
  let n ← polls budget
  pollGone ks n

def defaultGracefulShutdownTimeout : Int := 5 * second

def defaultTermTimeout : Int := 5 * second

def defaultKillTimeout : Int := 2 * second

def orDefault (d default : Int) : Int := if d > 0 then d else default

/-- Step 2: ask the broker to shut down and watch its pid, whatever the request comes to. -/
def stepGraceful (ks : KillSequence) : Code Bool := do
  if ks.record.endpoint = "" || !ks.dialer then return false
  else match unixAddr ks.record.endpoint with
    | none => return false
    | some addr =>
      let _ ← dialShutdown addr
      waitForExit ks (orDefault ks.gracefulTimeout defaultGracefulShutdownTimeout)

/-! ## Signals -/

/-- What ends a kill sequence early. -/
inductive KillError where
  | identityMismatch (detail : String)
  | preimage (err : String)
  deriving Repr, DecidableEq

def KillError.text : KillError → String
  | .identityMismatch detail => "identity mismatch: " ++ detail
  | .preimage err => err

def isIdentityMismatch : KillError → Bool
  | .identityMismatch _ => true
  | .preimage _ => false

/-- Steps 3 and 4. A failed lookup, a refused group and a failed signal are all `false`, and not
an error: the sequence goes on. -/
def signalAndWait (ks : KillSequence) (sig : Signal) (budget : Int) : Code (Except KillError Bool) := do
  if !ks.signaller then return .ok false
  else
    let (ok, detail) ← verifyIdentity ks.record ks.lister
    if !ok then return .error (.identityMismatch detail)
    else match ← pgidLookup ks.record.pid with
      | none => return .ok false
      | some pgid =>
        if pgid ≤ 1 then return .ok false
        else if ← signal (-pgid) sig then
          let gone ← waitForExit ks budget
          return .ok gone
        else return .ok false

def stepSIGTERM (ks : KillSequence) : Code (Except KillError Bool) :=
  signalAndWait ks .term (orDefault ks.termTimeout defaultTermTimeout)

def stepSIGKILL (ks : KillSequence) : Code (Except KillError Bool) :=
  signalAndWait ks .kill (orDefault ks.killTimeout defaultKillTimeout)

/-! ## Cleanup -/

/-- Step 5 looks once more and its answer is not used. -/
def stepVerifyGone (ks : KillSequence) : Code Unit := do
  if ks.lister then
    let _ ← list (2 * second)

/-- Whether a live process holds the socket in the directory, or the directory itself. -/
def socketHeld (ks : KillSequence) (verifier : Bool) : Code Bool := do
  if !verifier then return false
  else
    let held ← holdsSocket ks.record.socketDir
    return held == some true

/-- Step 6: the socket directory goes unless its socket is known to be held. -/
def stepCleanup (ks : KillSequence) (verifier : Bool) : Code Bool := do
  if ks.record.socketDir = "" then return true
  else if ← socketHeld ks verifier then return false
  else removeAll ks.record.socketDir

/-- Steps 5 and 6 and the postscript, after which the sequence has not failed. -/
def finish (ks : KillSequence) (verifier : Bool) (path : String) (res : KillResult) :
    Code (Except KillError KillResult) := do
  stepVerifyGone ks
  let cleanedUp ← stepCleanup ks verifier
  let res := { res with cleanedUp := cleanedUp }
  let _ ← appendPostscript path res
  return .ok res

/-- Steps 3 and 4: SIGKILL unless SIGTERM was seen to work. -/
def signals (ks : KillSequence) : Code (Except KillError KillResult) := do
  match ← stepSIGTERM ks with
  | .error e => return .error e
  | .ok true => return .ok { termOk := true }
  | .ok false =>
    match ← stepSIGKILL ks with
    | .error e => return .error e
    | .ok killOk => return .ok { killOk := killOk }

/-- Steps 0 to 6. -/
def KillSequence.run (ks : KillSequence) (decision : DecisionResult) (verifier : Bool) :
    Code (Except KillError KillResult) := do
  let (ok, detail) ← verifyIdentity ks.record ks.lister
  if !ok then return .error (.identityMismatch detail)
  else match ← writePreimage ks.record decision with
    | .error err => return .error (.preimage err)
    | .ok path =>
      if ← stepGraceful ks then
        finish ks verifier path { gracefulOk := true }
      else
        match ← signals ks with
        | .error e => return .error e
        | .ok res => finish ks verifier path res

end Purdex.Broker
