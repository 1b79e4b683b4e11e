/-
The machine that checks whether a daemon can be reached, again and again until it can: three times at once, and then in the background, as
the last of these results says.
-/
import Purdex.Conc.Reach
import Mathlib.Data.List.Basic

namespace Purdex.Retry

/-! ## Results -/

inductive Daemon where
  | connected
  | refused
  | unreachable
  | authError
  deriving Repr, DecidableEq

inductive Mode where
  | pairing
  | pending
  | normal
  deriving Repr, DecidableEq

structure HealthResult where
  daemon : Daemon
  tmuxOk : Bool
  latency : Option Nat
  mode : Mode
  ticket : Option String
  deriving Repr, DecidableEq

/-- Recovered, or an error that stays. -/
def HealthResult.final (r : HealthResult) : Bool := r.daemon = .connected || r.daemon = .authError

def fastRetryCount : Nat := 3

def l1RetryDelayMs : Nat := 100

def l2RetryDelayMs : Nat := 3000

def l2RetryTimeoutMs : Nat := 180000

/-! ## States -/

inductive Attempt where
  | fast (i : Nat)
  | background (delayMs : Nat)
  deriving Repr, DecidableEq

/-- A check that runs, of the loop that a trigger began, which knows the epoch it goes by. -/
structure Check where
  loop : Nat
  epoch : Nat
  attempt : Attempt
  deriving Repr, DecidableEq

structure Timer where
  loop : Nat
  epoch : Nat
  delayMs : Nat
  due : Nat
  armed : Bool
  deriving Repr, DecidableEq

/-- What was called and what the machine did, with the time. -/
inductive Event where
  | triggered (loop : Nat)
  | stopped
  | started (c : Check) (now : Nat)
  | reported (c : Check) (r : HealthResult) (now : Nat)
  deriving Repr, DecidableEq

/-- The fields of the machine, and around it the clock, the checks and the timers; `loops` and `log` remember what was, the newest event in
front. -/
structure World where
  stopped : Bool
  backgroundTimer : Option Nat
  backgroundDeadline : Option Nat
  epoch : Nat
  now : Nat
  checks : List Check
  timers : List Timer
  loops : Nat
  log : List Event
  deriving Repr, DecidableEq

namespace World

def initial : World := ⟨false, none, none, 0, 0, [], [], 0, []⟩

def stopBackground (w : World) : World :=
  { w with
    backgroundTimer := none
    timers := match w.backgroundTimer with
      | some k => w.timers.modify k fun t => { t with armed := false }
      | none => w.timers }

/-- `checkFn` is called. -/
def start (c : Check) (w : World) : World := { w with checks := w.checks ++ [c], log := .started c w.now :: w.log }

/-- Up to where the first check is waited for. -/
def trigger (w : World) : World :=
  let w := { w.stopBackground with epoch := w.epoch + 1, stopped := false, loops := w.loops + 1, log := .triggered (w.loops + 1) :: w.log }
  w.start ⟨w.loops, w.epoch, .fast 0⟩

def stop (w : World) : World := { w with stopped := true, log := .stopped :: w.log }.stopBackground

def startBackground (loop delayMs : Nat) (w : World) : World :=
  if w.stopped then w
  else { w with
    timers := w.timers ++ [⟨loop, w.epoch, delayMs, w.now + delayMs, true⟩]
    backgroundTimer := some w.timers.length }

/-- The machine is no longer in the loop. -/
def left (epoch : Nat) (w : World) : Bool := w.stopped || w.epoch ≠ epoch

/-- Behind `onStateChange`, as the loop of the check goes on. -/
def goOn (c : Check) (r : HealthResult) (w : World) : World :=
  if r.final then w
  else match c.attempt with
    | .fast i =>
      if w.left c.epoch then w
      else if i + 1 < fastRetryCount then w.start { c with attempt := .fast (i + 1) }
      else match r.daemon with
        | .unreachable => { w with backgroundDeadline := none }.startBackground c.loop l1RetryDelayMs
        | .refused => { w with backgroundDeadline := some (w.now + l2RetryTimeoutMs) }.startBackground c.loop l2RetryDelayMs
        | _ => w
    | .background delayMs => w.startBackground c.loop delayMs

end World

/-! ## Moves -/

inductive Call where
  | trigger
  | stop
  deriving Repr, DecidableEq

def Call.apply : Call → World → World
  | .trigger, w => w.trigger
  | .stop, w => w.stop

/-- Calls from outside, and those that `onStateChange` makes itself when it is given a result. -/
inductive Move where
  | call (c : Call)
  | fire (k : Nat)
  | advance (ms : Nat)
  | complete (i : Nat) (r : HealthResult) (calls : List Call)
  deriving Repr, DecidableEq

def step : Move → World → Option World
  | .call c, w => some (c.apply w)
  | .fire k, w => w.timers[k]?.bind fun t =>
    if t.armed ∧ t.due ≤ w.now then
      let w := { w with timers := w.timers.set k { t with armed := false } }
      if w.left t.epoch then some w
      else if w.backgroundDeadline.any (· ≤ w.now) then some w
      else some (w.start ⟨t.loop, t.epoch, .background t.delayMs⟩)
    else none
  | .advance ms, w => some { w with now := w.now + ms }
  | .complete i r calls, w => w.checks[i]?.map fun c =>
    let w := { w with checks := w.checks.eraseIdx i }
    if w.left c.epoch then w
    else (calls.foldl (fun w call => Call.apply call w) { w with log := .reported c r w.now :: w.log }).goOn c r

/-- The result of a check in the background does not make `onStateChange` call `trigger`, unless the machine goes on no more. -/
def Restartless (w : World) : Move → Prop
  | .complete i r calls => ∀ c delayMs, w.checks[i]? = some c → c.attempt = .background delayMs → r.final = false →
      calls.getLast? ≠ some .trigger
  | _ => True

end Purdex.Retry
