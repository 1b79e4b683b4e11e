/-
The snapshot of the monitor: callers share one collection at a time and what it left in the cache, and an update of the configuration
makes both stale.
-/
import Purdex.Conc.Stages

namespace Purdex.Monitor

open Conc

/-! ## Configuration -/

structure MonitorConfig where
  refreshIntervalMS : Int
  topProcessLimit : Int
  deriving Repr, DecidableEq

/-- A configuration within its bounds. -/
structure EffectiveConfig where
  refreshIntervalMS : Int
  topProcessLimit : Int
  deriving Repr, DecidableEq

def clamp (value least most : Int) : Int := if value < least then least else if most < value then most else value

def clampSubmittedMonitorConfig (cfg : MonitorConfig) : EffectiveConfig :=
  ⟨clamp cfg.refreshIntervalMS 1000 60000, clamp cfg.topProcessLimit 1 50⟩

/-- Zero is the default. -/
def effectiveMonitorConfig (cfg : MonitorConfig) : EffectiveConfig :=
  clampSubmittedMonitorConfig ⟨if cfg.refreshIntervalMS = 0 then 5000 else cfg.refreshIntervalMS,
    if cfg.topProcessLimit = 0 then 10 else cfg.topProcessLimit⟩

def EffectiveConfig.persistedConfig (cfg : EffectiveConfig) : MonitorConfig := ⟨cfg.refreshIntervalMS, cfg.topProcessLimit⟩

structure ConfigUpdateRequest where
  refreshIntervalMS : Option Int
  topProcessLimit : Option Int
  deriving Repr, DecidableEq

/-- What is kept of a request that is made of this configuration. -/
def ConfigUpdateRequest.submit (req : ConfigUpdateRequest) (cfg : MonitorConfig) : MonitorConfig :=
  let current := (effectiveMonitorConfig cfg).persistedConfig
  (clampSubmittedMonitorConfig ⟨req.refreshIntervalMS.getD current.refreshIntervalMS, req.topProcessLimit.getD current.topProcessLimit⟩).persistedConfig

/-! ## The module -/

inductive SnapshotError
  | collect (msg : String)
  | cancelled
  deriving Repr, DecidableEq

/-- What was collected, and by which collection. Times are in nanoseconds. -/
structure Snapshot where
  config : EffectiveConfig
  sampledAt : Int
  flight : Nat
  deriving Repr, DecidableEq

abbrev Outcome := Except SnapshotError Snapshot

/-- It is done when it has an outcome. -/
structure SnapshotFlight where
  generation : Nat
  outcome : Option Outcome

/-- The fields behind the lock, the configuration, the clock, and every flight there was. -/
structure Module where
  config : MonitorConfig
  clock : Int
  cachedSnapshot : Option Snapshot
  inFlight : Option Nat
  snapshotGen : Nat
  flights : List SnapshotFlight

def effectiveConfig (s : Module) : EffectiveConfig := effectiveMonitorConfig s.config

/-- How far a call of `getSnapshot` or an update of the configuration is. -/
inductive Routine
  | asking
  | checking (now : Int)
  | waiting (flight : Nat)
  | collecting (flight : Nat) (cfg : EffectiveConfig)
  | collected (flight : Nat) (outcome : Outcome)
  | returned (outcome : Outcome)
  | updating (req : ConfigUpdateRequest)
  | invalidating
  | updated

/-- What a turn is given: it goes on, a call that it makes fails, or its context is cancelled. -/
inductive Given
  | goes
  | fails (msg : String)
  | cancelled
  deriving Repr, DecidableEq

/-- What is cached and not too old. -/
def Module.current (s : Module) (now : Int) : Option Snapshot :=
  s.cachedSnapshot.filter fun snap => now - snap.sampledAt < (effectiveConfig s).refreshIntervalMS * 1000000

/-- The first part of the loop, behind the lock. -/
def check (now : Int) (s : Module) : Routine × Module :=
  match s.current now with
  | some snap => (.returned (.ok snap), s)
  | none =>
    match s.inFlight with
    | some flight => (.waiting flight, s)
    | none => (.collecting s.flights.length (effectiveConfig s),
        { s with flights := s.flights ++ [⟨s.snapshotGen, none⟩], inFlight := some s.flights.length })

/-- What a follower does with a flight that is done: a stale one makes it ask again. -/
def follow (flight : Nat) (s : Module) : Option (Routine × Module) := do
  let f ← s.flights[flight]?
  let outcome ← f.outcome
  return (if f.generation ≠ s.snapshotGen then .asking else .returned outcome, s)

/-- The last part of the loop, behind the lock. -/
def land (flight : Nat) (outcome : Outcome) (s : Module) : Option (Routine × Module) := do
  let f ← s.flights[flight]?
  let cached := match outcome with
    | .ok snap => if f.generation = s.snapshotGen then some snap else s.cachedSnapshot
    | .error _ => s.cachedSnapshot
  return (.returned outcome,
    { s with
      inFlight := if s.inFlight = some flight then none else s.inFlight
      cachedSnapshot := cached
      flights := s.flights.set flight { f with outcome := some outcome } })

/-- A configuration that cannot be written is taken back before the lock is let go. -/
def act (_ : Nat) (given : Given) (task : Routine) (s : Module) : Option (Routine × Module) :=
  match task, given with
  | .asking, .goes => some (.checking s.clock, s)
  | .checking now, .goes => some (check now s)
  | .waiting flight, .goes => follow flight s
  | .waiting _, .cancelled => some (.returned (.error .cancelled), s)
  | .collecting flight cfg, .goes => some (.collected flight (.ok ⟨cfg, s.clock, flight⟩), s)
  | .collecting flight _, .fails msg => some (.collected flight (.error (.collect msg)), s)
  | .collected flight outcome, .goes => land flight outcome s
  | .updating req, .goes => some (.invalidating, { s with config := req.submit s.config })
  | .updating _, .fails _ => some (.updated, s)
  | .invalidating, .goes => some (.updated, { s with cachedSnapshot := none, snapshotGen := s.snapshotGen + 1 })
  | _, _ => none

/-- Time passes. -/
def tick (elapsed : Nat) (s : Module) : Module := { s with clock := s.clock + elapsed }

def monitor : Stages Module Routine Given Nat := ⟨act, tick⟩

/-- Nothing was asked yet. -/
def Started (w : Staged Module Routine) : Prop :=
  w.threads = [] ∧ w.shared.cachedSnapshot = none ∧ w.shared.inFlight = none ∧ w.shared.flights = []

/-- Every task begins as a call or as an update. -/
def Begins (_ : Staged Module Routine) : Move Routine Given Nat → Prop
  | .start task => task = .asking ∨ ∃ req, task = .updating req
  | .turn _ _ | .outside _ => True

abbrev MonitorRuns : Staged Module Routine → List (Moved Module Routine Given Nat) → Prop := monitor.Runs Started Begins

/-! ## What is promised -/

/-- The collection that a task runs. -/
def Routine.running : Routine → Option Nat
  | .collecting flight _ | .collected flight _ => some flight
  | _ => none

def Running (w : Staged Module Routine) (i : Nat) : Prop := ∃ task, w.threads[i]? = some task ∧ task.running ≠ none

/-- The move that reads the configuration for a collection and starts it. -/
def Starts (d : Moved Module Routine Given Nat) (flight : Nat) (cfg : EffectiveConfig) : Prop :=
  ∃ i now, d.move = .turn i .goes ∧ d.pre.threads[i]? = some (.checking now) ∧ d.pre.shared.current now = none ∧
    d.pre.shared.inFlight = none ∧ flight = d.pre.shared.flights.length ∧ cfg = effectiveConfig d.pre.shared

/-- The move with which an update is done. -/
def Invalidates (d : Moved Module Routine Given Nat) : Prop := ∃ i, d.move = .turn i .goes ∧ d.pre.threads[i]? = some .invalidating

/-- Its collection was started, and its configuration read, by one of the newer moves and by none of the older. -/
def CollectedIn (newer older : List (Moved Module Routine Given Nat)) (snap : Snapshot) : Prop :=
  (∃ d ∈ newer, Starts d snap.flight snap.config) ∧ ∀ d ∈ older, ∀ cfg, ¬Starts d snap.flight cfg

/-- What holds after a run. A call that begins after a move is one that was not there before it. -/
structure SingleFlight (w : Staged Module Routine) (tr : List (Moved Module Routine Given Nat)) : Prop where
  single : ∀ i j, Running w i → Running w j → i = j
  fresh : ∀ newer d older, tr = newer ++ d :: older → Invalidates d → ∀ i snap, d.pre.threads.length ≤ i →
    w.threads[i]? = some (.returned (.ok snap)) → CollectedIn newer (d :: older) snap
  cache : ∀ newer d older, tr = newer ++ d :: older → Invalidates d → ∀ snap, w.shared.cachedSnapshot = some snap →
    CollectedIn newer (d :: older) snap
  served : (∀ i, ¬Running w i) → ∀ i task, w.threads[i]? = some task →
    (∀ flight, task = .waiting flight → ∃ w', monitor.step (.turn i .goes) w = some w') ∧
      (∀ now, task = .checking now → ∃ w', monitor.step (.turn i .goes) w = some w' ∧ ∀ flight, w'.threads[i]? ≠ some (.waiting flight))

/-! ## Turns -/

/-- Everything a turn can do. -/
inductive Turned (s : Module) : Given → Routine → Routine → Module → Prop
  | asked : Turned s .goes .asking (.checking s.clock) s
  | cached {now : Int} {snap : Snapshot} : s.current now = some snap → Turned s .goes (.checking now) (.returned (.ok snap)) s
  | joined {now : Int} {flight : Nat} : s.current now = none → s.inFlight = some flight → Turned s .goes (.checking now) (.waiting flight) s
  | started {now : Int} : s.current now = none → s.inFlight = none →
      Turned s .goes (.checking now) (.collecting s.flights.length (effectiveConfig s))
        { s with flights := s.flights ++ [⟨s.snapshotGen, none⟩], inFlight := some s.flights.length }
  | stale {flight : Nat} : Turned s .goes (.waiting flight) .asking s
  | followed {flight : Nat} {f : SnapshotFlight} {outcome : Outcome} : s.flights[flight]? = some f → f.outcome = some outcome →
      f.generation = s.snapshotGen → Turned s .goes (.waiting flight) (.returned outcome) s
  | gaveUp {flight : Nat} : Turned s .cancelled (.waiting flight) (.returned (.error .cancelled)) s
  | sampled {flight : Nat} {cfg : EffectiveConfig} :
      Turned s .goes (.collecting flight cfg) (.collected flight (.ok ⟨cfg, s.clock, flight⟩)) s
  | failed {flight : Nat} {cfg : EffectiveConfig} {msg : String} :
      Turned s (.fails msg) (.collecting flight cfg) (.collected flight (.error (.collect msg))) s
  | landed {flight : Nat} {f : SnapshotFlight} {outcome : Outcome} : s.flights[flight]? = some f →
      Turned s .goes (.collected flight outcome) (.returned outcome)
        { s with
          inFlight := if s.inFlight = some flight then none else s.inFlight
          cachedSnapshot := match outcome with
            | .ok snap => if f.generation = s.snapshotGen then some snap else s.cachedSnapshot
            | .error _ => s.cachedSnapshot
          flights := s.flights.set flight { f with outcome := some outcome } }
  | configured {req : ConfigUpdateRequest} : Turned s .goes (.updating req) .invalidating { s with config := req.submit s.config }
  | refused {req : ConfigUpdateRequest} {msg : String} : Turned s (.fails msg) (.updating req) .updated s
  | invalidated : Turned s .goes .invalidating .updated { s with cachedSnapshot := none, snapshotGen := s.snapshotGen + 1 }

theorem act_turned {i : Nat} {given : Given} {task task' : Routine} {s s' : Module} (h : act i given task s = some (task', s')) :
    Turned s given task task' s' := by
  unfold act at h
  split at h
  · cases h
    exact .asked
  · rename_i now
    have hcheck := Option.some.inj h
    unfold check at hcheck
    split at hcheck
    · cases hcheck
      exact .cached (by assumption)
    · split at hcheck
      · cases hcheck
        exact .joined (by assumption) (by assumption)
      · cases hcheck
        exact .started (by assumption) (by assumption)
  · rename_i flight
    obtain ⟨f, hf, hrest⟩ := Option.bind_eq_some_iff.1 h
    obtain ⟨outcome, houtcome, hpair⟩ := Option.bind_eq_some_iff.1 hrest
    obtain ⟨htask, rfl⟩ := Prod.mk.inj (Option.some.inj hpair)
    split at htask
    · cases htask
      exact .stale
    · rename_i hgen
      cases htask
      exact .followed hf houtcome (not_not.1 hgen)
  · cases h
    exact .gaveUp
  · cases h
    exact .sampled
  · cases h
    exact .failed
  · obtain ⟨f, hf, hpair⟩ := Option.bind_eq_some_iff.1 h
    cases hpair
    exact .landed hf
  · cases h
    exact .configured
  · cases h
    exact .refused
  · cases h
    exact .invalidated
  · cases h

end Purdex.Monitor
