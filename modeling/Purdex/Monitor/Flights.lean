/-
Collections of the monitor over whole runs: one at a time, each with the configuration that was read for it, and nobody is left behind
by one that is over.
-/
import Purdex.Monitor.Snapshot

namespace Purdex.Monitor

open Conc

/-! ## One at a time -/

/-- The flight that is on belongs to the one task that runs, and the others are done. -/
structure Sound (w : Staged Module Routine) : Prop where
  running : ∀ (i : Nat) (task : Routine) flight, w.threads[i]? = some task → task.running = some flight → w.shared.inFlight = some flight
  single : ∀ i j, Running w i → Running w j → i = j
  owner : ∀ flight, w.shared.inFlight = some flight → ∃ i, Running w i
  flying : ∀ flight : Nat, w.shared.inFlight = some flight → ∃ f, w.shared.flights[flight]? = some f
  done : ∀ (flight : Nat) f, w.shared.flights[flight]? = some f → w.shared.inFlight ≠ some flight → f.outcome ≠ none
  waits : ∀ (i : Nat) flight, w.threads[i]? = some (Routine.waiting flight) → ∃ f, w.shared.flights[flight]? = some f

section Single

variable {w w' : Staged Module Routine} {s' : Module} {i : Nat} {given : Given} {task task' : Routine} {mv : Move Routine Given Nat}

theorem sound_started (h : Started w) : Sound w := by
  obtain ⟨hthreads, -, hnone, hflights⟩ := h
  refine ⟨?_, ?_, ?_, ?_, ?_, ?_⟩
  · simp [hthreads]
  · simp [Running, hthreads]
  · simp [hnone]
  · simp [hnone]
  · simp [hflights]
  · simp [hthreads]

/-- A task that is not running has no collection to itself. -/
theorem running_of_set (hget : w.threads[i]? = some task) {j : Nat} :
    Running ⟨s', w.threads.set i task'⟩ j ↔ if i = j then task'.running ≠ none else Running w j := by
  unfold Running
  rw [getElem?_set_of_some hget]
  split
  · exact ⟨fun ⟨_, heq, hrun⟩ => Option.some.inj heq ▸ hrun, fun hrun => ⟨_, rfl, hrun⟩⟩
  · rfl

/-- A turn that leaves the flights as they are. -/
theorem Sound.keep (h : Sound w) (hget : w.threads[i]? = some task) (hrun : task'.running = task.running)
    (hflight : s'.inFlight = w.shared.inFlight) (hflights : s'.flights = w.shared.flights)
    (hwait : ∀ flight, task' = .waiting flight → ∃ f, w.shared.flights[flight]? = some f) : Sound ⟨s', w.threads.set i task'⟩ := by
  have hsame : ∀ j, Running ⟨s', w.threads.set i task'⟩ j ↔ Running w j := by
    intro j
    rw [running_of_set hget]
    split
    · rename_i hij
      subst hij
      rw [hrun]
      exact ⟨fun hne => ⟨task, hget, hne⟩, fun ⟨_, heq, hne⟩ => Option.some.inj (hget.symm.trans heq) ▸ hne⟩
    · rfl
  refine ⟨fun j u flight hu hflightu => ?_, fun j k hj hk => ?_, fun flight hon => ?_, ?_, ?_, fun j flight hu => ?_⟩
  · rw [hflight]
    rw [getElem?_set_of_some hget] at hu
    split at hu
    · obtain rfl := Option.some.inj hu
      exact h.running i task flight hget (hrun ▸ hflightu)
    · exact h.running j u flight hu hflightu
  · exact h.single j k ((hsame j).1 hj) ((hsame k).1 hk)
  · obtain ⟨j, hj⟩ := h.owner flight (hflight ▸ hon)
    exact ⟨j, (hsame j).2 hj⟩
  · rw [hflight, hflights]
    exact h.flying
  · rw [hflight, hflights]
    exact h.done
  · rw [hflights]
    rw [getElem?_set_of_some hget] at hu
    split at hu
    · exact hwait flight (Option.some.inj hu)
    · exact h.waits j flight hu

theorem Sound.idle (h : Sound w) (hnone : w.shared.inFlight = none) (j : Nat) : ¬Running w j := by
  rintro ⟨u, hu, hrun⟩
  obtain ⟨flight, hflight⟩ := Option.ne_none_iff_exists'.1 hrun
  have hon := h.running j u flight hu hflight
  rw [hnone] at hon
  cases hon

/-- A collection starts where none is on. -/
theorem Sound.start (h : Sound w) {now : Int} (hget : w.threads[i]? = some (.checking now)) (hnone : w.shared.inFlight = none)
    (cfg : EffectiveConfig) : Sound ⟨{ w.shared with
      flights := w.shared.flights ++ [⟨w.shared.snapshotGen, none⟩], inFlight := some w.shared.flights.length },
      w.threads.set i (.collecting w.shared.flights.length cfg)⟩ := by
  have honly : ∀ {s' : Module} j, Running ⟨s', w.threads.set i (.collecting w.shared.flights.length cfg)⟩ j → i = j := by
    intro s' j hj
    rw [running_of_set hget] at hj
    split at hj
    · assumption
    · exact absurd hj (h.idle hnone j)
  refine ⟨fun j u flight hu hflight => ?_, fun j k hj hk => (honly j hj).symm.trans (honly k hk), fun flight _ => ⟨i, ?_⟩, ?_, ?_, ?_⟩
  · have hij : i = j := @honly w.shared j ⟨u, hu, fun hnone' => by rw [hnone'] at hflight; cases hflight⟩
    subst hij
    rw [getElem?_set_of_some hget, if_pos rfl] at hu
    obtain rfl := Option.some.inj hu
    exact hflight
  · rw [running_of_set hget, if_pos rfl]
    exact nofun
  · intro flight hon
    obtain rfl := Option.some.inj hon
    exact ⟨_, List.getElem?_concat_length⟩
  · intro flight f hf hne
    rcases of_getElem?_append hf with hf | ⟨rfl, rfl⟩
    · exact h.done flight f hf (by rw [hnone]; exact nofun)
    · exact absurd rfl hne
  · intro j flight hu
    rw [getElem?_set_of_some hget] at hu
    split at hu
    · cases hu
    · obtain ⟨f, hf⟩ := h.waits j flight hu
      exact ⟨f, getElem?_append_of_some hf⟩

/-- The collection that is on is over. -/
theorem Sound.land (h : Sound w) {flight : Nat} {outcome : Outcome} {f : SnapshotFlight}
    (hget : w.threads[i]? = some (.collected flight outcome)) (hf : w.shared.flights[flight]? = some f) (cached : Option Snapshot) :
    Sound ⟨{ w.shared with
      inFlight := if w.shared.inFlight = some flight then none else w.shared.inFlight
      cachedSnapshot := cached
      flights := w.shared.flights.set flight { f with outcome := some outcome } }, w.threads.set i (.returned outcome)⟩ := by
  have hon := h.running i _ flight hget rfl
  have hidle : ∀ {s' : Module} j, ¬Running ⟨s', w.threads.set i (.returned outcome)⟩ j := by
    intro s' j hj
    rw [running_of_set hget] at hj
    split at hj
    · exact hj rfl
    · rename_i hij
      exact hij (h.single i j ⟨_, hget, nofun⟩ hj)
  refine ⟨fun j u flight' hu hflight => ?_, fun j _ hj => absurd hj (hidle j), fun flight' hflight => ?_, fun flight' hflight => ?_, ?_, ?_⟩
  · exact absurd ⟨u, hu, fun hnone => by rw [hnone] at hflight; cases hflight⟩ (@hidle w.shared j)
  · rw [if_pos hon] at hflight
    cases hflight
  · rw [if_pos hon] at hflight
    cases hflight
  · intro flight' f' hf' _
    rw [getElem?_set_of_some hf] at hf'
    split at hf'
    · obtain rfl := Option.some.inj hf'
      exact nofun
    · rename_i hne
      exact h.done flight' f' hf' (by rw [hon]; exact fun heq => hne (Option.some.inj heq))
  · intro j flight' hu
    rw [getElem?_set_of_some hget] at hu
    split at hu
    · cases hu
    · obtain ⟨f', hf'⟩ := h.waits j flight' hu
      rw [getElem?_set_of_some hf]
      split
      · exact ⟨_, rfl⟩
      · exact ⟨f', hf'⟩

theorem Sound.turn (h : Sound w) (hget : w.threads[i]? = some task) (hturn : Turned w.shared given task task' s') :
    Sound ⟨s', w.threads.set i task'⟩ := by
  cases hturn with
  | joined _ hon => exact h.keep hget rfl rfl rfl fun flight heq => by cases heq; exact h.flying _ hon
  | started _ hnone => exact h.start hget hnone _
  | landed hf => exact h.land hget hf _
  | asked | cached | stale | followed | gaveUp | sampled | failed | configured | refused | invalidated =>
    exact h.keep hget rfl rfl rfl nofun

theorem Sound.step (h : Sound w) (hok : Begins w mv) (hst : monitor.step mv w = some w') : Sound w' := by
  rcases Stages.step_cases hst with ⟨t, rfl, rfl⟩ | ⟨i, given, task, task', s', rfl, hget, hact, rfl⟩ | ⟨elapsed, rfl, rfl⟩
  · have hrun : t.running = none := by rcases hok with rfl | ⟨_, rfl⟩ <;> rfl
    have hnew : ∀ flight, t ≠ .waiting flight := by
      rcases hok with rfl | ⟨_, rfl⟩ <;> exact fun _ => nofun
    have hold : ∀ j, Running ⟨w.shared, w.threads ++ [t]⟩ j → Running w j := by
      rintro j ⟨u, hu, hne⟩
      rcases of_getElem?_append hu with hu | ⟨-, rfl⟩
      · exact ⟨u, hu, hne⟩
      · exact absurd hrun hne
    refine ⟨fun j u flight hu hflight => ?_, fun j k hj hk => h.single j k (hold j hj) (hold k hk), fun flight hon => ?_, h.flying, h.done,
      fun j flight hu => ?_⟩
    · rcases of_getElem?_append hu with hu | ⟨-, rfl⟩
      · exact h.running j u flight hu hflight
      · rw [hrun] at hflight
        cases hflight
    · obtain ⟨j, u, hu, hne⟩ := h.owner flight hon
      exact ⟨j, u, getElem?_append_of_some hu, hne⟩
    · rcases of_getElem?_append hu with hu | ⟨-, heq⟩
      · exact h.waits j flight hu
      · exact absurd heq.symm (hnew flight)
  · exact h.turn hget (act_turned (show act i given task w.shared = some (task', s') from hact))
  · exact ⟨h.running, h.single, h.owner, h.flying, h.done, h.waits⟩

theorem runs_sound {tr : List (Moved Module Routine Given Nat)} (hr : MonitorRuns w tr) : Sound w :=
  hr.invariant (P := fun w _ => Sound w) (fun _ => sound_started) fun _ _ _ _ _ ih hok hst => ih.step hok hst

/-- Where no collection runs, none is waited for. -/
theorem Sound.served (h : Sound w) (hidle : ∀ i, ¬Running w i) (hget : w.threads[i]? = some task) :
    (∀ flight, task = .waiting flight → ∃ w', monitor.step (.turn i .goes) w = some w') ∧
      (∀ now, task = .checking now → ∃ w', monitor.step (.turn i .goes) w = some w' ∧ ∀ flight, w'.threads[i]? ≠ some (.waiting flight)) := by
  have hnone : w.shared.inFlight = none := by
    cases hon : w.shared.inFlight with
    | none => rfl
    | some flight =>
      obtain ⟨j, hj⟩ := h.owner flight hon
      exact absurd hj (hidle j)
  constructor
  · rintro flight rfl
    obtain ⟨f, hf⟩ := h.waits i flight hget
    obtain ⟨outcome, houtcome⟩ := Option.ne_none_iff_exists'.1 (h.done flight f hf (by rw [hnone]; exact nofun))
    have hfollow : act i .goes (.waiting flight) w.shared =
        some (if f.generation ≠ w.shared.snapshotGen then .asking else .returned outcome, w.shared) := by
      change follow flight w.shared = _
      rw [follow, hf, Option.bind_eq_bind, Option.bind_some, houtcome]
      rfl
    exact ⟨_, Stages.step_turn hget hfollow⟩
  · rintro now rfl
    have hcheck : act i .goes (.checking now) w.shared = some ((check now w.shared).1, (check now w.shared).2) := rfl
    refine ⟨_, Stages.step_turn hget hcheck, fun flight => ?_⟩
    rw [getElem?_set_of_some hget, if_pos rfl, check]
    split
    · exact nofun
    · rw [hnone]
      exact nofun

end Single

/-! ## Where a snapshot comes from -/

def Known (tr : List (Moved Module Routine Given Nat)) (flight : Nat) (cfg : EffectiveConfig) : Prop := ∃ d ∈ tr, Starts d flight cfg

/-- What a routine has of a collection was started for it, with that configuration. -/
def Routine.Sourced (tr : List (Moved Module Routine Given Nat)) : Routine → Prop
  | .collecting flight cfg => Known tr flight cfg
  | .collected flight (.ok snap) => snap.flight = flight ∧ Known tr snap.flight snap.config
  | .returned (.ok snap) => Known tr snap.flight snap.config
  | _ => True

structure Sourced (w : Staged Module Routine) (tr : List (Moved Module Routine Given Nat)) : Prop where
  cached : ∀ snap, w.shared.cachedSnapshot = some snap → Known tr snap.flight snap.config
  landed : ∀ (flight : Nat) f snap, w.shared.flights[flight]? = some f → f.outcome = some (.ok snap) →
    snap.flight = flight ∧ Known tr snap.flight snap.config
  routines : ∀ (i : Nat) task, w.threads[i]? = some task → task.Sourced tr
  gens : ∀ (flight : Nat) f, w.shared.flights[flight]? = some f → f.generation ≤ w.shared.snapshotGen
  bound : ∀ d ∈ tr, ∀ flight cfg, Starts d flight cfg → flight < w.shared.flights.length

section Sources

variable {w w' : Staged Module Routine} {s' : Module} {i : Nat} {given : Given} {task task' : Routine} {mv : Move Routine Given Nat}
  {tr : List (Moved Module Routine Given Nat)} {d : Moved Module Routine Given Nat} {flight : Nat} {cfg : EffectiveConfig}

theorem Known.cons (h : Known tr flight cfg) : Known (d :: tr) flight cfg := by
  obtain ⟨d', hd', hstarts⟩ := h
  exact ⟨d', List.mem_cons_of_mem _ hd', hstarts⟩

theorem Routine.Sourced.cons (h : task.Sourced tr) : task.Sourced (d :: tr) := by
  unfold Routine.Sourced at h ⊢
  split at h
  · exact h.cons
  · exact ⟨h.1, h.2.cons⟩
  · exact h.cons
  · trivial

theorem sourced_started (h : Started w) : Sourced w [] := by
  obtain ⟨hthreads, hcached, -, hflights⟩ := h
  refine ⟨?_, ?_, ?_, ?_, fun d hd => absurd hd List.not_mem_nil⟩
  · simp [hcached]
  · simp [hflights]
  · simp [hthreads]
  · simp [hflights]

theorem starts_checking (h : Starts d flight cfg) : ∃ i now, d.move = .turn i .goes ∧ d.pre.threads[i]? = some (.checking now) := by
  obtain ⟨i, now, hmove, hget, _⟩ := h
  exact ⟨i, now, hmove, hget⟩

/-- A turn that starts no collection, and leaves the flights as they are. -/
theorem Sourced.keep (h : Sourced w tr) (hget : w.threads[i]? = some task) (htask : task'.Sourced tr)
    (hcached : s'.cachedSnapshot = w.shared.cachedSnapshot ∨ s'.cachedSnapshot = none) (hflights : s'.flights = w.shared.flights)
    (hgen : w.shared.snapshotGen ≤ s'.snapshotGen) (hstarts : ∀ flight cfg, ¬Starts ⟨.turn i given, w⟩ flight cfg) :
    Sourced ⟨s', w.threads.set i task'⟩ (⟨.turn i given, w⟩ :: tr) := by
  refine ⟨fun snap hsnap => ?_, fun flight f snap hf hout => ?_, fun j u hu => ?_, fun flight f hf => ?_, ?_⟩
  · rcases hcached with heq | heq
    · exact (h.cached snap (heq ▸ hsnap)).cons
    · rw [heq] at hsnap
      cases hsnap
  · rw [hflights] at hf
    obtain ⟨heq, hknown⟩ := h.landed flight f snap hf hout
    exact ⟨heq, hknown.cons⟩
  · rw [getElem?_set_of_some hget] at hu
    split at hu
    · exact Option.some.inj hu ▸ htask.cons
    · exact (h.routines j u hu).cons
  · rw [hflights] at hf
    exact (h.gens flight f hf).trans hgen
  · rintro d' (_ | ⟨_, hd'⟩) flight cfg hstart
    · exact absurd hstart (hstarts flight cfg)
    · rw [hflights]
      exact h.bound d' hd' flight cfg hstart

theorem not_starts (hget : w.threads[i]? = some task) (h : ∀ now, task ≠ .checking now) (flight : Nat) (cfg : EffectiveConfig) :
    ¬Starts ⟨.turn i given, w⟩ flight cfg := by
  intro hstarts
  obtain ⟨j, now, hmove, hchecking⟩ := starts_checking hstarts
  cases hmove
  exact h now (Option.some.inj (hget.symm.trans hchecking))

theorem Sourced.turn (h : Sourced w tr) (hget : w.threads[i]? = some task) (hturn : Turned w.shared given task task' s') :
    Sourced ⟨s', w.threads.set i task'⟩ (⟨.turn i given, w⟩ :: tr) := by
  have hown := h.routines i task hget
  cases hturn with
  | asked | stale | gaveUp | configured | refused | failed =>
    exact h.keep hget trivial (.inl rfl) rfl le_rfl (not_starts hget nofun)
  | invalidated => exact h.keep hget trivial (.inr rfl) rfl (Nat.le_succ _) (not_starts hget nofun)
  | sampled => exact h.keep hget ⟨rfl, hown⟩ (.inl rfl) rfl le_rfl (not_starts hget nofun)
  | followed hf hout hgen =>
    refine h.keep hget ?_ (.inl rfl) rfl le_rfl (not_starts hget nofun)
    rename_i outcome
    cases outcome with
    | error e => trivial
    | ok snap => exact (h.landed _ _ snap hf hout).2
  | @cached now snap hcurrent =>
    refine h.keep hget ?_ (.inl rfl) rfl le_rfl ?_
    · exact h.cached snap ((Option.filter_eq_some_iff.1 hcurrent).1)
    · rintro flight cfg ⟨j, now', hmove, hget', hnone, -⟩
      change w.shared.current now' = none at hnone
      cases hmove
      obtain ⟨⟩ := Option.some.inj (hget.symm.trans hget')
      rw [hnone] at hcurrent
      cases hcurrent
  | @joined now flight' _ hon =>
    refine h.keep hget trivial (.inl rfl) rfl le_rfl ?_
    rintro flight cfg ⟨j, now', hmove, hget', -, hnone, -⟩
    change w.shared.inFlight = none at hnone
    rw [hnone] at hon
    cases hon
  | @started now hnone hidle =>
    have hstarts : Starts ⟨.turn i .goes, w⟩ w.shared.flights.length (effectiveConfig w.shared) := ⟨i, now, rfl, hget, hnone, hidle, rfl, rfl⟩
    refine ⟨fun snap hsnap => (h.cached snap hsnap).cons, fun flight f snap hf hout => ?_, fun j u hu => ?_, fun flight f hf => ?_, ?_⟩
    · rcases of_getElem?_append hf with hf | ⟨rfl, rfl⟩
      · obtain ⟨heq, hknown⟩ := h.landed flight f snap hf hout
        exact ⟨heq, hknown.cons⟩
      · cases hout
    · rw [getElem?_set_of_some hget] at hu
      split at hu
      · exact Option.some.inj hu ▸ ⟨_, List.mem_cons_self, hstarts⟩
      · exact (h.routines j u hu).cons
    · rcases of_getElem?_append hf with hf | ⟨rfl, rfl⟩
      · exact h.gens flight f hf
      · exact le_rfl
    · rintro d' (_ | ⟨_, hd'⟩) flight cfg hstart
      · obtain ⟨_, _, _, _, _, _, rfl, _⟩ := hstart
        simp
      · have hlt := h.bound d' hd' flight cfg hstart
        simp only [List.length_append, List.length_singleton]
        omega
  | @landed flight f outcome hf =>
    refine ⟨fun snap hsnap => ?_, fun flight' f' snap hf' hout => ?_, fun j u hu => ?_, fun flight' f' hf' => ?_, ?_⟩
    · cases outcome with
      | error e => exact (h.cached snap hsnap).cons
      | ok snap' =>
        change (if f.generation = w.shared.snapshotGen then some snap' else w.shared.cachedSnapshot) = some snap at hsnap
        split at hsnap
        · obtain rfl := Option.some.inj hsnap
          exact hown.2.cons
        · exact (h.cached snap hsnap).cons
    · rw [getElem?_set_of_some hf] at hf'
      split at hf'
      · rename_i hsame
        obtain rfl := Option.some.inj hf'
        obtain rfl := Option.some.inj hout
        exact ⟨hown.1.trans hsame, hown.2.cons⟩
      · obtain ⟨heq, hknown⟩ := h.landed flight' f' snap hf' hout
        exact ⟨heq, hknown.cons⟩
    · rw [getElem?_set_of_some hget] at hu
      split at hu
      · obtain rfl := Option.some.inj hu
        cases outcome with
        | error e => trivial
        | ok snap => exact hown.2.cons
      · exact (h.routines j u hu).cons
    · rw [getElem?_set_of_some hf] at hf'
      split at hf'
      · obtain rfl := Option.some.inj hf'
        exact h.gens flight f hf
      · exact h.gens flight' f' hf'
    · rintro d' (_ | ⟨_, hd'⟩) flight' cfg hstart
      · exact absurd hstart (not_starts hget nofun flight' cfg)
      · rw [List.length_set]
        exact h.bound d' hd' flight' cfg hstart

theorem runs_sourced (hr : MonitorRuns w tr) : Sourced w tr := by
  refine hr.invariant (fun _ => sourced_started) fun w w' tr mv _ ih hok hst => ?_
  rcases Stages.step_cases hst with ⟨t, rfl, rfl⟩ | ⟨i, given, task, task', s', rfl, hget, hact, rfl⟩ | ⟨elapsed, rfl, rfl⟩
  · have hnew : t.Sourced (⟨.start t, w⟩ :: tr) := by rcases hok with rfl | ⟨_, rfl⟩ <;> trivial
    refine ⟨fun snap hsnap => (ih.cached snap hsnap).cons, fun flight f snap hf hout => ?_, fun j u hu => ?_, ih.gens, ?_⟩
    · obtain ⟨heq, hknown⟩ := ih.landed flight f snap hf hout
      exact ⟨heq, hknown.cons⟩
    · rcases of_getElem?_append hu with hu | ⟨-, rfl⟩
      · exact (ih.routines j u hu).cons
      · exact hnew
    · rintro d' (_ | ⟨_, hd'⟩) flight cfg hstart
      · obtain ⟨_, _, hmove, _⟩ := starts_checking hstart
        cases hmove
      · exact ih.bound d' hd' flight cfg hstart
  · exact ih.turn hget (act_turned (show act i given task w.shared = some (task', s') from hact))
  · refine ⟨fun snap hsnap => (ih.cached snap hsnap).cons, fun flight f snap hf hout => ?_, fun j u hu => (ih.routines j u hu).cons, ih.gens, ?_⟩
    · obtain ⟨heq, hknown⟩ := ih.landed flight f snap hf hout
      exact ⟨heq, hknown.cons⟩
    · rintro d' (_ | ⟨_, hd'⟩) flight cfg hstart
      · obtain ⟨_, _, hmove, _⟩ := starts_checking hstart
        cases hmove
      · exact ih.bound d' hd' flight cfg hstart

end Sources

/-! ## Behind an invalidation -/

/-- What a routine has of a collection is of one from `n` on. -/
def Routine.From (n : Nat) : Routine → Prop
  | .collecting flight _ | .collected flight _ => n ≤ flight
  | .returned (.ok snap) => n ≤ snap.flight
  | _ => True

/-- There were `k` routines and `n` flights, none of a generation above `g`, when the generation became a newer one. -/
structure Behind (k n g : Nat) (w : Staged Module Routine) : Prop where
  gen : g < w.shared.snapshotGen
  older : ∀ (flight : Nat) f, w.shared.flights[flight]? = some f → flight < n → f.generation ≤ g
  length : n ≤ w.shared.flights.length
  cached : ∀ snap, w.shared.cachedSnapshot = some snap → n ≤ snap.flight
  routines : ∀ (i : Nat) task, k ≤ i → w.threads[i]? = some task → task.From n

section Fresh

variable {w w' : Staged Module Routine} {s' : Module} {i k n g : Nat} {given : Given} {task task' : Routine} {mv : Move Routine Given Nat}
  {tr newer older : List (Moved Module Routine Given Nat)} {d : Moved Module Routine Given Nat}

/-- A flight of the current generation is one from `n` on. -/
theorem Behind.from_current (h : Behind k n g w) {flight : Nat} {f : SnapshotFlight} (hf : w.shared.flights[flight]? = some f)
    (hgen : f.generation = w.shared.snapshotGen) : n ≤ flight := by
  by_contra hlt
  have hle := h.older flight f hf (by omega)
  have hnew := h.gen
  omega

theorem Behind.keep (h : Behind k n g w) (hget : w.threads[i]? = some task) (htask : k ≤ i → task'.From n)
    (hcached : s'.cachedSnapshot = w.shared.cachedSnapshot ∨ s'.cachedSnapshot = none) (hflights : s'.flights = w.shared.flights)
    (hgen : w.shared.snapshotGen ≤ s'.snapshotGen) : Behind k n g ⟨s', w.threads.set i task'⟩ := by
  refine ⟨lt_of_lt_of_le h.gen hgen, ?_, ?_, fun snap hsnap => ?_, fun j u hj hu => ?_⟩
  · rw [hflights]
    exact h.older
  · rw [hflights]
    exact h.length
  · rcases hcached with heq | heq
    · exact h.cached snap (heq ▸ hsnap)
    · rw [heq] at hsnap
      cases hsnap
  · rw [getElem?_set_of_some hget] at hu
    split at hu
    · rename_i hij
      exact Option.some.inj hu ▸ htask (hij ▸ hj)
    · exact h.routines j u hj hu

theorem Behind.turn (h : Behind k n g w) (hsourced : Sourced w tr) (hget : w.threads[i]? = some task)
    (hturn : Turned w.shared given task task' s') : Behind k n g ⟨s', w.threads.set i task'⟩ := by
  have hown := hsourced.routines i task hget
  cases hturn with
  | asked | stale | gaveUp | configured | refused | joined => exact h.keep hget (fun _ => trivial) (.inl rfl) rfl le_rfl
  | invalidated => exact h.keep hget (fun _ => trivial) (.inr rfl) rfl (Nat.le_succ _)
  | @sampled flight _ | @failed flight _ _ =>
    exact h.keep hget (fun hk => show n ≤ flight from h.routines i _ hk hget) (.inl rfl) rfl le_rfl
  | cached hcurrent => exact h.keep hget (fun _ => h.cached _ (Option.eq_some_of_filter_eq_some hcurrent)) (.inl rfl) rfl le_rfl
  | @followed flight f outcome hf hout hgen =>
    refine h.keep hget (fun _ => ?_) (.inl rfl) rfl le_rfl
    cases outcome with
    | error e => trivial
    | ok snap =>
      have hfrom := h.from_current hf hgen
      rw [← (hsourced.landed flight f snap hf hout).1] at hfrom
      exact hfrom
  | started _ _ =>
    refine ⟨h.gen, fun flight f hf hlt => ?_, ?_, h.cached, fun j u hj hu => ?_⟩
    · rcases of_getElem?_append hf with hf | ⟨rfl, rfl⟩
      · exact h.older flight f hf hlt
      · exact absurd hlt (Nat.not_lt.2 h.length)
    · rw [List.length_append]
      exact h.length.trans (Nat.le_add_right _ _)
    · rw [getElem?_set_of_some hget] at hu
      split at hu
      · exact Option.some.inj hu ▸ h.length
      · exact h.routines j u hj hu
  | @landed flight f outcome hf =>
    refine ⟨h.gen, fun flight' f' hf' hlt => ?_, ?_, fun snap hsnap => ?_, fun j u hj hu => ?_⟩
    · rw [getElem?_set_of_some hf] at hf'
      split at hf'
      · rename_i hsame
        obtain rfl := Option.some.inj hf'
        exact h.older flight f hf (hsame ▸ hlt)
      · exact h.older flight' f' hf' hlt
    · rw [List.length_set]
      exact h.length
    · cases outcome with
      | error e => exact h.cached snap hsnap
      | ok snap' =>
        change (if f.generation = w.shared.snapshotGen then some snap' else w.shared.cachedSnapshot) = some snap at hsnap
        split at hsnap
        · rename_i hgen
          obtain rfl := Option.some.inj hsnap
          exact hown.1 ▸ h.from_current hf hgen
        · exact h.cached snap hsnap
    · rw [getElem?_set_of_some hget] at hu
      split at hu
      · rename_i hij
        obtain rfl := Option.some.inj hu
        cases outcome with
        | error e => trivial
        | ok snap =>
          have hfrom : n ≤ flight := h.routines i _ (hij ▸ hj) hget
          rw [← hown.1] at hfrom
          exact hfrom
      · exact h.routines j u hj hu

/-- Once an update was made known, all there is from then on is of collections that were started from then on. -/
theorem behind_of_run (hr : MonitorRuns w (newer ++ d :: older)) (hinv : Invalidates d) :
    Behind d.pre.threads.length d.pre.shared.flights.length d.pre.shared.snapshotGen w := by
  generalize htr : newer ++ d :: older = tr at hr
  induction hr generalizing newer with
  | init _ => simp at htr
  | @step w w' tr mv hr hok hst ih =>
    cases newer with
    | nil =>
      obtain ⟨rfl, rfl⟩ := List.cons.inj htr
      obtain ⟨i, hmove, hget⟩ := hinv
      obtain rfl : mv = .turn i .goes := hmove
      rcases Stages.step_cases hst with ⟨_, hmv, _⟩ | ⟨_, _, task, task', s', hmv, hget', hact, rfl⟩ | ⟨_, hmv, _⟩
      · cases hmv
      · cases hmv
        obtain rfl := Option.some.inj (hget.symm.trans hget')
        have hturned := act_turned (show act i .goes .invalidating w.shared = some (task', s') from hact)
        cases hturned
        refine ⟨Nat.lt_succ_self _, fun flight f hf _ => (runs_sourced hr).gens flight f hf, le_rfl, fun snap hsnap => ?_, fun j u hj hu => ?_⟩
        · cases hsnap
        have hlt := (List.getElem?_eq_some_iff.1 hu).1
        rw [List.length_set] at hlt
        exact absurd hlt (Nat.not_lt.2 hj)
      · cases hmv
    | cons d' newer =>
      obtain ⟨-, hrest⟩ := List.cons.inj htr
      have hbehind := ih hrest
      rcases Stages.step_cases hst with ⟨t, rfl, rfl⟩ | ⟨i, given, task, task', s', rfl, hget, hact, rfl⟩ | ⟨elapsed, rfl, rfl⟩
      · refine ⟨hbehind.gen, hbehind.older, hbehind.length, hbehind.cached, fun j u hj hu => ?_⟩
        rcases of_getElem?_append hu with hu | ⟨-, rfl⟩
        · exact hbehind.routines j u hj hu
        · rcases hok with rfl | ⟨_, rfl⟩ <;> trivial
      · exact hbehind.turn (runs_sourced hr) hget (act_turned (show act i given task w.shared = some (task', s') from hact))
      · exact ⟨hbehind.gen, hbehind.older, hbehind.length, hbehind.cached, hbehind.routines⟩

theorem not_starts_of_invalidates (hinv : Invalidates d) (flight : Nat) (cfg : EffectiveConfig) : ¬Starts d flight cfg := by
  obtain ⟨i, hmove, hget⟩ := hinv
  rintro ⟨j, now, hmove', hget', -⟩
  cases hmove.symm.trans hmove'
  cases hget.symm.trans hget'

/-- A collection from then on was started by a newer move, and by no older one. -/
theorem collectedIn_of_from (hr : MonitorRuns w (newer ++ d :: older)) (hinv : Invalidates d) {snap : Snapshot}
    (hfrom : d.pre.shared.flights.length ≤ snap.flight) (hknown : Known (newer ++ d :: older) snap.flight snap.config) :
    CollectedIn newer (d :: older) snap := by
  have hold : ∀ d' ∈ d :: older, ∀ cfg, ¬Starts d' snap.flight cfg := by
    rintro d' (_ | ⟨_, hd'⟩) cfg hstart
    · exact not_starts_of_invalidates hinv _ _ hstart
    · have hlt := (runs_sourced (hr.of_append rfl).1).bound d' hd' snap.flight cfg hstart
      omega
  refine ⟨?_, hold⟩
  obtain ⟨d', hd', hstarts⟩ := hknown
  rcases List.mem_append.1 hd' with hd' | hd'
  · exact ⟨d', hd', hstarts⟩
  · exact absurd hstarts (hold d' hd' _)

/-- Every run keeps what is promised. -/
theorem runs_singleFlight (hr : MonitorRuns w tr) : SingleFlight w tr where
  single := (runs_sound hr).single
  fresh newer d older htr hinv i snap hi hget := by
    subst htr
    exact collectedIn_of_from hr hinv ((behind_of_run hr hinv).routines i _ hi hget) ((runs_sourced hr).routines i _ hget)
  cache newer d older htr hinv snap hsnap := by
    subst htr
    exact collectedIn_of_from hr hinv ((behind_of_run hr hinv).cached snap hsnap) ((runs_sourced hr).cached snap hsnap)
  served hidle i task hget := (runs_sound hr).served hidle hget

end Fresh

/-! ## A run -/

/-- Calls and updates are the only routines that begin. -/
def begins (_ : Staged Module Routine) : Move Routine Given Nat → Bool
  | .start .asking | .start (.updating _) | .turn _ _ | .outside _ => true
  | .start _ => false

theorem begins_of_bool (w : Staged Module Routine) (mv : Move Routine Given Nat) (h : begins w mv = true) : Begins w mv := by
  unfold begins at h
  split at h
  · exact .inl rfl
  · exact .inr ⟨_, rfl⟩
  · trivial
  · trivial
  · cases h

def idleMonitor : Staged Module Routine := ⟨⟨⟨0, 0⟩, 0, none, none, 0, []⟩, []⟩

/-- One caller collects and another waits for it, the configuration is updated meanwhile, and the one that waited collects anew. -/
def updatedMeanwhile : List (Move Routine Given Nat) :=
  [.start .asking, .start .asking, .turn 0 .goes, .turn 0 .goes, .turn 1 .goes, .outside 3, .turn 1 .goes,
    .start (.updating ⟨some 2000, none⟩), .turn 2 .goes, .turn 2 .goes, .turn 0 .goes, .turn 0 .goes,
    .turn 1 .goes, .turn 1 .goes, .turn 1 .goes, .turn 1 .goes, .turn 1 .goes]

theorem runs_singleFlight_updatedMeanwhile : ∃ w tr, monitor.play begins updatedMeanwhile idleMonitor [] = some (w, tr) ∧
    w.shared.cachedSnapshot = some ⟨⟨2000, 10⟩, 3, 1⟩ ∧ w.shared.inFlight = none ∧ SingleFlight w tr := by
  have hran : (monitor.play begins updatedMeanwhile idleMonitor []).any (fun r =>
      r.1.shared.cachedSnapshot = some ⟨⟨2000, 10⟩, 3, 1⟩ ∧ r.1.shared.inFlight = none) = true := by decide
  obtain ⟨⟨w, tr⟩, hplay, hdone⟩ := (Option.any_eq_true _ _).1 hran
  obtain ⟨hcached, hidle⟩ := of_decide_eq_true hdone
  exact ⟨w, tr, hplay, hcached, hidle, runs_singleFlight (Stages.Runs.play begins_of_bool (.init ⟨rfl, rfl, rfl, rfl⟩) hplay)⟩

end Purdex.Monitor
