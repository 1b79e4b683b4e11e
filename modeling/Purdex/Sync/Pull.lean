/-
One pull: which contributors it covers, which fields it reports, and what it leaves in the stores.
-/
import Purdex.Sync.Engine

namespace Purdex.Sync

open Json

/-- A pull of a remote bundle into the stores. -/
structure Pull where
  engine : Engine
  lastSynced : Option Bundle
  remote : Bundle
  enabledModules : Modules
  stores : Stores

namespace Pull

variable (P : Pull)

def run : Stores × Option Engine.PullResult := P.engine.pull (some P.remote) P.lastSynced P.enabledModules P.stores

def contributors : List Contributor := P.engine.contributors P.enabledModules.1

variable (c : Contributor)

def payload : Option Payload := P.remote.collections.get? c.id

/-- The contributor is enabled and registered, and the remote bundle has something for it. -/
def Covers : Prop := c ∈ P.contributors ∧ (P.payload c).isSome

instance : Decidable (P.Covers c) := inferInstanceAs (Decidable (_ ∧ _))

def theirs : Data := (P.payload c).elim Record.empty (·.data)

def ours : Data := (c.serialize (P.stores c)).data

def ancestor : Option Data := P.lastSynced.bind fun last => (last.collections.get? c.id).map (·.data)

def merge : MergeCollectionResult := mergeCollection (P.ancestor c) (P.ours c) (P.theirs c) P.remote.device

def merged : Data := (P.merge c).merged

def InConflict (f : String) : Prop := P.Covers c ∧ Conflicting (P.ancestor c) (P.ours c) (P.theirs c) f

instance (f : String) : Decidable (P.InConflict c f) := inferInstanceAs (Decidable (_ ∧ _))

/-- Only the remote side changed the field since the last sync, or there was none. -/
def TakesRemote (f : String) : Prop :=
  ∀ last ∈ P.ancestor c, detectConflict (Data.get last f) ((P.ours c).get f) ((P.theirs c).get f) = .useRemote

instance (f : String) : Decidable (P.TakesRemote c f) := inferInstanceAs (Decidable (∀ last ∈ P.ancestor c, _))

def Clean : Prop := ∀ f, ¬P.InConflict c f

/-- The conflicts of a contributor, under its id. -/
def reported : List ConflictItem :=
  if P.Covers c then (P.merge c).conflicts.map fun conflict => { conflict with contributor := c.id } else []

section Facts

variable {P c}

theorem theirs_eq {payload : Payload} (h : P.payload c = some payload) : P.theirs c = payload.data := by
  rw [theirs, h, Option.elim_some]

theorem ours_get {f : String} (h : f ∈ c.fields) : (P.ours c).get f = P.stores c f := c.serialize_get _ h

theorem clean_iff_reported : P.Clean c ↔ P.reported c = [] := by
  unfold Clean InConflict reported
  split
  · rename_i hcovers
    simp only [hcovers, true_and, List.map_eq_nil_iff]
    exact conflicts_eq_nil.symm
  · simp_all

instance : Decidable (P.Clean c) := decidable_of_iff _ clean_iff_reported.symm

theorem mem_reported {conflict : ConflictItem} (h : conflict ∈ P.reported c) :
    conflict.contributor = c.id ∧ P.InConflict c conflict.field := by
  unfold reported at h
  split at h
  · obtain ⟨conflict, hconflict, rfl⟩ := List.mem_map.1 h
    exact ⟨rfl, ‹_›, (mem_conflicts.1 hconflict).1⟩
  · cases h

theorem inConflict_iff {f : String} : P.InConflict c f ↔ ∃ conflict ∈ P.reported c, conflict.field = f := by
  constructor
  · rintro ⟨hcovers, hf⟩
    obtain ⟨conflict, hconflict, rfl⟩ := (conflicting_iff P.remote.device).1 hf
    rw [reported, if_pos hcovers]
    exact ⟨_, List.mem_map_of_mem hconflict, rfl⟩
  · rintro ⟨conflict, hconflict, rfl⟩
    exact (mem_reported hconflict).2

/-- Every field of a contributor can be assigned. -/
theorem ne_protoKey {f : String} (hf : f ∈ c.fields) : f ≠ protoKey := by
  rintro rfl
  revert hf
  cases c <;> decide

/-- What is merged at a field: the remote value where it is taken, else the local one. -/
theorem merged_get_eq {f : String} (hf : f ∈ c.fields) :
    (P.merged c).get f = if P.TakesRemote c f then (P.theirs c).get f else (P.ours c).get f := by
  unfold merged merge
  cases hlast : P.ancestor c with
  | none =>
    rw [if_pos (by simp [TakesRemote, hlast])]
    rfl
  | some last =>
    rw [merged_get _ _ _ _ (ne_protoKey hf)]
    split
    · exact mergeField_useRemote (‹P.TakesRemote c f› last hlast)
    · refine mergeField_of_ne fun h => ‹¬P.TakesRemote c f› ?_
      rintro _ hmem
      obtain rfl := Option.some.inj (hlast.symm.trans hmem)
      exact h

end Facts

/-! ## One contributor -/

/-- The step of the pull for a contributor. -/
def step : Contributor → Store → Option (List ConflictItem × Store) := Engine.pullOne P.lastSynced P.remote

section Step

variable {P c}

theorem step_absent (store : Store) (h : P.payload c = none) : P.step c store = some ([], store) := by
  have h : P.remote.collections.get? c.id = none := h
  unfold step Engine.pullOne
  cases P.lastSynced with
  | none => simp [Engine.replaceOne, h]
  | some last => simp [Engine.mergeOne, h]

/-- A contributor without conflicts gets the merge, a contributor with conflicts keeps its store. -/
theorem step_covered {payload : Payload} (h : P.payload c = some payload) (hc : c ∈ P.contributors) :
    P.step c (P.stores c) = if P.reported c = [] then
      (c.deserialize ⟨payload.version, P.merged c⟩ .fullReplace (P.stores c)).map ([], ·)
    else some (P.reported c, P.stores c) := by
  have hcovers : P.Covers c := ⟨hc, by rw [h]; rfl⟩
  have htheirs := theirs_eq h
  have h : P.remote.collections.get? c.id = some payload := h
  unfold step Engine.pullOne reported merged merge ours
  rw [if_pos hcovers, htheirs]
  cases hlast : P.lastSynced with
  | none =>
    have hnone : P.ancestor c = none := by rw [ancestor, hlast]; rfl
    simp [Engine.replaceOne, h, hnone, mergeCollection]
  | some last =>
    have hsome : P.ancestor c = (last.collections.get? c.id).map (·.data) := by rw [ancestor, hlast]; rfl
    simp only [Engine.mergeOne, h, hsome]

theorem step_fst {a : List ConflictItem × Store} (hc : c ∈ P.contributors) (h : P.step c (P.stores c) = some a) :
    a.1 = P.reported c := by
  cases hp : P.payload c with
  | none =>
    rw [step_absent _ hp, Option.some.injEq] at h
    rw [← h, reported, if_neg (by simp [Covers, hp])]
  | some payload =>
    rw [step_covered hp hc] at h
    split at h
    · obtain ⟨t, _, rfl⟩ := Option.map_eq_some_iff.1 h
      exact (‹_› : P.reported c = []).symm
    · obtain rfl := Option.some.inj h
      rfl

end Step

/-! ## The whole pull -/

section Run

variable {P c}

theorem nodup_contributors : P.contributors.Nodup := Engine.nodup_contributors P.enabledModules.2

theorem run_eq : P.run = ((Engine.forEach P.step P.contributors P.stores).1,
    (Engine.forEach P.step P.contributors P.stores).2.map fun conflicts => ⟨some P.remote, conflicts.flatten⟩) := rfl

theorem run_cases (P : Pull) (c : Contributor) :
    P.run.1 c = P.stores c ∨ ∃ conflicts, P.step c (P.stores c) = some (conflicts, P.run.1 c) :=
  Engine.forEach_cases nodup_contributors c

/-- A contributor that the pull does not cover keeps its store. -/
theorem run_uncovered (h : ¬P.Covers c) : P.run.1 c = P.stores c := by
  by_cases hc : c ∈ P.contributors
  · have hnone : P.payload c = none := by simpa [Covers, hc] using h
    rcases P.run_cases c with heq | ⟨_, hstep⟩
    · exact heq
    · rw [step_absent _ hnone] at hstep
      exact (Prod.mk.inj (Option.some.inj hstep)).2.symm
  · exact Engine.forEach_of_not_mem hc

/-- A contributor with conflicts keeps its store. -/
theorem run_conflicted (h : ¬P.Clean c) : P.run.1 c = P.stores c := by
  by_cases hcovers : P.Covers c
  · obtain ⟨payload, hpayload⟩ := Option.isSome_iff_exists.1 hcovers.2
    rcases P.run_cases c with heq | ⟨_, hstep⟩
    · exact heq
    · rw [step_covered hpayload hcovers.1, if_neg fun hnil => h (clean_iff_reported.2 hnil)] at hstep
      exact (Prod.mk.inj (Option.some.inj hstep)).2.symm
  · exact run_uncovered hcovers

/-- A contributor without conflicts gets its merge, or keeps its store when some contributor throws. -/
theorem run_clean (h : P.Clean c) {payload : Payload} (hpayload : P.payload c = some payload) :
    P.run.1 c = P.stores c ∨
      c.deserialize ⟨payload.version, P.merged c⟩ .fullReplace (P.stores c) = some (P.run.1 c) := by
  by_cases hc : c ∈ P.contributors
  · rcases P.run_cases c with heq | ⟨_, hstep⟩
    · exact .inl heq
    · rw [step_covered hpayload hc, if_pos (clean_iff_reported.1 h)] at hstep
      obtain ⟨t, ht, heq⟩ := Option.map_eq_some_iff.1 hstep
      cases heq
      exact .inr ht
  · exact .inl (Engine.forEach_of_not_mem hc)

/-- A pull that went through reports the conflicts of all contributors, and each without conflicts
got its merge. -/
theorem run_some {result : Engine.PullResult} (h : P.run.2 = some result) :
    result.appliedBundle = some P.remote ∧ result.conflicts = P.contributors.flatMap P.reported ∧
      ∀ c payload, P.payload c = some payload → c ∈ P.contributors → P.Clean c →
        c.deserialize ⟨payload.version, P.merged c⟩ .fullReplace (P.stores c) = some (P.run.1 c) := by
  rw [run_eq] at h
  obtain ⟨as, has, rfl⟩ := Option.map_eq_some_iff.1 h
  obtain ⟨hsteps, has⟩ := Engine.forEach_some nodup_contributors has
  refine ⟨rfl, ?_, fun c payload hpayload hc hclean => ?_⟩
  · rw [has, List.flatMap_def, ← List.filterMap_eq_map]
    refine congrArg List.flatten ?_
    refine List.filterMap_congr fun c hc => ?_
    obtain ⟨a, _, hstep⟩ := hsteps c hc
    rw [hstep, Option.map_some, Function.comp_apply]
    exact congrArg some (step_fst hc hstep)
  · obtain ⟨a, _, hstep⟩ := hsteps c hc
    rw [step_covered hpayload hc, if_pos (clean_iff_reported.1 hclean)] at hstep
    obtain ⟨t, ht, heq⟩ := Option.map_eq_some_iff.1 hstep
    cases heq
    exact ht

/-- A pull goes through when every contributor without conflicts takes its merge. -/
theorem run_isSome : P.run.2.isSome ↔ ∀ c payload, P.payload c = some payload → c ∈ P.contributors → P.Clean c →
    (c.deserialize ⟨payload.version, P.merged c⟩ .fullReplace (P.stores c)).isSome := by
  rw [run_eq, Option.isSome_map, Engine.forEach_isSome nodup_contributors]
  constructor
  · intro h c payload hpayload hc hclean
    have hstep := h c hc
    rwa [step_covered hpayload hc, if_pos (clean_iff_reported.1 hclean), Option.isSome_map] at hstep
  · intro h c hc
    cases hpayload : P.payload c with
    | none => rw [step_absent _ hpayload]; rfl
    | some payload =>
      rw [step_covered hpayload hc]
      split
      · rw [Option.isSome_map]
        exact h c payload hpayload hc (clean_iff_reported.2 ‹_›)
      · rfl

end Run

end Pull

end Purdex.Sync
