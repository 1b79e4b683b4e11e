/-
Local edits over whole runs of a client: a pull that replaces a value without reporting it replaces
the one the last sync left, as long as each step leaves a baseline that tells what that was.
-/
import Purdex.Conc.Serial
import Purdex.Sync.Client
import Mathlib

namespace Purdex.Sync

open Conc Json

/-! ## What was synced last -/

namespace Pull

variable (P : Pull) (c : Contributor) (f : String)

/-- No contributor has conflicts. -/
def Unopposed : Prop := P.contributors.flatMap P.reported = []

instance : Decidable P.Unopposed := inferInstanceAs (Decidable (_ = _))

/-- The pull went through and gave the contributor its merge. -/
def Applies : Prop := P.run.2.isSome ∧ P.Covers c ∧ P.Clean c

instance : Decidable (P.Applies c) := inferInstanceAs (Decidable (_ ∧ _))

/-- The pull replaces the local value of a field by another one, the remote one, and reports nothing. -/
def Overwrites : Prop :=
  f ∈ c.fields ∧ ¬P.InConflict c f ∧ ¬P.stores c f ≈ P.run.1 c f ∧ P.run.1 c f ≈ (P.theirs c).get f

instance : Decidable (P.Overwrites c f) := inferInstanceAs (Decidable (_ ∧ _))

end Pull

namespace Client

variable (E : Engine) (s : Client)

/-- The pull of an action, if it makes one. -/
def pulls : Action → Option Pull
  | .syncNow (some (some remote)) _ _ => some (s.pull E remote)
  | .applyImport bundle => some (s.pull E bundle)
  | _ => none

/-- A resolution goes through. -/
def Resolves (choices : String → String → Choice) : Prop :=
  ∃ remote ∈ s.pendingRemoteBundle,
    (E.resolveConflicts remote s.pendingConflicts (handleApply s.pendingConflicts choices) s.stores).2 = true

instance (choices : String → String → Choice) : Decidable (s.Resolves E choices) :=
  inferInstanceAs (Decidable (∃ remote ∈ s.pendingRemoteBundle, _))

/-- The action completes a push. -/
def Pushes : Action → Prop
  | .syncNow (some none) pushes _ => pushes = true
  | .syncNow (some (some remote)) pushes _ => pushes = true ∧ (s.pull E remote).run.2.isSome ∧ (s.pull E remote).Unopposed
  | .resolve choices pushes => pushes = true ∧ s.Resolves E choices
  | _ => False

instance : ∀ a, Decidable (s.Pushes E a)
  | .syncNow none _ _ => inferInstanceAs (Decidable False)
  | .syncNow (some none) pushes _ => inferInstanceAs (Decidable (pushes = true))
  | .syncNow (some (some remote)) pushes _ =>
    inferInstanceAs (Decidable (pushes = true ∧ (s.pull E remote).run.2.isSome ∧ (s.pull E remote).Unopposed))
  | .resolve choices pushes => inferInstanceAs (Decidable (pushes = true ∧ s.Resolves E choices))
  | .applyImport _ | .dismiss | .toggle _ | .edit _ => inferInstanceAs (Decidable False)

/-- The action completes a pull that gives the contributor its merge, or a push of it. -/
def Covers (a : Action) (c : Contributor) : Prop := (∃ P ∈ s.pulls E a, P.Applies c) ∨ s.Pushes E a ∧ s.Enabled E c

instance (a : Action) (c : Contributor) : Decidable (s.Covers E a c) := inferInstanceAs (Decidable (_ ∨ _))

end Client

/-- A client and, of every field, the value it had right after the last completed pull or push that
covered its contributor. -/
structure Session where
  client : Client
  synced : Contributor → String → Option Val

namespace Session

variable (E : Engine) (s : Session)

def act (a : Action) : Session where
  client := s.client.perform E a
  synced c f := if s.client.Covers E a c then some ((s.client.perform E a).stores c f) else s.synced c f

/-- Nothing was synced yet. -/
def Fresh : Prop := ∀ c f, s.synced c f = none

/-- A value that the action's pull replaces without reporting it is the one that the last sync left. -/
def NoSilentOverwrite (a : Action) : Prop :=
  ∀ P ∈ s.client.pulls E a, ∀ c f, P.Overwrites c f → ∀ v, s.synced c f = some v → P.stores c f ≈ v

end Session

/-! ## Which steps keep track -/

namespace Pull

variable (P : Pull) (c : Contributor) (f : String)

/-- Only the local side changed the field since the last sync. -/
def KeepsLocal : Prop :=
  ∃ last ∈ P.ancestor c, detectConflict (Data.get last f) ((P.ours c).get f) ((P.theirs c).get f) = .useLocal

instance : Decidable (P.KeepsLocal c f) := inferInstanceAs (Decidable (∃ last ∈ P.ancestor c, _))

/-- A merged field that is not the remote one is stored as it is. -/
def LeavesLocal : Prop := ∀ c, P.Covers c → P.Clean c → ∀ f ∈ c.fields, ¬P.TakesRemote c f → P.Stored c f

instance : Decidable P.LeavesLocal := inferInstanceAs (Decidable (∀ _, _))

/-- Neither side changed anything since the last sync. -/
def FindsNothing : Prop :=
  ∀ c, P.Covers c → ∃ last ∈ P.ancestor c, ∀ f ∈ c.fields,
    detectConflict (Data.get last f) ((P.ours c).get f) ((P.theirs c).get f) = .noChange ∧ P.Stored c f

instance : Decidable P.FindsNothing := inferInstanceAs (Decidable (∀ _, _))

/-- The remote bundle tells what the contributors have after the pull: nothing was changed only
locally, and for one that is disabled it holds what the last sync left. -/
structure Rebases (synced : Contributor → String → Option Val) : Prop where
  applied : ∀ c, P.Covers c → P.Clean c → ∀ f ∈ c.fields, ¬P.KeepsLocal c f ∧ P.Stored c f
  others : ∀ c, ¬P.Covers c → (P.payload c).isSome → ∀ f ∈ c.fields, ∀ v ∈ synced c f, (P.theirs c).get f ≈ v

theorem rebases_iff {synced : Contributor → String → Option Val} : P.Rebases synced ↔
    (∀ c, P.Covers c → P.Clean c → ∀ f ∈ c.fields, ¬P.KeepsLocal c f ∧ P.Stored c f) ∧
      ∀ c, ¬P.Covers c → (P.payload c).isSome → ∀ f ∈ c.fields, ∀ v ∈ synced c f, (P.theirs c).get f ≈ v :=
  ⟨fun h => ⟨h.applied, h.others⟩, fun h => ⟨h.1, h.2⟩⟩

instance (synced : Contributor → String → Option Val) : Decidable (P.Rebases synced) := decidable_of_iff _ P.rebases_iff.symm

end Pull

namespace Session

variable (E : Engine) (s : Session)

def Known (c : Contributor) : Prop := ∃ f ∈ c.fields, (s.synced c f).isSome

instance (c : Contributor) : Decidable (s.Known c) := inferInstanceAs (Decidable (∃ f ∈ c.fields, _))

/-- Every contributor that was synced is enabled. -/
def AllEnabled : Prop := ∀ c, s.Known c → s.client.Enabled E c

instance : Decidable (s.AllEnabled E) := inferInstanceAs (Decidable (∀ _, _))

/-- A field is, after the resolution, what the remote bundle says. -/
def EndsRemote (choices : String → String → Choice) (payload : Payload) (c : Contributor) (f : String) : Prop :=
  if c.id ∈ s.client.pendingConflicts.map (·.contributor) then
    ∃ w ∈ c.written ⟨payload.version, Engine.overlay (handleApply s.client.pendingConflicts choices)
        (c.serialize (s.client.stores c)).data payload.data⟩ (.fieldMerge (handleApply s.client.pendingConflicts choices))
        (s.client.stores c) f, w ≈ payload.data.get f
  else s.client.stores c f ≈ payload.data.get f

instance (choices : String → String → Choice) (payload : Payload) (c : Contributor) (f : String) :
    Decidable (s.EndsRemote choices payload c f) := by
  delta EndsRemote
  infer_instance

/-- The remote bundle that was kept has every contributor that was synced, with what the last sync or
the push that follows leaves. -/
def Settles (choices : String → String → Choice) (pushes : Bool) (remote : Bundle) : Prop :=
  ∀ c, ∀ f ∈ c.fields,
    if pushes = true ∧ s.client.Enabled E c then ∃ payload ∈ remote.collections.get? c.id, s.EndsRemote choices payload c f
    else ∀ v ∈ s.synced c f, ∃ payload ∈ remote.collections.get? c.id, Data.get (Payload.data payload) f ≈ v

instance (choices : String → String → Choice) (pushes : Bool) (remote : Bundle) : Decidable (s.Settles E choices pushes remote) := by
  delta Settles
  infer_instance

/-- The step leaves a baseline that tells what every contributor had right after its last sync. -/
def Tracks : Action → Prop
  | .syncNow none _ _ => True
  | .syncNow (some none) pushes _ => pushes = true → s.AllEnabled E
  | .syncNow (some (some remote)) pushes _ =>
    (s.client.pull E remote).LeavesLocal ∧
      if (s.client.pull E remote).Unopposed then
        if pushes then s.AllEnabled E else (s.client.pull E remote).FindsNothing
      else (s.client.pull E remote).Rebases s.synced
  | .applyImport bundle =>
    (s.client.pull E bundle).LeavesLocal ∧ (s.client.pull E bundle).Rebases s.synced ∧
      ((s.client.pull E bundle).Unopposed → ∀ c, s.Known c → ((s.client.pull E bundle).payload c).isSome)
  | .resolve choices pushes => ∀ remote ∈ s.client.pendingRemoteBundle, s.Settles E choices pushes remote
  | .dismiss => True
  | .toggle _ => True
  | .edit _ => True

instance : ∀ a, Decidable (s.Tracks E a)
  | .syncNow none _ _ => inferInstanceAs (Decidable True)
  | .syncNow (some none) pushes _ => inferInstanceAs (Decidable (pushes = true → s.AllEnabled E))
  | .syncNow (some (some remote)) pushes _ => inferInstanceAs (Decidable
      ((s.client.pull E remote).LeavesLocal ∧
        if (s.client.pull E remote).Unopposed then
          if pushes then s.AllEnabled E else (s.client.pull E remote).FindsNothing
        else (s.client.pull E remote).Rebases s.synced))
  | .applyImport _ => inferInstanceAs (Decidable (_ ∧ _ ∧ (_ → ∀ _, _)))
  | .resolve _ _ => inferInstanceAs (Decidable (∀ remote ∈ s.client.pendingRemoteBundle, _))
  | .dismiss | .toggle _ | .edit _ => inferInstanceAs (Decidable True)

/-! ## The baseline tells what was synced -/

/-- The baseline has every contributor that was synced, with what it had right after. -/
def Agrees : Prop := ∀ c, ∀ f ∈ c.fields, ∀ v ∈ s.synced c f, ∃ last ∈ s.client.baseline c, Data.get last f ≈ v

variable {E s}

/-- Of a pull from a state that agrees, only what the last sync left is replaced. -/
theorem noSilentOverwrite_of_agrees {a : Action} (h : s.Agrees) (hlocal : ∀ P ∈ s.client.pulls E a, P.LeavesLocal) :
    s.NoSilentOverwrite E a := by
  rintro P hP c f ⟨hf, _, hne, _⟩ v hv
  have hbaseline : P.ancestor c = s.client.baseline c ∧ P.stores = s.client.stores := by
    unfold Client.pulls at hP
    split at hP
    · obtain rfl := Option.some.inj hP
      exact ⟨rfl, rfl⟩
    · obtain rfl := Option.some.inj hP
      exact ⟨rfl, rfl⟩
    · cases hP
  have hcovers : P.Covers c := by
    by_contra hnot
    rw [Pull.run_uncovered hnot] at hne
    exact hne (Setoid.refl _)
  have hclean : P.Clean c := by
    by_contra hnot
    rw [Pull.run_conflicted hnot] at hne
    exact hne (Setoid.refl _)
  obtain ⟨payload, hpayload⟩ := Option.isSome_iff_exists.1 hcovers.2
  rcases Pull.run_clean hclean hpayload with heq | hmerge
  · exact absurd (Setoid.refl _) (heq ▸ hne)
  · have hours : (P.ours c).get f = P.stores c f := Pull.ours_get hf
    -- what the merge leaves local is stored as it is, so that a value that changed was taken
    have htakes : P.TakesRemote c f := by
      by_contra hnot
      obtain ⟨w, hw, heq⟩ := (Pull.stored_iff ⟨payload.version, P.merged c⟩ rfl).2 (hlocal P hP c hcovers hclean f hf hnot)
      obtain rfl := Option.some.inj (hw.symm.trans (Contributor.deserialize_some hmerge hf))
      rw [Pull.merged_get_eq hf, if_neg hnot, hours] at heq
      exact hne (Setoid.symm heq)
    obtain ⟨last, hlast, hlastv⟩ := h c f hf v hv
    have hlastours := (detectConflict_useRemote.1 (htakes last (hbaseline.1 ▸ hlast))).1
    rw [hours] at hlastours
    exact Setoid.trans (Setoid.symm hlastours) hlastv

theorem mem_act_synced {a : Action} {c : Contributor} {f : String} {v : Val} (h : v ∈ (s.act E a).synced c f) :
    s.client.Covers E a c ∧ v = (s.client.perform E a).stores c f ∨ ¬s.client.Covers E a c ∧ v ∈ s.synced c f := by
  unfold act at h
  dsimp only at h
  split at h
  · exact .inl ⟨‹_›, (Option.some.inj h).symm⟩
  · exact .inr ⟨‹_›, h⟩

/-- The bundle that is pushed has every enabled contributor as it is. -/
theorem serialize_collections {device : String} {enabled : Modules} {now : Int} {stores : Stores} {c : Contributor}
    (h : c ∈ E.contributors enabled.1) :
    (E.serialize device enabled now stores).collections.get? c.id = some (c.serialize (stores c)) := by
  obtain ⟨hid, hreg⟩ := Engine.mem_contributors.1 h
  rw [Engine.serialize, Record.get?_ofKeys, if_pos hid, Engine.get_eq hreg, Option.map_some]

/-- A pull that gave a contributor its merge left what it stores as it is. -/
theorem applied_get {P : Pull} {c : Contributor} {f : String} (h : P.Applies c) (hf : f ∈ c.fields) (hstored : P.Stored c f) :
    P.run.1 c f ≈ (P.merged c).get f := by
  obtain ⟨hrun, hcovers, hclean⟩ := h
  obtain ⟨result, hresult⟩ := Option.isSome_iff_exists.1 hrun
  obtain ⟨payload, hpayload⟩ := Option.isSome_iff_exists.1 hcovers.2
  have hmerge := (Pull.run_some hresult).2.2 c payload hpayload hcovers.1 hclean
  obtain ⟨w, hw, heq⟩ := (Pull.stored_iff ⟨payload.version, P.merged c⟩ rfl).2 hstored
  obtain rfl := Option.some.inj (hw.symm.trans (Contributor.deserialize_some hmerge hf))
  exact heq

/-- Where the local side alone did not change it, a merged field is the remote one. -/
theorem merged_equiv_theirs {P : Pull} {c : Contributor} {f : String} (hf : f ∈ c.fields) (hclean : P.Clean c) (hcovers : P.Covers c)
    (h : ¬P.KeepsLocal c f) : (P.merged c).get f ≈ (P.theirs c).get f := by
  rw [Pull.merged_get_eq hf]
  split
  · exact Setoid.refl _
  · rename_i hnot
    simp only [Pull.TakesRemote, not_forall] at hnot
    obtain ⟨last, hlast, hne⟩ := hnot
    have hconflict : ¬detectConflict (Data.get last f) ((P.ours c).get f) ((P.theirs c).get f) = .conflict :=
      fun heq => hclean f ⟨hcovers, last, hlast, heq⟩
    have hlocal : ¬detectConflict (Data.get last f) ((P.ours c).get f) ((P.theirs c).get f) = .useLocal :=
      fun heq => h ⟨last, hlast, heq⟩
    rw [detectConflict_conflict] at hconflict
    rw [detectConflict_useLocal] at hlocal
    rw [detectConflict_useRemote] at hne
    by_cases hours : Data.get last f ≈ (P.ours c).get f
    · have htheirs : Data.get last f ≈ (P.theirs c).get f := by
        by_contra hnot
        exact hne ⟨hours, hnot⟩
      exact Setoid.trans (Setoid.symm hours) htheirs
    · have htheirs : ¬Data.get last f ≈ (P.theirs c).get f := fun heq => hlocal ⟨hours, heq⟩
      by_contra hnot
      exact hconflict ⟨hours, htheirs, hnot⟩

/-- A remote bundle that tells what the contributors have is a baseline that agrees. -/
theorem rebased {remote : Bundle} {c : Contributor} {f : String} {v : Val} {payload : Payload}
    (h : (s.client.pull E remote).Rebases s.synced) (hf : f ∈ c.fields) (hclean : (s.client.pull E remote).Clean c)
    (hpayload : (s.client.pull E remote).payload c = some payload)
    (hv : (s.client.pull E remote).Applies c ∧ v = (s.client.pull E remote).run.1 c f ∨
      ¬(s.client.pull E remote).Covers c ∧ v ∈ s.synced c f) : Data.get payload.data f ≈ v := by
  have htheirs := Pull.theirs_eq hpayload
  rcases hv with ⟨happlies, rfl⟩ | ⟨hnot, hv⟩
  · obtain ⟨hlocal, hstored⟩ := h.applied c happlies.2.1 hclean f hf
    have hmerged := merged_equiv_theirs hf hclean happlies.2.1 hlocal
    rw [← htheirs]
    exact Setoid.symm (Setoid.trans (applied_get happlies hf hstored) hmerged)
  · have hothers := h.others c hnot (by rw [hpayload]; rfl) f hf v hv
    rwa [htheirs] at hothers

/-! ## One step -/

theorem covers_enabled {a : Action} {c : Contributor} (h : s.client.Covers E a c) : s.client.Enabled E c := by
  rcases h with ⟨P, hP, happlies⟩ | ⟨_, henabled⟩
  · have hcontributors : P.contributors = E.contributors s.client.enabledModules.1 := by
      unfold Client.pulls at hP
      split at hP
      · obtain rfl := Option.some.inj hP
        rfl
      · obtain rfl := Option.some.inj hP
        rfl
      · cases hP
    rw [Client.Enabled, ← hcontributors]
    exact happlies.2.1.1
  · exact henabled

theorem Agrees.congr {s' : Session} (h : s.Agrees) (hbaseline : s'.client.lastSyncedBundle = s.client.lastSyncedBundle)
    (hsynced : ∀ c f v, v ∈ s'.synced c f → v ∈ s.synced c f) : s'.Agrees := by
  intro c f hf v hv
  obtain ⟨last, hlast, heq⟩ := h c f hf v (hsynced c f v hv)
  refine ⟨last, ?_, heq⟩
  rw [Client.baseline, hbaseline]
  exact hlast

/-- A step that syncs nothing and keeps the baseline. -/
theorem agrees_of_idle {a : Action} (h : s.Agrees) (hidle : ∀ c, ¬s.client.Covers E a c)
    (hbaseline : (s.client.perform E a).lastSyncedBundle = s.client.lastSyncedBundle) : (s.act E a).Agrees := by
  refine h.congr hbaseline fun c f v hv => ?_
  rcases mem_act_synced hv with ⟨hcovers, _⟩ | ⟨_, hv⟩
  · exact absurd hcovers (hidle c)
  · exact hv

/-- A push of all that was synced. -/
theorem agrees_of_pushed {a : Action} (now : Int) (hall : s.AllEnabled E) (hpushes : s.client.Pushes E a)
    (hbaseline : (s.client.perform E a).lastSyncedBundle =
      some (E.serialize s.client.clientId s.client.enabledModules now (s.client.perform E a).stores)) : (s.act E a).Agrees := by
  intro c f hf v hv
  have henabled : s.client.Enabled E c := by
    rcases mem_act_synced hv with ⟨hcovers, _⟩ | ⟨_, hv⟩
    · exact covers_enabled hcovers
    · exact hall c ⟨f, hf, Option.isSome_of_mem hv⟩
  have hvalue : v = (s.client.perform E a).stores c f := by
    rcases mem_act_synced hv with ⟨_, hvalue⟩ | ⟨hnot, _⟩
    · exact hvalue
    · exact absurd (.inr ⟨hpushes, henabled⟩) hnot
  refine ⟨(c.serialize ((s.client.perform E a).stores c)).data, ?_, ?_⟩
  · change _ ∈ (s.client.perform E a).lastSyncedBundle.bind _
    rw [hbaseline, Option.bind_some, serialize_collections henabled]
    rfl
  · exact Val.equiv_of_eq ((c.serialize_get _ hf).trans hvalue.symm)

theorem partialBaseline_get? {previous : Option Bundle} {remote : Bundle} {conflicts : List ConflictItem} {i : String} :
    (buildPartialBaseline previous remote conflicts).collections.get? i =
      (if i ∈ conflicts.map (·.contributor) then none else remote.collections.get? i).or
        ((previous.elim Record.empty (·.collections)).get? i) := by
  rw [buildPartialBaseline, Record.get?_overlay, Record.get?_restrict]
  congr 1
  by_cases hi : i ∈ conflicts.map (·.contributor) <;> simp [hi]

/-- The baseline of a pull that reports conflicts. -/
theorem agrees_of_partial {a : Action} {remote : Bundle} (h : s.Agrees) (hrebases : (s.client.pull E remote).Rebases s.synced)
    (hcovers : ∀ c, s.client.Covers E a c ↔ (s.client.pull E remote).Applies c)
    (hrun : (s.client.pull E remote).run.2.isSome)
    (hstores : (s.client.perform E a).stores = (s.client.pull E remote).run.1)
    (hbaseline : (s.client.perform E a).lastSyncedBundle = some (buildPartialBaseline s.client.lastSyncedBundle remote
      ((s.client.pull E remote).contributors.flatMap (s.client.pull E remote).reported))) : (s.act E a).Agrees := by
  intro c f hf v hv
  have hv := mem_act_synced hv
  rw [hcovers, hstores] at hv
  have hlook : (s.act E a).client.baseline c =
      ((if (s.client.pull E remote).Clean c then (s.client.pull E remote).payload c else none).or
        ((s.client.lastSyncedBundle.elim Record.empty (·.collections)).get? c.id)).map (·.data) := by
    change (s.client.perform E a).lastSyncedBundle.bind _ = _
    rw [hbaseline, Option.bind_some, partialBaseline_get?]
    congr 2
    by_cases hclean : (s.client.pull E remote).Clean c
    · rw [if_pos hclean, if_neg fun hmem => Pull.mem_conflict_ids.1 hmem hclean]
      rfl
    · rw [if_neg hclean, if_pos (Pull.mem_conflict_ids.2 hclean)]
  have hprevious : ((s.client.lastSyncedBundle.elim Record.empty (·.collections)).get? c.id).map (·.data) = s.client.baseline c := by
    unfold Client.baseline
    cases s.client.lastSyncedBundle <;> rfl
  rw [hlook]
  cases hpayload : (s.client.pull E remote).payload c with
  | none =>
    have hnot : ¬(s.client.pull E remote).Covers c := by simp [Pull.Covers, hpayload]
    rcases hv with ⟨happlies, _⟩ | ⟨_, hv⟩
    · exact absurd happlies.2.1 hnot
    · rw [ite_self, Option.none_or, hprevious]
      exact h c f hf v hv
  | some payload =>
    by_cases hclean : (s.client.pull E remote).Clean c
    · rw [if_pos hclean, Option.some_or]
      refine ⟨payload.data, rfl, rebased hrebases hf hclean hpayload ?_⟩
      exact hv.imp_right fun hold => ⟨fun hcov => hold.1 ⟨hrun, hcov, hclean⟩, hold.2⟩
    · rw [if_neg hclean, Option.none_or, hprevious]
      rcases hv with ⟨happlies, _⟩ | ⟨_, hv⟩
      · exact absurd happlies.2.2 hclean
      · exact h c f hf v hv

/-- A pull that finds nothing leaves the old baseline as good as it was. -/
theorem agrees_of_nothing {a : Action} {remote : Bundle} (h : s.Agrees) (hnothing : (s.client.pull E remote).FindsNothing)
    (hcovers : ∀ c, s.client.Covers E a c → (s.client.pull E remote).Applies c)
    (hstores : (s.client.perform E a).stores = (s.client.pull E remote).run.1)
    (hbaseline : (s.client.perform E a).lastSyncedBundle = s.client.lastSyncedBundle) : (s.act E a).Agrees := by
  intro c f hf v hv
  have hlook : (s.act E a).client.baseline c = s.client.baseline c := by
    change (s.client.perform E a).lastSyncedBundle.bind _ = _
    rw [hbaseline]
    rfl
  rw [hlook]
  rcases mem_act_synced hv with ⟨hcov, rfl⟩ | ⟨_, hv⟩
  · have happlies := hcovers c hcov
    obtain ⟨last, hlast, hsame⟩ := hnothing c happlies.2.1
    obtain ⟨hnone, hstored⟩ := hsame f hf
    refine ⟨last, hlast, ?_⟩
    -- both sides are as the last sync left them, so the merge is the local value
    have hours : (s.client.pull E remote).KeepsLocal c f → False := by
      rintro ⟨last', hlast', heq⟩
      obtain rfl := Option.some.inj (hlast.symm.trans hlast')
      exact absurd (hnone.symm.trans heq) nofun
    have htheirs := merged_equiv_theirs hf happlies.2.2 happlies.2.1 hours
    have hremote := (detectConflict_noChange.1 hnone).2
    rw [hstores]
    exact Setoid.trans hremote (Setoid.symm (Setoid.trans (applied_get happlies hf hstored) htheirs))
  · exact h c f hf v hv

/-- The baseline of an import without conflicts. -/
theorem agrees_of_imported {a : Action} {remote : Bundle} (hrebases : (s.client.pull E remote).Rebases s.synced)
    (hknown : ∀ c, s.Known c → ((s.client.pull E remote).payload c).isSome) (hclean : ∀ c, (s.client.pull E remote).Clean c)
    (hcovers : ∀ c, s.client.Covers E a c ↔ (s.client.pull E remote).Applies c)
    (hrun : (s.client.pull E remote).run.2.isSome)
    (hstores : (s.client.perform E a).stores = (s.client.pull E remote).run.1)
    (hbaseline : (s.client.perform E a).lastSyncedBundle = some remote) : (s.act E a).Agrees := by
  intro c f hf v hv
  have hv := mem_act_synced hv
  rw [hcovers, hstores] at hv
  have hsome : ((s.client.pull E remote).payload c).isSome := by
    rcases hv with ⟨happlies, _⟩ | ⟨_, hv⟩
    · exact happlies.2.1.2
    · exact hknown c ⟨f, hf, Option.isSome_of_mem hv⟩
  obtain ⟨payload, hpayload⟩ := Option.isSome_iff_exists.1 hsome
  refine ⟨payload.data, ?_, rebased hrebases hf (hclean c) hpayload ?_⟩
  · change _ ∈ (s.client.perform E a).lastSyncedBundle.bind _
    rw [hbaseline, Option.bind_some]
    exact congrArg (Option.map _) hpayload
  · exact hv.imp_right fun ⟨hnot, hv⟩ => ⟨fun hcov => hnot ⟨hrun, hcov, hclean c⟩, hv⟩

/-- The baseline of a resolution. -/
theorem agrees_of_resolved {choices : String → String → Choice} {pushes : Bool} (h : s.Agrees)
    (hsettles : ∀ remote ∈ s.client.pendingRemoteBundle, s.Settles E choices pushes remote) :
    (s.act E (.resolve choices pushes)).Agrees := by
  cases hpending : s.client.pendingRemoteBundle with
  | none =>
    refine agrees_of_idle h (fun c => ?_) ?_
    · simp [Client.Covers, Client.pulls, Client.Pushes, Client.Resolves, hpending]
    · simp [Client.perform, Client.handleResolveConflicts, hpending]
  | some remote =>
    by_cases hdone : (E.resolveConflicts remote s.client.pendingConflicts (handleApply s.client.pendingConflicts choices) s.client.stores).2 = true
    · intro c f hf v hv
      have hperform : s.client.perform E (.resolve choices pushes) = (({ s.client with stores :=
          (E.resolveConflicts remote s.client.pendingConflicts (handleApply s.client.pendingConflicts choices) s.client.stores).1 } :
          Client).setLastSyncedBundle remote).clearPendingConflicts := by
        simp only [Client.perform, Client.handleResolveConflicts, hpending]
        rw [if_pos hdone]
      have hcovers : s.client.Covers E (.resolve choices pushes) c ↔ pushes = true ∧ s.client.Enabled E c := by
        simp [Client.Covers, Client.pulls, Client.Pushes, Client.Resolves, hpending, hdone]
      have hlook : (s.act E (.resolve choices pushes)).client.baseline c = (remote.collections.get? c.id).map (·.data) := by
        change (s.client.perform E (.resolve choices pushes)).lastSyncedBundle.bind _ = _
        rw [hperform]
        rfl
      have hset := hsettles remote hpending c f hf
      rw [hlook]
      rcases mem_act_synced hv with ⟨hcov, rfl⟩ | ⟨hnot, hv⟩
      · rw [if_pos (hcovers.1 hcov)] at hset
        obtain ⟨payload, hpayload, hends⟩ := hset
        refine ⟨payload.data, by rw [hpayload]; rfl, ?_⟩
        rw [hperform]
        change _ ≈ (E.resolveConflicts remote s.client.pendingConflicts (handleApply s.client.pendingConflicts choices) s.client.stores).1 c f
        have hreg := (Engine.mem_contributors.1 (hcovers.1 hcov).2).2
        unfold EndsRemote at hends
        split at hends
        · rename_i hid
          -- a contributor in conflict got what was written
          obtain ⟨as, has⟩ := Option.isSome_iff_exists.1 hdone
          obtain ⟨_, _, hstep⟩ := (Engine.forEach_some (Engine.nodup_contributors (Engine.nodup_setOf _)) has).1 c
            (Engine.mem_contributors.2 ⟨Engine.mem_setOf.2 hid, hreg⟩)
          simp only [Engine.resolveOne, Option.mem_def.1 hpayload] at hstep
          obtain ⟨t, ht, heq⟩ := Option.map_eq_some_iff.1 hstep
          obtain ⟨w, hw, hwremote⟩ := hends
          obtain rfl := Option.some.inj (hw.symm.trans (Contributor.deserialize_some ht hf))
          rw [(Prod.mk.inj heq).2] at hwremote
          exact Setoid.symm hwremote
        · rename_i hid
          have hkeep : (E.resolveConflicts remote s.client.pendingConflicts (handleApply s.client.pendingConflicts choices)
              s.client.stores).1 c = s.client.stores c := by
            refine Engine.forEach_of_not_mem fun hmem => hid ?_
            exact Engine.mem_setOf.1 (Engine.mem_contributors.1 hmem).1
          rw [hkeep]
          exact Setoid.symm hends
      · rw [hcovers] at hnot
        rw [if_neg hnot] at hset
        obtain ⟨payload, hpayload, heq⟩ := hset v hv
        exact ⟨payload.data, by rw [hpayload]; rfl, heq⟩
    · refine agrees_of_idle h (fun c => ?_) ?_
      · simp [Client.Covers, Client.pulls, Client.Pushes, Client.Resolves, hpending, hdone]
      · simp only [Client.perform, Client.handleResolveConflicts, hpending]
        rw [if_neg hdone]

theorem agrees_act {a : Action} (h : s.Agrees) (htracks : s.Tracks E a) : (s.act E a).Agrees := by
  cases a with
  | syncNow pulled pushes now =>
    cases pulled with
    | none => exact agrees_of_idle h (fun c => by simp [Client.Covers, Client.pulls, Client.Pushes]) rfl
    | some remote =>
      cases remote with
      | none =>
        cases pushes with
        | false => exact agrees_of_idle h (fun c => by simp [Client.Covers, Client.pulls, Client.Pushes]) rfl
        | true => exact agrees_of_pushed now (htracks rfl) rfl rfl
      | some remote =>
        obtain ⟨_, htracks⟩ := htracks
        obtain ⟨hstores, houtcome⟩ := s.client.handleSyncNow_cases E remote pushes now
        have hpulls : s.client.pulls E (.syncNow (some (some remote)) pushes now) = some (s.client.pull E remote) := rfl
        rcases houtcome with ⟨hthrown, hbaseline⟩ | ⟨hrun, hopposed, hbaseline⟩ | ⟨hrun, hclean, hbaseline⟩
        · exact agrees_of_idle h (fun c => by simp [Client.Covers, Client.Pushes, hpulls, Pull.Applies, hthrown]) hbaseline
        · have hopposed : ¬(s.client.pull E remote).Unopposed := fun hnil => hopposed (Client.conflicts_nil_iff.1 hnil)
          rw [if_neg hopposed] at htracks
          exact agrees_of_partial h htracks (fun c => by simp [Client.Covers, Client.Pushes, hpulls, hopposed]) hrun hstores hbaseline
        · have hunopposed : (s.client.pull E remote).Unopposed := Client.conflicts_nil_iff.2 hclean
          rw [if_pos hunopposed] at htracks
          cases pushes with
          | false =>
            exact agrees_of_nothing h htracks (fun c => by simp [Client.Covers, Client.Pushes, hpulls]) hstores hbaseline
          | true =>
            refine agrees_of_pushed now htracks ⟨rfl, hrun, hunopposed⟩ ?_
            change _ = some (E.serialize _ _ _ (s.client.handleSyncNow E (some (some remote)) true now).stores)
            rw [hstores]
            exact hbaseline
  | applyImport bundle =>
    obtain ⟨_, hrebases, hknown⟩ := htracks
    obtain ⟨hstores, houtcome⟩ := s.client.handleFileChange_cases E bundle
    have hcovers : ∀ c, s.client.Covers E (.applyImport bundle) c ↔ (s.client.pull E bundle).Applies c := by
      simp [Client.Covers, Client.Pushes, Client.pulls]
    rcases houtcome with ⟨hthrown, hbaseline⟩ | ⟨hrun, _, hbaseline⟩ | ⟨hrun, hclean, hbaseline⟩
    · exact agrees_of_idle h (fun c => by simp [hcovers, Pull.Applies, hthrown]) hbaseline
    · exact agrees_of_partial h hrebases hcovers hrun hstores hbaseline
    · exact agrees_of_imported hrebases (hknown (Client.conflicts_nil_iff.2 hclean)) hclean hcovers hrun hstores hbaseline
  | resolve choices pushes => exact agrees_of_resolved h htracks
  | dismiss | toggle | edit => exact agrees_of_idle h (fun c => by simp [Client.Covers, Client.pulls, Client.Pushes]) rfl

/-! ## Whole runs -/

theorem leavesLocal_of_tracks {a : Action} (h : s.Tracks E a) : ∀ P ∈ s.client.pulls E a, P.LeavesLocal := by
  intro P hP
  unfold Client.pulls at hP
  split at hP
  · obtain rfl := Option.some.inj hP
    exact h.1
  · obtain rfl := Option.some.inj hP
    exact h.1
  · cases hP

/-- The runs of a client, with what was done on the way. -/
abbrev Runs (E : Engine) (ok : Session → Action → Prop) : Session → List (Served Session Action Unit) → Prop :=
  Serves (fun a s => ((), s.act E a)) Fresh ok

theorem agrees_of_runs {s : Session} {t : List (Served Session Action Unit)} (h : Runs E (Tracks E) s t) : s.Agrees := by
  induction h with
  | init hfresh => exact fun c f _ v hv => absurd (hfresh c f ▸ hv) nofun
  | step _ hok ih => exact agrees_act ih hok

end Session

/-- In a run whose steps all leave a baseline that tells what every contributor had right after its last
sync, no pull replaces a value that was edited since without reporting it. -/
theorem no_silent_overwrite (E : Engine) {s : Session} {t : List (Served Session Action Unit)}
    (h : Session.Runs E (Session.Tracks E) s t) : ∀ e ∈ t, e.pre.NoSilentOverwrite E e.request := by
  induction h with
  | init => exact fun e he => absurd he List.not_mem_nil
  | step hrun hok ih =>
    rintro e (_ | ⟨_, he⟩)
    · exact Session.noSilentOverwrite_of_agrees (Session.agrees_of_runs hrun) (Session.leavesLocal_of_tracks hok)
    · exact ih e he

/-! ## Two modules -/

/-- A layout by the position of its tabs. -/
def layoutData (tabPosition : String) : Data :=
  Record.ofKeys Contributor.layout.fields fun f => some (text (if f = "tabPosition" then tabPosition else ""))

def storesOf (workspaces : List String) (active tabPosition : String) : Stores
  | .workspaces => (workspaceData workspaces active).get
  | .layout => (layoutData tabPosition).get
  | _ => fun _ => none

def bothBundle (workspaces : List String) (active tabPosition : String) : Bundle :=
  ⟨1, 0, "b", (Record.empty.set "workspaces" ⟨1, workspaceData workspaces active⟩).set "layout" ⟨1, layoutData tabPosition⟩⟩

/-- Two modules are enabled, and nothing was synced. -/
def firstSession : Session where
  client := ⟨"a", storesOf ["w1"] "w1" "top", none, ⟨["workspaces", "layout"], by decide⟩, [], none⟩
  synced _ _ := none

/-- A sync, other tabs here and another workspace there, and a sync that takes both. -/
def takesBoth : List Action :=
  [.syncNow (some (some (bothBundle ["w1", "w2"] "w1" "top"))) true 0,
    .edit (storesOf ["w1", "w2"] "w1" "left"),
    .syncNow (some (some (bothBundle ["w1", "w2"] "w2" "top"))) true 1]

theorem no_silent_overwrite_takesBoth : (serveAll (fun a s => ((), Session.act syncEngine s a)) takesBoth firstSession []).2.Forall
    fun e => e.pre.NoSilentOverwrite syncEngine e.request := by
  have hinit : Session.Runs syncEngine (Session.Tracks syncEngine) firstSession [] := .init fun _ _ => rfl
  have hok : AllOk (fun a s => ((), Session.act syncEngine s a)) (Session.Tracks syncEngine) takesBoth firstSession := by decide
  exact List.forall_iff_forall_mem.2 (no_silent_overwrite syncEngine (hinit.all hok))

/-- A sync, a switch of workspaces on both devices, its resolution, and then other tabs. -/
def switchedTabs : List Action :=
  [.syncNow (some (some (bothBundle ["w1", "w2", "w3"] "w1" "top"))) true 0,
    .edit (storesOf ["w1", "w2", "w3"] "w2" "top"),
    .syncNow (some (some (bothBundle ["w1", "w2", "w3"] "w3" "top"))) true 1,
    .resolve (fun _ _ => .localSide) true,
    .edit (storesOf ["w1", "w2", "w3"] "w2" "left")]

/-- The resolution left a baseline without the layout, so that the next pull sets the tabs back. -/
theorem switchedTabs_overwritten : ¬∀ (E : Engine) (s : Session) (t : List (Served Session Action Unit)),
    Session.Runs E (fun _ _ => True) s t → ∀ e ∈ t, e.pre.NoSilentOverwrite E e.request := by
  intro h
  have hinit : Session.Runs syncEngine (fun _ _ => True) firstSession [] := .init fun _ _ => rfl
  have hrun := hinit.all (allOk_true _ switchedTabs firstSession)
  -- the remote layout is still the one that was synced
  have hlast := h _ _ _ (hrun.step (k := .syncNow (some (some (bothBundle ["w1", "w2", "w3"] "w3" "top"))) true 2) trivial)
    _ List.mem_cons_self _ rfl .layout "tabPosition"
  exact absurd (hlast (by decide) (text "top") (by decide)) (by decide)

end Purdex.Sync
