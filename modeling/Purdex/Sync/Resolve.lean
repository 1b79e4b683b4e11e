/-
A pull and the resolution of what it reports, against the three-way merge with the choices made: the
choices are handed on by the names of the fields, and a contributor with conflicts starts from its
local data.
-/
import Purdex.Sync.Pull

namespace Purdex.Sync

open Json

/-- The choices as they are applied: by field name, of equal names the last one. -/
def handleApply (conflicts : List ConflictItem) (choices : String → String → Choice) : ResolvedFields :=
  conflicts.foldl (fun resolved conflict => resolved.set conflict.field (choices conflict.contributor conflict.field)) Record.empty

theorem foldl_set_get? {conflicts : List ConflictItem} {id : String} (h : ∀ conflict ∈ conflicts, conflict.contributor = id)
    (choices : String → String → Choice) (resolved : ResolvedFields) (f : String) :
    (conflicts.foldl (fun r conflict => r.set conflict.field (choices conflict.contributor conflict.field)) resolved).get? f =
      if ∃ conflict ∈ conflicts, conflict.field = f then some (choices id f) else resolved.get? f := by
  induction conflicts generalizing resolved with
  | nil => simp
  | cons conflict conflicts ih =>
    rw [List.forall_mem_cons] at h
    rw [List.foldl_cons, ih h.2, Record.get?_set, h.1]
    by_cases hf : conflict.field = f
    · simp [hf]
    · simp [hf, Ne.symm hf]

namespace Pull

variable (P : Pull) (choices : String → String → Choice)

/-- The pull, then the resolution of its conflicts; nothing when a contributor throws. -/
def resolve : Option Stores :=
  P.run.2.bind fun result =>
    let out := P.engine.resolveConflicts P.remote result.conflicts (handleApply result.conflicts choices) P.run.1
    if out.2 then some out.1 else none

variable (c : Contributor) (f : String)

/-- The three-way merge of a field, with a conflict replaced by its own choice. -/
def expected : Val :=
  if P.InConflict c f then
    match choices c.id f with
    | .localSide => (P.ours c).get f
    | .remoteSide => (P.theirs c).get f
  else (P.merged c).get f

/-- The stores hold the merge with the choices, and what the pull does not cover is as it was. -/
structure MergesTo (s : Stores) : Prop where
  covered : ∀ c, P.Covers c → ∀ f ∈ c.fields, s c f ≈ P.expected choices c f
  others : ∀ c, ¬P.Covers c → s c = P.stores c

/-! ## When it does -/

/-- The choice for a field of this name: that of the last contributor with a conflict there. -/
def collected : Option Choice :=
  P.contributors.foldl (fun choice c => if P.InConflict c f then some (choices c.id f) else choice) none

/-- The remote value belongs in the field: it is the choice, or the remote side alone changed it. -/
def WantsRemote : Prop := if P.InConflict c f then choices c.id f = .remoteSide else P.TakesRemote c f

instance : Decidable (P.WantsRemote choices c f) :=
  inferInstanceAs (Decidable (if P.InConflict c f then choices c.id f = .remoteSide else P.TakesRemote c f))

/-- What the choices of that name write to the field, of whichever contributor they are. -/
def write : Option Val :=
  (if f ∈ legacyFields ∧ P.collected choices "showOscTitle" = some .remoteSide then showOscTitle c (P.theirs c) else none).or
    (if P.collected choices f = some .remoteSide then some ((P.theirs c).get f) else none)

/-- The choices write the remote value to the field if it belongs there, and else spare it. -/
def Settled : Prop :=
  match P.write choices c f with
  | none => ¬P.WantsRemote choices c f
  | some v => if P.WantsRemote choices c f then v ≈ (P.theirs c).get f ∧ (c.rule f).Accepts v else (c.rule f).Spares (P.stores c f) v

/-- The merged field stays as it is, where an old preference may stand for it. -/
def StoredAs : Option Val → Prop
  | some b => b ≈ (P.merged c).get f
  | none => (c.rule f).Stores (P.stores c f) ((P.merged c).get? f)

instance : ∀ old, Decidable (P.StoredAs c f old)
  | some b => inferInstanceAs (Decidable (b ≈ (P.merged c).get f))
  | none => inferInstanceAs (Decidable ((c.rule f).Stores (P.stores c f) ((P.merged c).get? f)))

/-- The contributor stores the merged field as it is: one that is missing leaves none behind, a value
is of the form the contributor keeps, and no old preference stands for another value. -/
def Stored : Prop := P.StoredAs c f (if f ∈ legacyFields then showOscTitle c (P.merged c) else none)

instance : Decidable (P.Stored c f) := inferInstanceAs (Decidable (P.StoredAs c f _))

structure Resolvable : Prop where
  clean : ∀ c, P.Covers c → P.Clean c → ∀ f ∈ c.fields, P.Stored c f
  conflicted : ∀ c, P.Covers c → ¬P.Clean c → ∀ f ∈ c.fields, P.Settled choices c f

section Facts

variable {P choices c f}

/-- The choices are collected from the conflicts of one contributor after another. -/
theorem handleApply_get? (f : String) :
    (handleApply (P.contributors.flatMap P.reported) choices).get? f = P.collected choices f := by
  unfold handleApply collected
  have hnone : (Record.empty : ResolvedFields).get? f = none := rfl
  generalize (Record.empty : ResolvedFields) = resolved at hnone ⊢
  rw [← hnone]
  clear hnone
  induction P.contributors generalizing resolved with
  | nil => rfl
  | cons c cs ih =>
    rw [List.flatMap_cons, List.foldl_append, ih, List.foldl_cons]
    refine congrArg (List.foldl _ · cs) ?_
    rw [foldl_set_get? fun conflict h => (mem_reported h).1]
    simp only [inConflict_iff]

theorem expected_eq (hf : f ∈ c.fields) : P.expected choices c f = if P.WantsRemote choices c f then (P.theirs c).get f else (P.ours c).get f := by
  by_cases h : P.InConflict c f
  · have hwants : P.WantsRemote choices c f ↔ choices c.id f = .remoteSide := by rw [WantsRemote, if_pos h]
    simp only [expected, if_pos h, hwants]
    cases choices c.id f <;> simp
  · have hwants : P.WantsRemote choices c f ↔ P.TakesRemote c f := by rw [WantsRemote, if_neg h]
    simp only [expected, if_neg h, hwants]
    exact merged_get_eq hf

/-- A remote value that belongs in a field of a contributor with conflicts differs from the local one. -/
theorem ne_of_wantsRemote (hclean : ¬P.Clean c) (h : P.WantsRemote choices c f) : ¬(P.ours c).get f ≈ (P.theirs c).get f := by
  unfold WantsRemote at h
  split at h
  · rename_i hconflict
    obtain ⟨last, _, hlast⟩ := hconflict.2
    exact (detectConflict_conflict.1 hlast).2.2
  · obtain ⟨g, hg⟩ := not_forall_not.1 hclean
    obtain ⟨last, hlast, _⟩ := hg.2
    obtain ⟨hours, htheirs⟩ := detectConflict_useRemote.1 (h last hlast)
    exact fun heq => htheirs (Setoid.trans hours heq)

theorem rule_of_showOscTitle {data : Data} {b : Val} (h : showOscTitle c data = some b) : c.rule f = .kept := by
  unfold showOscTitle at h
  split at h
  · subst_vars
    rfl
  · cases h

theorem write_some {v : Val} (h : P.write choices c f = some v) : v = (P.theirs c).get f ∨ c.rule f = .kept := by
  unfold write at h
  rcases Option.or_eq_some_iff.1 h with h | ⟨_, h⟩
  · split at h
    · exact .inr (rule_of_showOscTitle h)
    · cases h
  · split at h
    · exact .inl (Option.some.inj h).symm
    · cases h

theorem overlay_get? (resolved : ResolvedFields) (ours theirs : Data) (f : String) :
    (Engine.overlay resolved ours theirs).get? f =
      if resolved.get? f = some .remoteSide then some (theirs.get f) else ours.get? f := by
  refine Record.get?_ofKeys_of (fun f hf => ?_) f
  rw [List.mem_append, not_or] at hf
  rw [Record.get?_eq_none hf.1, Record.get?_eq_none hf.2]
  simp

theorem showOscTitle_congr {d e : Data} (h : d.get "showOscTitle" = e.get "showOscTitle") :
    showOscTitle c d = showOscTitle c e := by
  unfold showOscTitle
  rw [h]

theorem ours_showOscTitle : (P.ours c).get? "showOscTitle" = none := by
  rw [ours, Contributor.serialize, Record.get?_ofKeys]
  exact if_neg (by cases c <;> decide)

/-- What the contributor is told to write is what the choices write. -/
theorem chosen_eq {resolved : ResolvedFields} (hresolved : ∀ f, resolved.get? f = P.collected choices f) :
    c.chosen (Engine.overlay resolved (P.ours c) (P.theirs c)) resolved f = P.write choices c f := by
  unfold Contributor.chosen Contributor.incoming write
  simp only [hresolved, overlay_get?]
  by_cases hold : P.collected choices "showOscTitle" = some .remoteSide
  · have hget : (Engine.overlay resolved (P.ours c) (P.theirs c)).get "showOscTitle" = (P.theirs c).get "showOscTitle" := by
      rw [Data.get, overlay_get?, hresolved, if_pos hold, Option.getD_some]
    rw [showOscTitle_congr hget]
    by_cases hf : f ∈ legacyFields
    · simp only [hf, hold, and_self, if_true]
      cases showOscTitle c (P.theirs c) <;> split <;> simp
    · simp only [hf, false_and, if_false]
      split <;> simp
  · have hnone : showOscTitle c (Engine.overlay resolved (P.ours c) (P.theirs c)) = none := by
      unfold showOscTitle Data.get
      rw [overlay_get?, hresolved, if_neg hold, ours_showOscTitle]
      simp
    simp only [hold, and_false, if_false, hnone, Option.none_or, ite_self]
    split <;> simp

/-- One field of a contributor with conflicts. -/
theorem settled_iff (hclean : ¬P.Clean c) (hf : f ∈ c.fields) {payload : Payload} {resolved : ResolvedFields}
    (hresolved : ∀ f, resolved.get? f = P.collected choices f)
    (hdata : payload.data = Engine.overlay resolved (P.ours c) (P.theirs c)) :
    (∃ w, c.written payload (.fieldMerge resolved) (P.stores c) f = some w ∧ w ≈ P.expected choices c f) ↔
      P.Settled choices c f := by
  have hours : (P.ours c).get f = P.stores c f := ours_get hf
  simp only [Contributor.written, hdata, chosen_eq hresolved, expected_eq hf, Settled]
  cases hwrite : P.write choices c f with
  | none =>
    simp only [Option.some.injEq, exists_eq_left']
    by_cases hwants : P.WantsRemote choices c f
    · rw [if_pos hwants, ← hours]
      exact ⟨fun h => absurd h (ne_of_wantsRemote hclean hwants), fun h => absurd hwants h⟩
    · rw [if_neg hwants, hours]
      exact ⟨fun _ => hwants, fun _ => Setoid.refl _⟩
  | some v =>
    dsimp only
    by_cases hwants : P.WantsRemote choices c f
    · rw [if_pos hwants, if_pos hwants]
      have hne : ¬P.stores c f ≈ (P.theirs c).get f := hours ▸ ne_of_wantsRemote hclean hwants
      constructor
      · rintro ⟨w, hw, heq⟩
        rcases write_some hwrite with rfl | hkept
        · exact ⟨Setoid.refl _, (patch_iff hne).1 ⟨w, hw, heq⟩⟩
        · rw [hkept] at hw ⊢
          obtain rfl := Option.some.inj hw
          exact ⟨heq, trivial⟩
      · rintro ⟨hv, haccepts⟩
        obtain ⟨w, hw, heq⟩ := (patch_iff fun h => hne (Setoid.trans h hv)).2 haccepts
        exact ⟨w, hw, Setoid.trans heq hv⟩
    · rw [if_neg hwants, if_neg hwants, hours]
      exact spares_iff

/-- One field of a contributor without conflicts. -/
theorem stored_iff (payload : Payload) (hdata : payload.data = P.merged c) :
    (∃ w, c.written payload .fullReplace (P.stores c) f = some w ∧ w ≈ (P.merged c).get f) ↔ P.Stored c f := by
  unfold Contributor.written Contributor.incoming Stored StoredAs
  rw [hdata]
  by_cases hf : f ∈ legacyFields
  · simp only [if_pos hf]
    cases hold : showOscTitle c (P.merged c) with
    | none => exact replace_iff _ _ _
    | some b =>
      rw [rule_of_showOscTitle hold]
      simp [Rule.replace]
  · simp only [if_neg hf]
    exact replace_iff _ _ _

end Facts

/-! ## The whole resolution -/

section Whole

variable {P choices} {c : Contributor} {result : Engine.PullResult}

/-- The contributors that are resolved. -/
def conflicted (P : Pull) (conflicts : List ConflictItem) : List Contributor :=
  P.engine.contributors (Engine.setOf (conflicts.map (·.contributor)))

theorem covers_of_not_clean (h : ¬P.Clean c) : P.Covers c := by
  obtain ⟨g, hg⟩ := not_forall_not.1 h
  exact hg.1

/-- The ids among the reported conflicts are those of the contributors with conflicts. -/
theorem mem_conflict_ids : c.id ∈ (P.contributors.flatMap P.reported).map (·.contributor) ↔ ¬P.Clean c := by
  rw [clean_iff_reported]
  constructor
  · intro hid hnil
    obtain ⟨conflict, hconflict, hc⟩ := List.mem_map.1 hid
    obtain ⟨d, _, hd⟩ := List.mem_flatMap.1 hconflict
    obtain rfl : d = c := Contributor.id_inj ((mem_reported hd).1.symm.trans hc)
    exact List.not_mem_nil (hnil ▸ hd)
  · intro hne
    have hcovers : P.Covers c := covers_of_not_clean fun h => hne (clean_iff_reported.1 h)
    obtain ⟨conflict, hconflict⟩ := List.exists_mem_of_ne_nil _ hne
    exact List.mem_map.2 ⟨conflict, List.mem_flatMap.2 ⟨c, hcovers.1, hconflict⟩, (mem_reported hconflict).1⟩

theorem mem_conflicted : c ∈ P.conflicted (P.contributors.flatMap P.reported) ↔ ¬P.Clean c := by
  rw [conflicted, Engine.mem_contributors, Engine.mem_setOf, mem_conflict_ids]
  exact and_iff_left_of_imp fun h => (Engine.mem_contributors.1 (covers_of_not_clean h).1).2

/-- What the contributors with conflicts are told to take. -/
def resolution (P : Pull) (resolved : ResolvedFields) (c : Contributor) (payload : Payload) : Payload :=
  ⟨payload.version, Engine.overlay resolved (P.ours c) (P.theirs c)⟩

theorem resolveOne_eq {resolved : ResolvedFields} {payload : Payload} (hclean : ¬P.Clean c) (h : P.payload c = some payload) :
    Engine.resolveOne P.remote resolved c (P.run.1 c) =
      (c.deserialize (P.resolution resolved c payload) (.fieldMerge resolved) (P.stores c)).map ((), ·) := by
  have hget : P.remote.collections.get? c.id = some payload := h
  rw [run_conflicted hclean]
  simp only [Engine.resolveOne, hget, resolution, theirs_eq h, ours]

/-- A resolution leaves a contributor without conflicts what the pull left it, and has one with
conflicts take its own. -/
theorem resolve_some {s : Stores} (h : P.resolve choices = some s) :
    ∃ result, P.run.2 = some result ∧ (∀ c, P.Clean c → s c = P.run.1 c) ∧
      ∀ c payload, ¬P.Clean c → P.payload c = some payload →
        c.deserialize (P.resolution (handleApply result.conflicts choices) c payload)
          (.fieldMerge (handleApply result.conflicts choices)) (P.stores c) = some (s c) := by
  obtain ⟨result, hresult, hout⟩ := Option.bind_eq_some_iff.1 h
  have hconflicts := (run_some hresult).2.1
  refine ⟨result, hresult, ?_⟩
  dsimp only at hout
  split at hout
  · rename_i hdone
    obtain rfl := Option.some.inj hout
    obtain ⟨as, has⟩ := Option.isSome_iff_exists.1 hdone
    have hsteps := (Engine.forEach_some (Engine.nodup_contributors (Engine.nodup_setOf _)) has).1
    refine ⟨fun c hclean => Engine.forEach_of_not_mem ?_, fun c payload hclean hpayload => ?_⟩
    · rw [hconflicts]
      exact fun hmem => mem_conflicted.1 hmem hclean
    · obtain ⟨_, _, hstep⟩ := hsteps c (by rw [hconflicts]; exact mem_conflicted.2 hclean)
      rw [resolveOne_eq hclean hpayload] at hstep
      obtain ⟨t, ht, heq⟩ := Option.map_eq_some_iff.1 hstep
      rw [ht]
      exact congrArg some (Prod.mk.inj heq).2
  · cases hout

/-- A resolution goes through when every contributor with conflicts takes its own. -/
theorem exists_resolve {result : Engine.PullResult} (hresult : P.run.2 = some result)
    (h : ∀ c payload, ¬P.Clean c → P.payload c = some payload →
      (c.deserialize (P.resolution (handleApply result.conflicts choices) c payload)
        (.fieldMerge (handleApply result.conflicts choices)) (P.stores c)).isSome) :
    ∃ s, P.resolve choices = some s := by
  have hconflicts := (run_some hresult).2.1
  have hdone : (P.engine.resolveConflicts P.remote result.conflicts (handleApply result.conflicts choices) P.run.1).2 = true := by
    refine (Engine.forEach_isSome (Engine.nodup_contributors (Engine.nodup_setOf _))).2 fun c hc => ?_
    rw [hconflicts] at hc
    have hclean := mem_conflicted.1 hc
    obtain ⟨payload, hpayload⟩ := Option.isSome_iff_exists.1 (covers_of_not_clean hclean).2
    rw [resolveOne_eq hclean hpayload, Option.isSome_map]
    exact h c payload hclean hpayload
  rw [resolve, hresult, Option.bind_some]
  dsimp only
  rw [if_pos hdone]
  exact ⟨_, rfl⟩

end Whole

/-- A pull and the resolution of its conflicts leave the three-way merge with the choices made, if and
only if every contributor without conflicts stores its merge as it is, and every field of the others
gets the remote value by a choice of its name exactly when it belongs there. -/
theorem resolve_merges_iff (P : Pull) (choices : String → String → Choice) :
    (∃ s, P.resolve choices = some s ∧ P.MergesTo choices s) ↔ P.Resolvable choices := by
  have hexpected : ∀ c f, P.Clean c → P.expected choices c f = (P.merged c).get f := fun c f h => if_neg (h f)
  constructor
  · rintro ⟨s, hs, hmerges⟩
    obtain ⟨result, hresult, hclean, hconflicted⟩ := resolve_some hs
    obtain ⟨_, hconflicts, htakes⟩ := run_some hresult
    refine ⟨fun c hcovers hc f hf => ?_, fun c hcovers hc f hf => ?_⟩
    · obtain ⟨payload, hpayload⟩ := Option.isSome_iff_exists.1 hcovers.2
      have hwritten := Contributor.deserialize_some (htakes c payload hpayload hcovers.1 hc) hf
      refine (stored_iff ⟨payload.version, P.merged c⟩ rfl).1 ⟨_, hwritten, ?_⟩
      rw [← hclean c hc, ← hexpected c f hc]
      exact hmerges.covered c hcovers f hf
    · obtain ⟨payload, hpayload⟩ := Option.isSome_iff_exists.1 hcovers.2
      have hwritten := Contributor.deserialize_some (hconflicted c payload hc hpayload) hf
      refine (settled_iff hc hf (fun g => ?_) rfl).1 ⟨_, hwritten, hmerges.covered c hcovers f hf⟩
      rw [hconflicts]
      exact handleApply_get? g
  · intro h
    -- every step goes through, because each of its fields is written
    have hrun : P.run.2.isSome := by
      refine run_isSome.2 fun c payload hpayload hc hclean => Contributor.deserialize_isSome.2 fun f hf => ?_
      obtain ⟨w, hw, _⟩ := (stored_iff ⟨payload.version, P.merged c⟩ rfl).2
        (h.clean c ⟨hc, by rw [hpayload]; rfl⟩ hclean f hf)
      rw [hw]
      rfl
    obtain ⟨result, hresult⟩ := Option.isSome_iff_exists.1 hrun
    obtain ⟨_, hconflicts, htakes⟩ := run_some hresult
    have hresolved : ∀ g, (handleApply result.conflicts choices).get? g = P.collected choices g := by
      intro g
      rw [hconflicts]
      exact handleApply_get? g
    have hsettled : ∀ c payload, ¬P.Clean c → ∀ f ∈ c.fields, ∃ w, c.written (P.resolution (handleApply result.conflicts choices) c payload)
        (.fieldMerge (handleApply result.conflicts choices)) (P.stores c) f = some w ∧ w ≈ P.expected choices c f := by
      intro c payload hclean f hf
      exact (settled_iff hclean hf hresolved rfl).2 (h.conflicted c (covers_of_not_clean hclean) hclean f hf)
    obtain ⟨s, hs⟩ := exists_resolve hresult fun c payload hclean hpayload => Contributor.deserialize_isSome.2 fun f hf => by
      obtain ⟨w, hw, _⟩ := hsettled c payload hclean f hf
      rw [hw]
      rfl
    refine ⟨s, hs, fun c hcovers f hf => ?_, fun c hnot => ?_⟩
    · obtain ⟨payload, hpayload⟩ := Option.isSome_iff_exists.1 hcovers.2
      obtain ⟨result', hresult', hclean, hconflicted⟩ := resolve_some hs
      obtain rfl := Option.some.inj (hresult.symm.trans hresult')
      by_cases hc : P.Clean c
      · obtain ⟨w, hw, heq⟩ := (stored_iff ⟨payload.version, P.merged c⟩ rfl).2 (h.clean c hcovers hc f hf)
        have hwritten := Contributor.deserialize_some (htakes c payload hpayload hcovers.1 hc) hf
        obtain rfl := Option.some.inj (hw.symm.trans hwritten)
        rw [hclean c hc, hexpected c f hc]
        exact heq
      · obtain ⟨w, hw, heq⟩ := hsettled c payload hc f hf
        have hwritten := Contributor.deserialize_some (hconflicted c payload hc hpayload) hf
        obtain rfl := Option.some.inj (hw.symm.trans hwritten)
        exact heq
    · obtain ⟨_, _, hclean, _⟩ := resolve_some hs
      rw [hclean c fun f hf => hnot hf.1]
      exact run_uncovered hnot

end Pull

/-! ## A change that is dropped -/

def text (s : String) : Val := some ⟨.str s, rfl⟩

/-- The workspaces and the active one. -/
def workspaceData (workspaces : List String) (active : String) : Data :=
  Record.ofKeys ["workspaces", "activeWorkspaceId"] fun f =>
    if f = "workspaces" then some (some ⟨.arr (workspaces.map .str), Raw.wf_arr.2 fun a ha => by
      obtain ⟨_, _, rfl⟩ := List.mem_map.1 ha
      rfl⟩)
    else some (text active)

def workspaceBundle (device : String) (data : Data) : Bundle :=
  ⟨1, 0, device, Record.empty.set "workspaces" ⟨1, data⟩⟩

/-- Both devices switched to another workspace, and the remote one made a workspace. -/
def newWorkspace : Pull where
  engine := syncEngine
  lastSynced := some (workspaceBundle "a" (workspaceData ["w1", "w2"] "w1"))
  remote := workspaceBundle "b" (workspaceData ["w1", "w2", "w3"] "w3")
  enabledModules := ⟨["workspaces"], by decide⟩
  stores _ := (workspaceData ["w1", "w2"] "w2").get

/-- The new workspace, which only the remote device made, is lost in resolving which one is active. -/
theorem newWorkspace_dropped :
    ¬∃ s, newWorkspace.resolve (fun _ _ => .localSide) = some s ∧ newWorkspace.MergesTo (fun _ _ => .localSide) s := by
  rintro ⟨s, hs, hmerges⟩
  have hlost : (newWorkspace.resolve fun _ _ => .localSide).all (fun s =>
      ¬s .workspaces "workspaces" ≈ newWorkspace.expected (fun _ _ => .localSide) .workspaces "workspaces") = true := by decide
  have hmerged := hmerges.covered .workspaces (by decide) "workspaces" (by decide)
  rw [hs, Option.all_some, decide_eq_true_eq] at hlost
  exact hlost hmerged

end Purdex.Sync
