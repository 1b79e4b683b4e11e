/-
Every run of the new tab's layout: no module is in a profile twice and none comes back, as long as nothing was placed before its provider became known.
-/
import Purdex.Conc.Reach
import Purdex.NewTab.Layout

namespace Purdex.NewTab

open Json Conc

namespace State

variable {s : State} {id : String} {key : ProfileKey} {providers : List ProviderInfo}

/-- The modules of a profile. -/
def ids (s : State) (key : ProfileKey) : List String := (s.profiles key).columns.flatten

def column (s : State) (key : ProfileKey) (i : Nat) : List String := (s.profiles key).columns.getD i []

/-- The profiles have the columns of their names, and the first one is never disabled. -/
structure Shaped (s : State) : Prop where
  columns : ∀ key, (s.profiles key).columns.length = key.colCount
  locked : (s.profiles .col1).enabled = true

/-- No module is in a profile twice, and none is known twice. -/
structure Sound (s : State) : Prop extends s.Shaped where
  once : ∀ key, (s.ids key).Nodup
  known : s.knownIds.Nodup

theorem sound_initialState : initialState.Sound := by
  refine ⟨⟨fun key => List.length_replicate, rfl⟩, fun key => ?_, List.nodup_nil⟩
  cases key <;> decide

theorem Shaped.columns_pos (h : s.Shaped) (key : ProfileKey) : 0 < (s.profiles key).columns.length := h.columns key ▸ key.colCount_pos

/-! ## One profile -/

theorem profiles_setProfile (s : State) (key : ProfileKey) (p : Profile) (key' : ProfileKey) :
    (s.setProfile key p).profiles key' = if key' = key then p else s.profiles key' := Function.update_apply s.profiles key p key'

theorem ids_setProfile_self (s : State) (key : ProfileKey) (p : Profile) : (s.setProfile key p).ids key = p.columns.flatten := by
  rw [ids, profiles_setProfile, if_pos rfl]

theorem ids_setProfile_of_ne {key' : ProfileKey} (h : key' ≠ key) (s : State) (p : Profile) : (s.setProfile key p).ids key' = s.ids key' := by
  rw [ids, profiles_setProfile, if_neg h, ids]

theorem Sound.setProfile (h : s.Sound) {p : Profile} (hlength : p.columns.length = key.colCount) (henabled : key = .col1 → p.enabled = true)
    (hnodup : p.columns.flatten.Nodup) : (s.setProfile key p).Sound := by
  refine ⟨⟨fun key' => ?_, ?_⟩, fun key' => ?_, h.known⟩
  · rw [profiles_setProfile]
    split
    · rename_i heq
      rw [heq, hlength]
    · exact h.columns key'
  · rw [profiles_setProfile]
    split
    · rename_i heq
      exact henabled heq.symm
    · exact h.locked
  · by_cases hkey : key' = key
    · subst hkey
      rwa [ids_setProfile_self]
    · rw [ids_setProfile_of_ne hkey]
      exact h.once key'

theorem Sound.setEnabled (h : s.Sound) (p : ProfileKey) (enabled : Bool) : (s.setEnabled p enabled).Sound := by
  unfold State.setEnabled
  split
  · exact h
  · rename_i hallowed
    refine h.setProfile (h.columns p) (fun hp => ?_) (h.once p)
    by_contra hoff
    exact hallowed ⟨hp, eq_false_of_ne_true hoff⟩

theorem Sound.place (h : s.Sound) (p : ProfileKey) (id : String) (colIdx rowIdx : Int) : (s.placeModule p id colIdx rowIdx).Sound := by
  refine h.setProfile ?_ (fun hp => ?_) (nodup_placeIn (h.once p) id colIdx rowIdx)
  · rw [length_placeIn, h.columns]
  · rw [enabled_placeIn, hp, h.locked]

/-- The shortest column is one of them. -/
theorem placeModuleInShortest_eq (s : State) (p : ProfileKey) (id : String) : ∃ colIdx rowIdx : Int, s.placeModuleInShortest p id = s.placeModule p id colIdx rowIdx :=
  ⟨_, _, rfl⟩

theorem Sound.removeModule (h : s.Sound) (p : ProfileKey) (id : String) : (s.removeModule p id).Sound := by
  unfold State.removeModule
  simp only
  split
  · exact h
  · refine h.setProfile ?_ (fun hp => ?_) ((map_erase_sublist _ id).nodup (h.once p))
    · rw [List.length_map, h.columns]
    · rw [hp, h.locked]

theorem mem_ids_removeModule {p : ProfileKey} {b : String} (h : b ∈ (s.removeModule p id).ids key) : b ∈ s.ids key := by
  unfold State.removeModule at h
  simp only at h
  split at h
  · exact h
  · by_cases hkey : key = p
    · subst hkey
      rw [ids_setProfile_self] at h
      exact (map_erase_sublist _ id).subset h
    · rwa [ids_setProfile_of_ne hkey] at h

theorem not_mem_ids_removeModule (h : s.Sound) (p : ProfileKey) (id : String) : id ∉ (s.removeModule p id).ids p := by
  unfold State.removeModule
  simp only
  split
  · rename_i hchanged
    intro hmem
    obtain ⟨col, hcol, hid⟩ := List.mem_flatten.1 hmem
    exact of_decide_eq_false ((List.any_eq_false.1 hchanged col hcol |> eq_false_of_ne_true)) hid
  · rw [ids_setProfile_self]
    exact not_mem_map_erase (h.once p)

/-! ## Newcomers -/

theorem mem_newcomers {p : ProviderInfo} : p ∈ s.newcomers providers ↔ p ∈ providers ∧ p.id ∉ s.knownIds ∧ p.disabled = false := by
  rw [newcomers, List.mem_insertionSort, List.mem_filter, decide_eq_true_eq]

theorem nodup_newcomers (s : State) (h : (providers.map (·.id)).Nodup) : ((s.newcomers providers).map (·.id)).Nodup := by
  have hperm := (List.perm_insertionSort (fun a b : ProviderInfo => a.order ≤ b.order) (providers.filter fun p => p.id ∉ s.knownIds ∧ p.disabled = false)).map (·.id)
  exact hperm.nodup_iff.2 ((List.filter_sublist.map _).nodup h)

/-- What a list of newcomers makes of a state: they come into every profile, behind what is there. -/
structure Joined (s t : State) (l : List ProviderInfo) : Prop where
  ids : ∀ key, (t.ids key).Perm (l.map (·.id) ++ s.ids key)
  known : t.knownIds = s.knownIds ++ l.map (·.id)
  length : ∀ key, (t.profiles key).columns.length = (s.profiles key).columns.length
  enabled : ∀ key, (t.profiles key).enabled = (s.profiles key).enabled
  columns : ∀ key i, s.column key i <+: t.column key i

theorem Joined.refl (s : State) : s.Joined s [] :=
  ⟨fun _ => List.Perm.refl _, (List.append_nil _).symm, fun _ => rfl, fun _ => rfl, fun _ _ => List.prefix_rfl⟩

theorem joined_addDefaults (h : s.Shaped) (l : List ProviderInfo) : s.Joined (l.foldl (fun s p => s.addDefault p.id) s) l := by
  induction l generalizing s with
  | nil => exact .refl s
  | cons p l ih =>
    have hone : (s.addDefault p.id).Shaped := ⟨fun key => (length_pushShortest _ _).trans (h.columns key), h.locked⟩
    obtain ⟨hids, hknown, hlength, henabled, hcolumns⟩ := ih hone
    refine ⟨fun key => ?_, ?_, fun key => ?_, fun key => ?_, fun key i => ?_⟩
    · refine (hids key).trans (((pushShortest_perm (h.columns_pos key) p.id).append_left _).trans ?_)
      exact List.perm_middle
    · refine hknown.trans ?_
      rw [State.addDefault, List.append_assoc]
      rfl
    · exact (hlength key).trans (length_pushShortest _ _)
    · exact henabled key
    · exact (prefix_pushShortest (h.columns_pos key) p.id i).trans (hcolumns key i)

theorem joined_ensureDefaults (h : s.Shaped) (providers : List ProviderInfo) : s.Joined (s.ensureDefaults providers) (s.newcomers providers) := by
  unfold ensureDefaults
  split
  · rename_i hnone
    rw [List.length_eq_zero_iff.1 hnone]
    exact .refl s
  · exact joined_addDefaults h _

theorem Joined.shaped {t : State} {l : List ProviderInfo} (h : s.Joined t l) (hs : s.Shaped) : t.Shaped :=
  ⟨fun key => (h.length key).trans (hs.columns key), (h.enabled .col1).trans hs.locked⟩

/-- A list of providers is known after the first time. -/
theorem ensureDefaults_twice (h : s.Shaped) (providers : List ProviderInfo) :
    (s.ensureDefaults providers).ensureDefaults providers = s.ensureDefaults providers := by
  have hnone : (s.ensureDefaults providers).newcomers providers = [] := by
    refine List.eq_nil_iff_forall_not_mem.2 fun p hp => ?_
    obtain ⟨hmem, hknown, henabled⟩ := mem_newcomers.1 hp
    rw [(joined_ensureDefaults h providers).known, List.mem_append, not_or] at hknown
    exact hknown.2 (List.mem_map_of_mem (mem_newcomers.2 ⟨hmem, hknown.1, henabled⟩))
  rw [ensureDefaults, if_pos (List.length_eq_zero_iff.2 hnone)]

end State

/-! ## Runs -/

/-- A list of providers as the registry has them. -/
structure Providers where
  list : List ProviderInfo
  distinct : (list.map (·.id)).Nodup

inductive Action where
  | setEnabled (p : ProfileKey) (enabled : Bool)
  | setEditing (p : ProfileKey)
  | placeModule (p : ProfileKey) (providerId : String) (colIdx rowIdx : Int)
  | placeModuleInShortest (p : ProfileKey) (providerId : String)
  | removeModule (p : ProfileKey) (providerId : String)
  | ensureDefaults (providers : Providers)
  | reset
  | reload

/-- The store, and which modules were taken out of a profile and not placed in it again since. -/
structure Run where
  state : State
  removed : ProfileKey → List String

namespace Run

def start : Run := ⟨initialState, fun _ => []⟩

/-- `id` was placed in the profile if it is in it now. -/
def placed (r : Run) (p : ProfileKey) (id : String) (state : State) : Run :=
  ⟨state, if id ∈ state.ids p then Function.update r.removed p ((r.removed p).filter (· ≠ id)) else r.removed⟩

def next (r : Run) : Action → Run
  | .setEnabled p enabled => { r with state := r.state.setEnabled p enabled }
  | .setEditing p => { r with state := r.state.setEditing p }
  | .placeModule p id colIdx rowIdx => r.placed p id (r.state.placeModule p id colIdx rowIdx)
  | .placeModuleInShortest p id => r.placed p id (r.state.placeModuleInShortest p id)
  | .removeModule p id => ⟨r.state.removeModule p id, if id ∈ r.state.ids p then Function.update r.removed p (id :: r.removed p) else r.removed⟩
  | .ensureDefaults providers => { r with state := r.state.ensureDefaults providers.list }
  | .reset => ⟨initialState, fun _ => []⟩
  | .reload => { r with state := rehydrate r.state.partialize }

/-- What was removed from a profile is not in it. -/
def Gone (r : Run) : Prop := ∀ key, ∀ id ∈ r.removed key, id ∉ r.state.ids key

/-- What becomes known is in every profile once, what was there stays where it is, and the same list does nothing more. -/
structure Settled (s t : State) (providers : List ProviderInfo) : Prop where
  twice : t.ensureDefaults providers = t
  once : ∀ p ∈ s.newcomers providers, ∀ key, (t.ids key).count p.id = 1
  kept : ∀ key i, s.column key i <+: t.column key i
  others : ∀ key, ∀ id ∈ t.ids key, id ∈ s.ids key ∨ id ∈ (s.newcomers providers).map (·.id)

/-- The action neither doubles a module nor brings one back. -/
structure Kept (r : Run) (a : Action) : Prop where
  sound : (r.next a).state.Sound
  gone : (r.next a).Gone
  settled : ∀ providers, a = .ensureDefaults providers → Settled r.state (r.next a).state providers.list

/-- Nothing that becomes known is in a profile or was removed from one. -/
def Untouched (r : Run) (a : Action) : Prop :=
  ∀ providers, a = .ensureDefaults providers → ∀ p ∈ r.state.newcomers providers.list, ∀ key, p.id ∉ r.state.ids key ∧ p.id ∉ r.removed key

structure Good (r : Run) : Prop where
  sound : r.state.Sound
  gone : r.Gone

variable {r : Run}

theorem good_start : start.Good := ⟨State.sound_initialState, fun _ _ h => absurd h List.not_mem_nil⟩

/-- Nothing new comes into a profile. -/
theorem Good.fewer (h : r.Good) {s : State} (hs : s.Sound) (hids : ∀ key, ∀ id ∈ s.ids key, id ∈ r.state.ids key) : Good { r with state := s } :=
  ⟨hs, fun key id hid hmem => h.gone key id hid (hids key id hmem)⟩

theorem Good.placeModule (h : r.Good) (p : ProfileKey) (id : String) (colIdx rowIdx : Int) :
    (r.placed p id (r.state.placeModule p id colIdx rowIdx)).Good := by
  have hs := h.sound.place p id colIdx rowIdx
  have hmem : ∀ key, ∀ b ∈ (r.state.placeModule p id colIdx rowIdx).ids key, b ∈ r.state.ids key ∨ key = p ∧ b = id := by
    intro key b hb
    by_cases hkey : key = p
    · subst hkey
      rw [State.placeModule, State.ids_setProfile_self] at hb
      exact (mem_placeIn hb).imp_right fun hid => ⟨rfl, hid.1⟩
    · rw [State.placeModule, State.ids_setProfile_of_ne hkey] at hb
      exact .inl hb
  refine ⟨hs, fun key b hb hin => ?_⟩
  replace hin : b ∈ (r.state.placeModule p id colIdx rowIdx).ids key := hin
  rw [placed] at hb
  simp only at hb
  split at hb
  · -- the id is no longer among those that were removed
    rw [Function.update_apply] at hb
    split at hb
    · rename_i hkey
      subst hkey
      obtain ⟨hb, hne⟩ := List.mem_filter.1 hb
      rcases hmem _ b hin with hold | ⟨-, rfl⟩
      · exact h.gone _ b hb hold
      · exact of_decide_eq_true hne rfl
    · rename_i hkey
      exact h.gone key b hb ((hmem key b hin).resolve_right fun hp => hkey hp.1)
  · rename_i habsent
    rcases hmem key b hin with hold | ⟨rfl, rfl⟩
    · exact h.gone key b hb hold
    · exact habsent hin

theorem Good.removeModule (h : r.Good) (p : ProfileKey) (id : String) : (r.next (.removeModule p id)).Good := by
  refine ⟨h.sound.removeModule p id, fun key b hb hin => ?_⟩
  replace hin : b ∈ (r.state.removeModule p id).ids key := hin
  have hold := State.mem_ids_removeModule hin
  rw [next] at hb
  simp only at hb
  split at hb
  · rw [Function.update_apply] at hb
    split at hb
    · rename_i hkey
      subst hkey
      rcases List.mem_cons.1 hb with rfl | hb
      · exact State.not_mem_ids_removeModule h.sound _ _ hin
      · exact h.gone _ b hb hold
    · exact h.gone key b hb hold
  · exact h.gone key b hb hold

/-- Only the defaults can go wrong. -/
theorem Good.next (h : r.Good) {a : Action} (ha : ∀ providers, a ≠ .ensureDefaults providers) : (r.next a).Good := by
  cases a with
  | setEnabled p enabled =>
    refine h.fewer (h.sound.setEnabled p enabled) fun key id hid => ?_
    unfold State.setEnabled at hid
    split at hid
    · exact hid
    · by_cases hkey : key = p
      · subst hkey
        rwa [State.ids_setProfile_self] at hid
      · rwa [State.ids_setProfile_of_ne hkey] at hid
  | setEditing p => exact h.fewer ⟨⟨h.sound.columns, h.sound.locked⟩, h.sound.once, h.sound.known⟩ fun _ _ hid => hid
  | placeModule p id colIdx rowIdx => exact h.placeModule p id colIdx rowIdx
  | placeModuleInShortest p id =>
    obtain ⟨colIdx, rowIdx, heq⟩ := r.state.placeModuleInShortest_eq p id
    rw [Run.next, heq]
    exact h.placeModule p id colIdx rowIdx
  | removeModule p id => exact h.removeModule p id
  | ensureDefaults providers => exact absurd rfl (ha providers)
  | reset => exact good_start
  | reload =>
    rw [Run.next, rehydrate_partialize h.sound.columns h.sound.locked]
    exact h

theorem Good.ensureDefaults (h : r.Good) {providers : Providers} (hnew : r.Untouched (.ensureDefaults providers)) :
    (r.next (.ensureDefaults providers)).Good ∧ Settled r.state (r.state.ensureDefaults providers.list) providers.list := by
  have hjoined := State.joined_ensureDefaults h.sound.toShaped providers.list
  have hdistinct := r.state.nodup_newcomers providers.distinct
  have hapart : ∀ key, ((r.state.newcomers providers.list).map (·.id) ++ r.state.ids key).Nodup := by
    intro key
    refine List.nodup_append.2 ⟨hdistinct, h.sound.once key, fun a ha b hb heq => ?_⟩
    obtain ⟨p, hp, rfl⟩ := List.mem_map.1 ha
    exact (hnew providers rfl p hp key).1 (heq ▸ hb)
  have hknown : (r.state.knownIds ++ (r.state.newcomers providers.list).map (·.id)).Nodup := by
    refine List.nodup_append.2 ⟨h.sound.known, hdistinct, fun a ha b hb heq => ?_⟩
    obtain ⟨p, hp, rfl⟩ := List.mem_map.1 hb
    exact (State.mem_newcomers.1 hp).2.1 (heq ▸ ha)
  refine ⟨⟨⟨hjoined.shaped h.sound.toShaped, fun key => (hjoined.ids key).nodup_iff.2 (hapart key), hjoined.known ▸ hknown⟩, fun key id hid hin => ?_⟩,
    State.ensureDefaults_twice h.sound.toShaped _, fun p hp key => ?_, hjoined.columns, fun key id hid => ?_⟩
  · rcases List.mem_append.1 ((hjoined.ids key).mem_iff.1 hin) with hin | hin
    · obtain ⟨p, hp, rfl⟩ := List.mem_map.1 hin
      exact (hnew providers rfl p hp key).2 hid
    · exact h.gone key id hid hin
  · rw [(hjoined.ids key).count_eq]
    exact List.count_eq_one_of_mem (hapart key) (List.mem_append_left _ (List.mem_map_of_mem hp))
  · exact (List.mem_append.1 ((hjoined.ids key).mem_iff.1 hid)).symm

/-- The exact condition of one step. -/
theorem kept_iff (h : r.Good) (a : Action) : r.Kept a ↔ r.Untouched a := by
  by_cases ha : ∃ providers, a = .ensureDefaults providers
  · obtain ⟨providers, rfl⟩ := ha
    constructor
    · rintro ⟨hsound, hgone, -⟩ _ heq p hp key
      cases heq
      have hperm := (State.joined_ensureDefaults h.sound.toShaped providers.list).ids key
      have hin : p.id ∈ (r.state.newcomers providers.list).map (·.id) := List.mem_map_of_mem hp
      constructor
      · intro hold
        exact (List.nodup_append.1 (hperm.nodup_iff.1 (hsound.once key))).2.2 _ hin _ hold rfl
      · intro hremoved
        exact hgone key _ hremoved (hperm.mem_iff.2 (List.mem_append_left _ hin))
    · intro hnew
      obtain ⟨hgood, hsettled⟩ := h.ensureDefaults hnew
      refine ⟨hgood.sound, hgood.gone, ?_⟩
      rintro _ heq
      cases heq
      exact hsettled
  · have hother : ∀ providers, a ≠ .ensureDefaults providers := fun providers heq => ha ⟨providers, heq⟩
    have hgood := h.next hother
    exact ⟨fun _ providers heq => absurd heq (hother providers), fun _ => ⟨hgood.sound, hgood.gone, fun providers heq => absurd heq (hother providers)⟩⟩

/-- In every run from the start, all goes well exactly where no module was placed before its provider became known. -/
theorem layout_kept (actions : List Action) : start.state.Sound ∧ (Always next Kept start actions ↔ Always next Untouched start actions) :=
  ⟨State.sound_initialState, always_iff (fun _ a h => kept_iff h a) (fun _ _ _ ha => ⟨ha.sound, ha.gone⟩) actions good_start⟩

/-- A module of a provider that is disabled still, placed and then enabled. -/
def placedEarly : List Action := [
  .ensureDefaults ⟨[⟨"files", 1, true⟩], by decide⟩,
  .placeModule .col1 "files" 0 0,
  .ensureDefaults ⟨[⟨"files", 1, false⟩], by decide⟩]

theorem layout_doubled : ¬Always next Kept start placedEarly := by
  rintro ⟨-, -, hkept, -⟩
  exact absurd (hkept.sound.once .col1) (by decide)

end Run

end Purdex.NewTab
