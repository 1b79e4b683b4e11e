/-
Installing and removing hooks: on which files neither touches what is not ours.
-/
import Purdex.Hooks.Untouched

namespace Purdex.Hooks

open Json

/-! ## Files -/

def fieldsOf : Option Raw → Option (List (String × Raw))
  | none => some []
  | some (.obj fields) => some fields
  | some _ => none

/-- The events of a file, where it is one that can be edited. -/
def hooksOf (file : Option Raw) : Option (List (String × Raw)) :=
  (fieldsOf file).bind fun fields => (hooksMapForMerge fields).toOption

def setting (file : Option Raw) (k : String) : Option Raw := ((fieldsOf file).getD []).lookup k

def event (file : Option Raw) (e : String) : Option Raw := ((hooksOf file).getD []).lookup e

/-- The file that is there behind a merge. -/
def edited (p : Provider) (numbers : Numbers) (pdxPath : String) (remove : Bool) (file : Option Raw) : Option Raw :=
  (merge p numbers pdxPath remove file).after file

/-! ## What is promised -/

/-- What is theirs is as it was: each command in its event, group and order, and every other setting. -/
structure Kept (owns : String → Bool) (before after : Option Raw) : Prop where
  settings : ∀ k, k ≠ "hooks" → setting after k = setting before k
  events : ∀ e, theirEvent owns (event after e) = theirEvent owns (event before e)
  locked : hooksOf before = none → after = before

structure Harmless (p : Provider) (numbers : Numbers) (pdxPath : String) (file : Option Raw) : Prop where
  calm : ∀ remove, merge p numbers pdxPath remove file ≠ .aborted
  installs : (∃ reason, merge p numbers pdxPath false file = .failed reason ∧ edited p numbers pdxPath false file = file) ∨
    ∃ settings, merge p numbers pdxPath false file = .written settings ∧ ∀ spec ∈ p.installable,
      ourCommands p.owns (event (some (.obj settings)) spec.key) = [hookCommand pdxPath p.agent spec.purdexName]
  removes : ∀ e, ourCommands p.owns (event (edited p numbers pdxPath true file) e) = []
  kept : ∀ remove, Kept p.owns file (edited p numbers pdxPath remove file)
  twice : edited p numbers pdxPath false (edited p numbers pdxPath false file) = edited p numbers pdxPath false file
  undone : edited p numbers pdxPath true (edited p numbers pdxPath false file) = edited p numbers pdxPath true file

/-- What an editable file has to be like. -/
structure Plain (p : Provider) (numbers : Numbers) (file : Option Raw) : Prop where
  settings : ∀ k, k ≠ "hooks" → ∀ value, setting file k = some value → numbers.settle value = value
  theirs : ∀ e value, theirEvent p.owns (event file e) = some value → numbers.settle value = value
  entries : ∀ e, ∀ entry ∈ toEntrySlice (event file e), p.Fine entry
  nulls : (∀ spec ∈ p.installable, shapeOk (event file spec.key) = true) → ∀ spec ∈ p.installable, event file spec.key ≠ some .null

/-- `null` is no file to edit, and one that the decoder refuses has none of ours. -/
structure Tame (p : Provider) (numbers : Numbers) (file : Option Raw) : Prop where
  notNull : file ≠ some .null
  refused : file.all numbers.readable = false → ∀ e, ourCommands p.owns (event file e) = []
  plain : file.all numbers.readable = true → (hooksOf file).isSome → Plain p numbers file

/-! ## Files that are opened -/

structure Opened (numbers : Numbers) (file : Option Raw) (fields hooks : List (String × Raw)) : Prop where
  readable : file.all numbers.readable = true
  root : fieldsOf file = some fields
  events : hooksMapForMerge fields = .ok hooks

section Files

variable {p : Provider} {numbers : Numbers} {pdxPath : String} {file : Option Raw} {fields hooks : List (String × Raw)}

theorem hooksMapForMerge_settle (fields : List (String × Raw)) :
    hooksMapForMerge (numbers.settleFields fields) = (hooksMapForMerge fields).map numbers.settleFields := by
  unfold hooksMapForMerge
  rw [lookup_settle]
  cases fields.lookup "hooks" with
  | none => rfl
  | some a =>
    cases a with
    | arr items => rw [Option.map_some, settle_arr]; rfl
    | obj fields => rw [Option.map_some, settle_obj]; rfl
    | _ => rfl

theorem merge_opened (hread : file.all numbers.readable = true) (hfields : fieldsOf file = some fields) (remove : Bool) :
    merge p numbers pdxPath remove file = match mergeInto p pdxPath remove (numbers.settleFields fields) with
      | .error reason => .failed reason
      | .ok settings => .written settings := by
  cases file with
  | none =>
    obtain rfl := Option.some.inj hfields
    rfl
  | some a =>
    cases a with
    | obj fields' =>
      obtain rfl := Option.some.inj hfields
      exact if_pos hread
    | _ => cases hfields

theorem merge_unread (hread : file.all numbers.readable = false) (remove : Bool) : merge p numbers pdxPath remove file = .failed .parse := by
  cases file with
  | none => cases hread
  | some a => exact if_neg (Bool.eq_false_iff.1 hread)

theorem Opened.merge_remove (h : Opened numbers file fields hooks) : merge p numbers pdxPath true file =
    .written (Fields.put "hooks" (.obj (removeHooks p (numbers.settleFields hooks))) (numbers.settleFields fields)) := by
  rw [merge_opened h.readable h.root, mergeInto, hooksMapForMerge_settle, h.events]
  rfl

/-- An install goes through where each event that is installed has a value that can be. -/
theorem Opened.merge_install (h : Opened numbers file fields hooks) (hshape : ∀ spec ∈ p.installable, shapeOk (hooks.lookup spec.key) = true) :
    merge p numbers pdxPath false file =
      .written (Fields.put "hooks" (.obj (installHooks p pdxPath (numbers.settleFields hooks))) (numbers.settleFields fields)) := by
  have hvalid : validateInstallableHookShapes p (numbers.settleFields hooks) = .ok () := by
    have hnone : (p.installable.find? fun spec => !shapeOk ((numbers.settleFields hooks).lookup spec.key)) = none := by
      rw [List.find?_eq_none]
      intro spec hspec
      simp [lookup_settle, shapeOk_settle, hshape spec hspec]
    rw [validateInstallableHookShapes, hnone]
  have hinto : mergeInto p pdxPath false (numbers.settleFields fields) =
      .ok (Fields.put "hooks" (.obj (installHooks p pdxPath (numbers.settleFields hooks))) (numbers.settleFields fields)) := by
    rw [mergeInto, hooksMapForMerge_settle, h.events]
    change (validateInstallableHookShapes p (numbers.settleFields hooks)).bind _ = _
    rw [hvalid]
    rfl
  rw [merge_opened h.readable h.root, hinto]

theorem Opened.refused (h : Opened numbers file fields hooks) (hshape : ¬ ∀ spec ∈ p.installable, shapeOk (hooks.lookup spec.key) = true) :
    ∃ reason, merge p numbers pdxPath false file = .failed reason := by
  push Not at hshape
  obtain ⟨spec, hspec, hodd⟩ := hshape
  have hsome : (p.installable.find? fun spec => !shapeOk ((numbers.settleFields hooks).lookup spec.key)).isSome := by
    rw [List.find?_isSome]
    exact ⟨spec, hspec, by simpa [lookup_settle, shapeOk_settle] using hodd⟩
  obtain ⟨odd, hodd⟩ := Option.isSome_iff_exists.1 hsome
  have hvalid : validateInstallableHookShapes p (numbers.settleFields hooks) = .error (.event odd.key) := by
    rw [validateInstallableHookShapes, hodd]
  have hinto : mergeInto p pdxPath false (numbers.settleFields fields) = .error (.event odd.key) := by
    rw [mergeInto, hooksMapForMerge_settle, h.events]
    change (validateInstallableHookShapes p (numbers.settleFields hooks)).bind _ = _
    rw [hvalid]
    rfl
  exact ⟨.event odd.key, by rw [merge_opened h.readable h.root, hinto]⟩

/-! ## Views of a file that is written -/

theorem fieldsOf_written (settings : List (String × Raw)) : fieldsOf (some (.obj settings)) = some settings := rfl

theorem hooksOf_written (hooks settings : List (String × Raw)) : hooksOf (some (.obj (Fields.put "hooks" (.obj hooks) settings))) = some hooks := by
  unfold hooksOf hooksMapForMerge
  rw [fieldsOf_written, Option.bind_some, Fields.lookup_put, if_pos rfl]
  rfl

theorem event_written (hooks settings : List (String × Raw)) (e : String) :
    event (some (.obj (Fields.put "hooks" (.obj hooks) settings))) e = hooks.lookup e := by
  rw [event, hooksOf_written]
  rfl

theorem setting_written (hooks settings : List (String × Raw)) {k : String} (hk : k ≠ "hooks") :
    setting (some (.obj (Fields.put "hooks" (.obj hooks) settings))) k = settings.lookup k := by
  rw [setting, fieldsOf_written, Option.getD_some, Fields.lookup_put, if_neg hk.symm]

theorem Opened.hooksOf_eq (h : Opened numbers file fields hooks) : hooksOf file = some hooks := by
  rw [hooksOf, h.root, Option.bind_some, h.events]
  rfl

theorem Opened.event_eq (h : Opened numbers file fields hooks) (e : String) : event file e = hooks.lookup e := by
  rw [event, h.hooksOf_eq]
  rfl

theorem Opened.setting_eq (h : Opened numbers file fields hooks) (k : String) : setting file k = fields.lookup k := by
  rw [setting, h.root]
  rfl

theorem exists_opened (hread : file.all numbers.readable = true) (hsome : (hooksOf file).isSome) :
    ∃ fields hooks, Opened numbers file fields hooks := by
  obtain ⟨hooks, hhooks⟩ := Option.isSome_iff_exists.1 hsome
  obtain ⟨fields, hfields, hmap⟩ := Option.bind_eq_some_iff.1 hhooks
  refine ⟨fields, hooks, hread, hfields, ?_⟩
  cases hok : hooksMapForMerge fields with
  | error reason =>
    rw [hok] at hmap
    cases hmap
  | ok hooks' =>
    rw [hok] at hmap
    exact congrArg Except.ok (Option.some.inj hmap)

/-! ## All events one by one -/

theorem installEvent_eq (p : Provider) (pdxPath : String) (hooks : List (String × Raw)) (spec : HookEventSpec) :
    installEvent p pdxPath hooks spec = Fields.put spec.key (installed p pdxPath spec (hooks.lookup spec.key)) hooks := rfl

theorem lookup_installEvent_of_ne {spec : HookEventSpec} {e : String} (h : spec.key ≠ e) (hooks : List (String × Raw)) :
    (installEvent p pdxPath hooks spec).lookup e = hooks.lookup e := by
  rw [installEvent_eq, Fields.lookup_put, if_neg h]

theorem lookup_foldl_of_ne {e : String} (specs : List HookEventSpec) (h : ∀ spec ∈ specs, spec.key ≠ e) (hooks : List (String × Raw)) :
    (specs.foldl (installEvent p pdxPath) hooks).lookup e = hooks.lookup e := by
  induction specs generalizing hooks with
  | nil => rfl
  | cons spec specs ih =>
    obtain ⟨hspec, hrest⟩ := List.forall_mem_cons.1 h
    rw [List.foldl_cons, ih hrest, lookup_installEvent_of_ne hspec]

/-- An event that is installed has what its own turn left. -/
theorem lookup_foldl {spec : HookEventSpec} (specs : List HookEventSpec) (hnodup : (specs.map HookEventSpec.key).Nodup) (hspec : spec ∈ specs)
    (hooks : List (String × Raw)) : (specs.foldl (installEvent p pdxPath) hooks).lookup spec.key =
      some (installed p pdxPath spec (hooks.lookup spec.key)) := by
  induction specs generalizing hooks with
  | nil => cases hspec
  | cons first specs ih =>
    rw [List.map_cons, List.nodup_cons] at hnodup
    obtain ⟨hfirst, hnodup⟩ := hnodup
    rw [List.foldl_cons]
    rcases List.mem_cons.1 hspec with rfl | hspec
    · have hothers : ∀ other ∈ specs, other.key ≠ spec.key := fun other hother heq => hfirst (heq ▸ List.mem_map_of_mem hother)
      rw [lookup_foldl_of_ne specs hothers, installEvent_eq, Fields.lookup_put, if_pos rfl]
    · have hne : first.key ≠ spec.key := fun heq => hfirst (heq ▸ List.mem_map_of_mem hspec)
      rw [ih hnodup hspec, lookup_installEvent_of_ne hne]

/-- Where each event has what an install puts there, one more install changes nothing. -/
theorem foldl_of_installed (specs : List HookEventSpec) {hooks : List (String × Raw)}
    (h : ∀ spec ∈ specs, hooks.lookup spec.key = some (installed p pdxPath spec (hooks.lookup spec.key))) :
    specs.foldl (installEvent p pdxPath) hooks = hooks := by
  induction specs with
  | nil => rfl
  | cons spec specs ih =>
    obtain ⟨hspec, hrest⟩ := List.forall_mem_cons.1 h
    rw [List.foldl_cons, installEvent_eq, Fields.put_eq_self hspec]
    exact ih hrest

/-- A remove does not see an install whose events it would empty the same way. -/
theorem removeHooks_foldl (specs : List HookEventSpec) (hnodup : (specs.map HookEventSpec.key).Nodup) {hooks : List (String × Raw)}
    (h : ∀ spec ∈ specs, (hooks.lookup spec.key).bind (cleanEvent p) =
      cleanEvent p (installed p pdxPath spec (hooks.lookup spec.key))) :
    removeHooks p (specs.foldl (installEvent p pdxPath) hooks) = removeHooks p hooks := by
  induction specs generalizing hooks with
  | nil => rfl
  | cons spec specs ih =>
    obtain ⟨hspec, hrest⟩ := List.forall_mem_cons.1 h
    rw [List.map_cons, List.nodup_cons] at hnodup
    obtain ⟨hfirst, hnodup⟩ := hnodup
    rw [List.foldl_cons, ih hnodup fun other hother => ?_, installEvent_eq]
    · exact Fields.sift_put hspec
    · have hne : spec.key ≠ other.key := fun heq => hfirst (heq ▸ List.mem_map_of_mem hother)
      rw [lookup_installEvent_of_ne hne]
      exact hrest other hother

theorem nodup_foldl (specs : List HookEventSpec) {hooks : List (String × Raw)} (h : (hooks.map Prod.fst).Nodup) :
    ((specs.foldl (installEvent p pdxPath) hooks).map Prod.fst).Nodup := by
  induction specs generalizing hooks with
  | nil => exact h
  | cons spec specs ih => exact ih (Fields.nodup_put h _ _)

/-! ## Numbers of what is installed -/

theorem settle_installed (p : Provider) (numbers : Numbers) (pdxPath : String) (spec : HookEventSpec) (value : Option Raw) :
    numbers.settle (installed p pdxPath spec value) = installed p pdxPath spec (value.map numbers.settle) := by
  rw [installed, installed, settle_arr, List.map_append, toEntrySlice_settle, filterOut_settle, List.map_singleton,
    (makeEntry_numbers p numbers pdxPath spec).2]

theorem settle_foldl (specs : List HookEventSpec) (hooks : List (String × Raw)) :
    numbers.settleFields (specs.foldl (installEvent p pdxPath) hooks) = specs.foldl (installEvent p pdxPath) (numbers.settleFields hooks) := by
  induction specs generalizing hooks with
  | nil => rfl
  | cons spec specs ih =>
    rw [List.foldl_cons, ih, installEvent_eq, settle_put, settle_installed, ← lookup_settle]
    rfl

theorem readable_put {k : String} {a : Raw} {l : List (String × Raw)} (hl : numbers.readable (.obj l) = true) (ha : numbers.readable a = true) :
    numbers.readable (.obj (Fields.put k a l)) = true := by
  refine Raw.allNumbers_obj.2 fun q hq => ?_
  rcases Fields.mem_put hq with rfl | hq
  · exact ha
  · exact Raw.allNumbers_obj.1 hl q hq

theorem readable_lookup {k : String} {a : Raw} {l : List (String × Raw)} (hl : numbers.readable (.obj l) = true) (h : l.lookup k = some a) :
    numbers.readable a = true := Raw.allNumbers_obj.1 hl _ (mem_of_lookup h)

theorem readable_keep {entry kept : Raw} (hentry : numbers.readable entry = true) (h : p.keepEntry entry = some kept) :
    numbers.readable kept = true := by
  cases p with
  | cc =>
    change (if entryIsPdxCCKnownEvent ccOwnedCleanupEventNames entry then none else some entry) = some kept at h
    split at h
    · cases h
    · rwa [← Option.some.inj h]
  | codex =>
    rw [Provider.keep_codex] at h
    cases hkind : kindOf Provider.codex.owns entry with
    | group fields hooks =>
      obtain ⟨rfl, hlookup⟩ := kindOf_eq_group hkind
      rw [hkind] at h
      simp only at h
      split at h
      · cases h
      · cases h
        refine readable_put hentry (Raw.allNumbers_arr.2 fun hook hhook => ?_)
        exact Raw.allNumbers_arr.1 (readable_lookup hentry hlookup) hook (List.mem_filter.1 hhook).1
    | direct =>
      rw [hkind] at h
      cases h
    | other =>
      rw [hkind] at h
      cases h
      exact hentry

theorem readable_installed {spec : HookEventSpec} (h : numbers.readable (.obj hooks) = true) :
    numbers.readable (installed p pdxPath spec (hooks.lookup spec.key)) = true := by
  refine Raw.allNumbers_arr.2 fun entry hentry => ?_
  rcases List.mem_append.1 hentry with hentry | hentry
  · rw [Provider.filterOut_eq, List.mem_filterMap] at hentry
    obtain ⟨entry', hentry', hkept⟩ := hentry
    refine readable_keep ?_ hkept
    cases hlookup : hooks.lookup spec.key with
    | none =>
      rw [hlookup] at hentry'
      cases hentry'
    | some value =>
      rw [hlookup] at hentry'
      cases value with
      | arr entries => exact Raw.allNumbers_arr.1 (readable_lookup h hlookup) entry' hentry'
      | _ => cases hentry'
  · obtain rfl := List.mem_singleton.1 hentry
    exact (makeEntry_numbers p numbers pdxPath spec).1

theorem readable_foldl (specs : List HookEventSpec) (h : numbers.readable (.obj hooks) = true) :
    numbers.readable (.obj (specs.foldl (installEvent p pdxPath) hooks)) = true := by
  induction specs generalizing hooks with
  | nil => exact h
  | cons spec specs ih => exact ih (readable_put h (readable_installed h))

theorem settleFields_idem (h : numbers.readable (.obj fields) = true) :
    numbers.settleFields (numbers.settleFields fields) = numbers.settleFields fields ∧
      numbers.readable (.obj (numbers.settleFields fields)) = true := by
  have hsettle := Raw.mapNumbers_mapNumbers numbers.round_round h
  have hread := Raw.allNumbers_mapNumbers numbers.fits_round h
  change numbers.settle (numbers.settle (.obj fields)) = numbers.settle (.obj fields) at hsettle
  change numbers.readable (numbers.settle (.obj fields)) = true at hread
  rw [settle_obj, settle_obj] at hsettle
  rw [settle_obj] at hread
  exact ⟨Raw.obj.inj hsettle, hread⟩

theorem Opened.readable_fields (h : Opened numbers file fields hooks) :
    numbers.readable (.obj fields) = true ∧ numbers.readable (.obj hooks) = true := by
  have hfields : numbers.readable (.obj fields) = true := by
    cases file with
    | none =>
      obtain rfl := Option.some.inj h.root
      rfl
    | some a =>
      cases a with
      | obj fields' =>
        obtain rfl := Option.some.inj h.root
        exact h.readable
      | _ => cases h.root
  refine ⟨hfields, ?_⟩
  have hevents := h.events
  unfold hooksMapForMerge at hevents
  split at hevents
  · cases hevents
    rfl
  · cases hevents
    rfl
  · rename_i hlookup
    cases hevents
    exact readable_lookup hfields hlookup
  · cases hevents

/-- What was installed is opened again, and reads as it was written. -/
theorem Opened.reopened (h : Opened numbers file fields hooks) :
    Opened numbers (some (.obj (Fields.put "hooks" (.obj (installHooks p pdxPath (numbers.settleFields hooks))) (numbers.settleFields fields))))
      (Fields.put "hooks" (.obj (installHooks p pdxPath (numbers.settleFields hooks))) (numbers.settleFields fields))
      (installHooks p pdxPath (numbers.settleFields hooks)) ∧
    numbers.settleFields (installHooks p pdxPath (numbers.settleFields hooks)) = installHooks p pdxPath (numbers.settleFields hooks) ∧
    numbers.settleFields (Fields.put "hooks" (.obj (installHooks p pdxPath (numbers.settleFields hooks))) (numbers.settleFields fields)) =
      Fields.put "hooks" (.obj (installHooks p pdxPath (numbers.settleFields hooks))) (numbers.settleFields fields) := by
  obtain ⟨hfields, hhooks⟩ := h.readable_fields
  obtain ⟨hsettled, hreads⟩ := settleFields_idem hfields
  obtain ⟨hsettled', hreads'⟩ := settleFields_idem hhooks
  have hinner : numbers.settleFields (installHooks p pdxPath (numbers.settleFields hooks)) =
      installHooks p pdxPath (numbers.settleFields hooks) := by
    rw [installHooks, settle_foldl, hsettled']
  refine ⟨⟨readable_put hreads (readable_foldl _ hreads'), rfl, ?_⟩, hinner, ?_⟩
  · rw [hooksMapForMerge, Fields.lookup_put, if_pos rfl]
  · rw [settle_put, settle_obj, hinner, hsettled]

/-! ## Files that fail -/

theorem settle_eq_null {value : Option Raw} : value.map numbers.settle = some .null ↔ value = some .null := by
  cases value with
  | none => exact iff_of_false nofun nofun
  | some a =>
    cases a with
    | null => exact iff_of_true rfl rfl
    | arr items => exact iff_of_false (by rw [Option.map_some, settle_arr]; exact nofun) nofun
    | obj fields => exact iff_of_false (by rw [Option.map_some, settle_obj]; exact nofun) nofun
    | _ => exact iff_of_false nofun nofun

theorem Kept.refl (owns : String → Bool) (file : Option Raw) : Kept owns file file := ⟨fun _ _ => rfl, fun _ => rfl, fun _ => rfl⟩

theorem harmless_of_failed (h : ∀ remove, ∃ reason, merge p numbers pdxPath remove file = .failed reason) :
    Harmless p numbers pdxPath file ↔ ∀ e, ourCommands p.owns (event file e) = [] := by
  have hsame : ∀ remove, edited p numbers pdxPath remove file = file := fun remove => by
    obtain ⟨reason, hreason⟩ := h remove
    rw [edited, hreason]
    rfl
  constructor
  · intro hharmless e
    have hremoves := hharmless.removes e
    rwa [hsame true] at hremoves
  · intro hnone
    refine ⟨fun remove habort => ?_, .inl ?_, fun e => ?_, fun remove => ?_, ?_, ?_⟩
    · obtain ⟨reason, hreason⟩ := h remove
      rw [hreason] at habort
      cases habort
    · obtain ⟨reason, hreason⟩ := h false
      exact ⟨reason, hreason, hsame false⟩
    · rw [hsame true]
      exact hnone e
    · rw [hsame remove]
      exact Kept.refl _ file
    · rw [hsame false, hsame false]
    · rw [hsame false]

/-- What has no events to edit, and is not null, makes both fail. -/
theorem merge_locked (hread : file.all numbers.readable = true) (hnone : hooksOf file = none) (hnull : file ≠ some .null) (remove : Bool) :
    ∃ reason, merge p numbers pdxPath remove file = .failed reason := by
  cases hfields : fieldsOf file with
  | none =>
    cases file with
    | none => cases hfields
    | some a =>
      cases a with
      | null => exact absurd rfl hnull
      | obj fields => cases hfields
      | _ => exact ⟨.parse, (if_pos hread : (if numbers.readable _ = true then Merged.failed .parse else .failed .parse) = .failed .parse)⟩
  | some fields =>
    rw [hooksOf, hfields, Option.bind_some] at hnone
    cases hmap : hooksMapForMerge fields with
    | ok hooks =>
      rw [hmap] at hnone
      cases hnone
    | error reason =>
      refine ⟨reason, ?_⟩
      rw [merge_opened hread hfields, mergeInto, hooksMapForMerge_settle, hmap]
      rfl

/-! ## Files that are edited -/

theorem theirEvent_settle (owns : String → Bool) (value : Option Raw) :
    theirEvent owns (value.map numbers.settle) = (theirEvent owns value).map numbers.settle := by
  cases value with
  | none => rfl
  | some a =>
    cases a with
    | arr entries =>
      rw [Option.map_some, settle_arr]
      change boxed _ = (boxed _).map _
      have hentries : (entries.map numbers.settle).filterMap (theirEntry owns) = (entries.filterMap (theirEntry owns)).map numbers.settle := by
        rw [List.filterMap_map, List.map_filterMap]
        exact List.filterMap_congr fun entry _ => theirs_settle entry
      rw [hentries]
      cases entries.filterMap (theirEntry owns) with
      | nil => rfl
      | cons first rest => exact congrArg some (settle_arr numbers (first :: rest)).symm
    | obj fields => rw [Option.map_some, settle_obj]; exact congrArg some (settle_obj numbers fields).symm
    | _ => rfl

theorem Opened.event_removed (h : Opened numbers file fields hooks) (hnodup : (hooks.map Prod.fst).Nodup) (e : String) :
    event (edited p numbers pdxPath true file) e = ((hooks.lookup e).map numbers.settle).bind (cleanEvent p) := by
  have hkeys : ((numbers.settleFields hooks).map Prod.fst).Nodup := by
    rw [Numbers.settleFields, List.map_map]
    exact hnodup
  rw [edited, h.merge_remove, Merged.after, event_written, removeHooks, Fields.lookup_sift hkeys, lookup_settle]

/-- What a remove takes out, and what it leaves, tell what is fine of a file. -/
theorem Opened.removed_iff (h : Opened numbers file fields hooks) (hnodup : (hooks.map Prod.fst).Nodup) :
    (∀ e, ourCommands p.owns (event (edited p numbers pdxPath true file) e) = []) ∧ Kept p.owns file (edited p numbers pdxPath true file) ↔
      (∀ k, k ≠ "hooks" → ∀ value, setting file k = some value → numbers.settle value = value) ∧
        (∀ e value, theirEvent p.owns (event file e) = some value → numbers.settle value = value) ∧
          ∀ e, ∀ entry ∈ toEntrySlice (event file e), p.Fine entry := by
  have hsetting : ∀ k, k ≠ "hooks" → setting (edited p numbers pdxPath true file) k = (setting file k).map numbers.settle := fun k hk => by
    rw [edited, h.merge_remove, Merged.after, setting_written _ _ hk, lookup_settle, h.setting_eq]
  have hevent : ∀ e, event (edited p numbers pdxPath true file) e = ((event file e).map numbers.settle).bind (cleanEvent p) := fun e => by
    rw [h.event_removed hnodup, h.event_eq]
  constructor
  · rintro ⟨hnone, hkept⟩
    refine ⟨fun k hk value hvalue => ?_, fun e value hvalue => ?_, fun e entry hentry => ?_⟩
    · have hsame := hkept.settings k hk
      rw [hsetting k hk, hvalue] at hsame
      exact Option.some.inj hsame
    · have hsame := hkept.events e
      rw [hevent e, theirEvent_removed] at hsame
      exact hsame.2 value hvalue
    · have hsame := hkept.events e
      have hours := hnone e
      rw [hevent e, theirEvent_removed] at hsame
      rw [hevent e, ourCommands_removed] at hours
      exact (p.fine_iff entry).2 ⟨hsame.1 entry hentry, hours entry hentry⟩
  · rintro ⟨hsettings, htheirs, hentries⟩
    refine ⟨fun e => ?_, fun k hk => ?_, fun e => ?_, fun hnone => ?_⟩
    · rw [hevent e, ourCommands_removed]
      exact fun entry hentry => ((p.fine_iff entry).1 (hentries e entry hentry)).2
    · rw [hsetting k hk]
      cases hvalue : setting file k with
      | none => rfl
      | some value => exact congrArg some (hsettings k hk value hvalue)
    · rw [hevent e, theirEvent_removed]
      exact ⟨fun entry hentry => ((p.fine_iff entry).1 (hentries e entry hentry)).1, htheirs e⟩
    · rw [h.hooksOf_eq] at hnone
      cases hnone

theorem Opened.calm (h : Opened numbers file fields hooks) (remove : Bool) : merge p numbers pdxPath remove file ≠ .aborted := by
  cases remove with
  | true =>
    rw [h.merge_remove]
    exact nofun
  | false =>
    by_cases hshape : ∀ spec ∈ p.installable, shapeOk (hooks.lookup spec.key) = true
    · rw [h.merge_install hshape]
      exact nofun
    · obtain ⟨reason, hreason⟩ := @Opened.refused p numbers pdxPath _ _ _ h hshape
      rw [hreason]
      exact nofun

section Installing

variable (hbase : base pdxPath = "pdx") (hquote : '"' ∉ pdxPath.toList)

theorem nodup_installable (p : Provider) : (p.installable.map HookEventSpec.key).Nodup := by
  cases p with
  | cc => exact nodup_keys ccEventSpecs (by simp)
  | codex => exact nodup_keys codexEventSpecs (by simp)

theorem Opened.event_installed (h : Opened numbers file fields hooks)
    (hshape : ∀ spec ∈ p.installable, shapeOk (hooks.lookup spec.key) = true) :
    (∀ spec ∈ p.installable, event (edited p numbers pdxPath false file) spec.key =
        some (installed p pdxPath spec ((event file spec.key).map numbers.settle))) ∧
      ∀ e, (∀ spec ∈ p.installable, spec.key ≠ e) → event (edited p numbers pdxPath false file) e = (event file e).map numbers.settle := by
  have hwritten : edited p numbers pdxPath false file = some (.obj (Fields.put "hooks"
      (.obj (installHooks p pdxPath (numbers.settleFields hooks))) (numbers.settleFields fields))) := by
    rw [edited, h.merge_install hshape]
    rfl
  refine ⟨fun spec hspec => ?_, fun e he => ?_⟩
  · rw [hwritten, event_written, h.event_eq, installHooks, lookup_foldl _ (nodup_installable p) hspec, lookup_settle]
  · rw [hwritten, event_written, h.event_eq, installHooks, lookup_foldl_of_ne _ he, lookup_settle]

include hbase hquote

/-- An install loses nothing that is theirs where a remove loses nothing. -/
theorem Opened.kept_installed (h : Opened numbers file fields hooks) (hnodup : (hooks.map Prod.fst).Nodup)
    (hkept : Kept p.owns file (edited p numbers pdxPath true file))
    (htheirs : ∀ e value, theirEvent p.owns (event file e) = some value → numbers.settle value = value) :
    Kept p.owns file (edited p numbers pdxPath false file) := by
  by_cases hshape : ∀ spec ∈ p.installable, shapeOk (hooks.lookup spec.key) = true
  · obtain ⟨hinstalled, hother⟩ := @Opened.event_installed p numbers pdxPath _ _ _ h hshape
    refine ⟨fun k hk => ?_, fun e => ?_, fun hnone => ?_⟩
    · have hsame := hkept.settings k hk
      rw [edited, h.merge_remove, Merged.after, setting_written _ _ hk] at hsame
      rw [edited, h.merge_install hshape, Merged.after, setting_written _ _ hk]
      exact hsame
    · by_cases he : ∃ spec ∈ p.installable, spec.key = e
      · obtain ⟨spec, hspec, rfl⟩ := he
        have hok : shapeOk ((event file spec.key).map numbers.settle) = true := by
          rw [shapeOk_settle, h.event_eq]
          exact hshape spec hspec
        rw [hinstalled spec hspec, theirEvent_installed hbase hquote hspec hok, ← hkept.events spec.key, h.event_removed hnodup, h.event_eq]
      · push Not at he
        rw [hother e he, theirEvent_settle]
        cases hvalue : theirEvent p.owns (event file e) with
        | none => rfl
        | some value => exact congrArg some (htheirs e value hvalue)
    · rw [h.hooksOf_eq] at hnone
      cases hnone
  · obtain ⟨reason, hreason⟩ := @Opened.refused p numbers pdxPath _ _ _ h hshape
    rw [edited, hreason]
    exact Kept.refl _ file

/-- An install on what was installed changes nothing. -/
theorem Opened.twice (h : Opened numbers file fields hooks) :
    edited p numbers pdxPath false (edited p numbers pdxPath false file) = edited p numbers pdxPath false file := by
  by_cases hshape : ∀ spec ∈ p.installable, shapeOk (hooks.lookup spec.key) = true
  · obtain ⟨hopened, hinner, houter⟩ := @Opened.reopened p numbers pdxPath _ _ _ h
    have hlookup : ∀ spec ∈ p.installable, (installHooks p pdxPath (numbers.settleFields hooks)).lookup spec.key =
        some (installed p pdxPath spec ((numbers.settleFields hooks).lookup spec.key)) := fun spec hspec =>
      lookup_foldl _ (nodup_installable p) hspec _
    have hagain : installHooks p pdxPath (installHooks p pdxPath (numbers.settleFields hooks)) =
        installHooks p pdxPath (numbers.settleFields hooks) := by
      refine foldl_of_installed p.installable fun spec hspec => ?_
      rw [hlookup spec hspec, installed_installed hbase hquote hspec]
    have hwritten : edited p numbers pdxPath false file = some (.obj (Fields.put "hooks"
        (.obj (installHooks p pdxPath (numbers.settleFields hooks))) (numbers.settleFields fields))) := by
      rw [edited, h.merge_install hshape]
      rfl
    rw [hwritten, edited, hopened.merge_install fun spec hspec => by rw [hlookup spec hspec]; rfl]
    rw [hinner, houter, hagain, Fields.put_put]
    rfl
  · obtain ⟨reason, hreason⟩ := @Opened.refused p numbers pdxPath _ _ _ h hshape
    have hsame : edited p numbers pdxPath false file = file := by
      rw [edited, hreason]
      rfl
    rw [hsame, hsame]

/-- A remove behind an install is a remove, but where an event that is installed was null. -/
theorem Opened.undone_iff (h : Opened numbers file fields hooks) (hnodup : (hooks.map Prod.fst).Nodup) :
    edited p numbers pdxPath true (edited p numbers pdxPath false file) = edited p numbers pdxPath true file ↔
      ((∀ spec ∈ p.installable, shapeOk (event file spec.key) = true) → ∀ spec ∈ p.installable, event file spec.key ≠ some .null) := by
  simp only [h.event_eq]
  by_cases hshape : ∀ spec ∈ p.installable, shapeOk (hooks.lookup spec.key) = true
  · obtain ⟨hopened, hinner, houter⟩ := @Opened.reopened p numbers pdxPath _ _ _ h
    have hwritten : edited p numbers pdxPath false file = some (.obj (Fields.put "hooks"
        (.obj (installHooks p pdxPath (numbers.settleFields hooks))) (numbers.settleFields fields))) := by
      rw [edited, h.merge_install hshape]
      rfl
    have hok : ∀ spec ∈ p.installable, shapeOk ((numbers.settleFields hooks).lookup spec.key) = true := fun spec hspec => by
      rw [lookup_settle, shapeOk_settle]
      exact hshape spec hspec
    rw [hwritten, edited, hopened.merge_remove, edited, h.merge_remove, hinner, houter, Fields.put_put]
    simp only [Merged.after]
    constructor
    · intro heq _ spec hspec hnull
      have hsame := congrArg (List.lookup "hooks") (Raw.obj.inj (Option.some.inj heq))
      rw [Fields.lookup_put, Fields.lookup_put, if_pos rfl, if_pos rfl] at hsame
      have hremoved := congrArg (List.lookup spec.key) (Raw.obj.inj (Option.some.inj hsame))
      have hkeys : ((numbers.settleFields hooks).map Prod.fst).Nodup := by
        rw [Numbers.settleFields, List.map_map]
        exact hnodup
      have hkeys' : ((installHooks p pdxPath (numbers.settleFields hooks)).map Prod.fst).Nodup := nodup_foldl _ hkeys
      rw [removeHooks, removeHooks, Fields.lookup_sift hkeys', Fields.lookup_sift hkeys, installHooks,
        lookup_foldl _ (nodup_installable p) hspec, Option.bind_some] at hremoved
      refine (clean_installed hbase hquote hspec (hok spec hspec)).1 hremoved.symm ?_
      rw [lookup_settle, hnull]
      rfl
    · intro hnulls
      have hremoved : removeHooks p (installHooks p pdxPath (numbers.settleFields hooks)) = removeHooks p (numbers.settleFields hooks) := by
        refine removeHooks_foldl _ (nodup_installable p) fun spec hspec => ?_
        rw [clean_installed hbase hquote hspec (hok spec hspec), lookup_settle]
        exact fun hnull => hnulls hshape spec hspec (settle_eq_null.1 hnull)
      rw [hremoved]
  · obtain ⟨reason, hreason⟩ := @Opened.refused p numbers pdxPath _ _ _ h hshape
    have hsame : edited p numbers pdxPath false file = file := by
      rw [edited, hreason]
      rfl
    rw [hsame]
    exact iff_of_true rfl fun h => absurd h hshape

theorem Opened.installs (h : Opened numbers file fields hooks) (hnodup : (hooks.map Prod.fst).Nodup)
    (hnone : ∀ e, ourCommands p.owns (event (edited p numbers pdxPath true file) e) = []) :
    (∃ reason, merge p numbers pdxPath false file = .failed reason ∧ edited p numbers pdxPath false file = file) ∨
      ∃ settings, merge p numbers pdxPath false file = .written settings ∧ ∀ spec ∈ p.installable,
        ourCommands p.owns (event (some (.obj settings)) spec.key) = [hookCommand pdxPath p.agent spec.purdexName] := by
  by_cases hshape : ∀ spec ∈ p.installable, shapeOk (hooks.lookup spec.key) = true
  · refine .inr ⟨_, h.merge_install hshape, fun spec hspec => ?_⟩
    have hevent := (@Opened.event_installed p numbers pdxPath _ _ _ h hshape).1 spec hspec
    rw [edited, h.merge_install hshape] at hevent
    change event (some _) spec.key = _ at hevent
    have hours := hnone spec.key
    rw [h.event_removed hnodup, ← h.event_eq] at hours
    rw [hevent, ourCommands_installed hbase hquote hspec, hours, List.nil_append]
  · obtain ⟨reason, hreason⟩ := @Opened.refused p numbers pdxPath _ _ _ h hshape
    refine .inl ⟨reason, hreason, ?_⟩
    rw [edited, hreason]
    rfl

theorem Opened.harmless_plain (h : Opened numbers file fields hooks) (hnodup : (hooks.map Prod.fst).Nodup) :
    Harmless p numbers pdxPath file ↔ Plain p numbers file := by
  have hundone := @Opened.undone_iff p numbers pdxPath _ _ _ hbase hquote h hnodup
  have hremoved := @Opened.removed_iff p numbers pdxPath _ _ _ h hnodup
  constructor
  · intro hharmless
    obtain ⟨hsettings, htheirs, hentries⟩ := hremoved.1 ⟨hharmless.removes, hharmless.kept true⟩
    exact ⟨hsettings, htheirs, hentries, hundone.1 hharmless.undone⟩
  · intro hplain
    obtain ⟨hnone, hkept⟩ := hremoved.2 ⟨hplain.settings, hplain.theirs, hplain.entries⟩
    refine ⟨h.calm, h.installs hbase hquote hnodup hnone, hnone, fun remove => ?_, h.twice hbase hquote,
      hundone.2 hplain.nulls⟩
    cases remove with
    | true => exact hkept
    | false => exact h.kept_installed hbase hquote hnodup hkept hplain.theirs

end Installing

theorem Opened.nodup (h : Opened numbers file fields hooks) (hwf : ∀ a, file = some a → a.wf) : (hooks.map Prod.fst).Nodup := by
  have hevents := h.events
  unfold hooksMapForMerge at hevents
  split at hevents
  · cases hevents
    exact List.nodup_nil
  · cases hevents
    exact List.nodup_nil
  · rename_i hlookup
    cases hevents
    cases file with
    | none =>
      obtain rfl := Option.some.inj h.root
      cases hlookup
    | some a =>
      cases a with
      | obj fields' =>
        obtain rfl := Option.some.inj h.root
        exact (Raw.wf_obj.1 ((Raw.wf_obj.1 (hwf _ rfl)).2 _ (mem_of_lookup hlookup))).1
      | _ => cases h.root
  · cases hevents

end Files

/-! ## Which files are left alone -/

/-- Installing and removing touch nothing that is not ours, and take out and put in what is, exactly in files that are tame. -/
theorem harmless_iff_tame (p : Provider) (numbers : Numbers) {pdxPath : String} (hbase : base pdxPath = "pdx") (hquote : '"' ∉ pdxPath.toList)
    (file : Val) : Harmless p numbers pdxPath (file.map Subtype.val) ↔ Tame p numbers (file.map Subtype.val) := by
  have hwf : ∀ a, file.map Subtype.val = some a → a.wf := fun a ha => by
    obtain ⟨value, -, rfl⟩ := Option.map_eq_some_iff.1 ha
    exact value.2
  generalize file.map Subtype.val = raw at hwf ⊢
  by_cases hnull : raw = some .null
  · subst hnull
    refine iff_of_false (fun h => h.calm true ?_) fun h => h.notNull rfl
    rfl
  · cases hread : raw.all numbers.readable with
    | false =>
      rw [harmless_of_failed fun remove => ⟨.parse, merge_unread hread remove⟩]
      exact ⟨fun h => ⟨hnull, fun _ => h, fun hreads => absurd (hread.symm.trans hreads) nofun⟩, fun h => h.refused hread⟩
    | true =>
      have hunread : raw.all numbers.readable ≠ false := by
        rw [hread]
        exact nofun
      cases hhooks : hooksOf raw with
      | none =>
        rw [harmless_of_failed fun remove => merge_locked hread hhooks hnull remove]
        refine iff_of_true (fun e => ?_) ⟨hnull, fun h => absurd h hunread, fun _ hsome => ?_⟩
        · rw [event, hhooks]
          rfl
        · rw [hhooks] at hsome
          cases hsome
      | some hooks' =>
        obtain ⟨fields, hooks, hopened⟩ := exists_opened hread (Option.isSome_of_eq_some hhooks)
        rw [hopened.harmless_plain hbase hquote (hopened.nodup hwf)]
        exact ⟨fun h => ⟨hnull, fun h => absurd h hunread, fun _ _ => h⟩, fun h => h.plain hread (Option.isSome_of_eq_some hhooks)⟩

/-- Numbers that a float64 holds as they are. -/
def wholeNumbers : Numbers where
  fits _ := true
  round n := n
  fits_round _ h := h
  round_round _ _ := rfl
  small _ _ := ⟨rfl, rfl⟩

def hook (cmd : String) : Raw := .obj [("type", .str "command"), ("command", .str cmd)]

def stopHooks (entries : List Raw) : Raw := .obj [("model", .str "opus"), ("hooks", .obj [("Stop", .arr entries)])]

/-- Another's hook, and a hook of ours from another path, in two groups. -/
def apart : Raw :=
  stopHooks [.obj [("matcher", .str "*"), ("hooks", .arr [hook "notify"])], .obj [("hooks", .arr [hook "/old/pdx hook --agent cc Stop"])]]

/-- The same hooks in one group. -/
def mixed : Raw := stopHooks [.obj [("matcher", .str "*"), ("hooks", .arr [hook "notify", hook "/old/pdx hook --agent cc Stop"])]]

theorem apart_harmless : Harmless .cc wholeNumbers "/Applications/Purdex Beta/pdx" (some apart) := by
  have hsettle : ∀ a, wholeNumbers.settle a = a := Raw.mapNumbers_id
  refine (harmless_iff_tame .cc wholeNumbers (by decide) (by decide) (some ⟨apart, by decide⟩)).2
    ⟨nofun, fun h => absurd h (by decide), fun _ _ => ⟨fun _ _ value _ => hsettle value, fun _ value _ => hsettle value, ?_, ?_⟩⟩
  · intro e entry hentry
    by_cases he : e = "Stop"
    · subst he
      have hlist : toEntrySlice (event (some apart) "Stop") =
        [.obj [("matcher", .str "*"), ("hooks", .arr [hook "notify"])], .obj [("hooks", .arr [hook "/old/pdx hook --agent cc Stop"])]] := by
          decide
      change entry ∈ toEntrySlice (event (some apart) "Stop") at hentry
      rw [hlist] at hentry
      rcases List.mem_cons.1 hentry with rfl | hentry
      · right
        decide
      · obtain rfl := List.mem_singleton.1 hentry
        left
        decide
    · have hnone : event (some apart) e = none := by
        change List.lookup e [("Stop", _)] = none
        rw [Fields.lookup_cons_eq, if_neg (Ne.symm he)]
        rfl
      change entry ∈ toEntrySlice (event (some apart) e) at hentry
      rw [hnone] at hentry
      cases hentry
  · have hvalues : ∀ spec ∈ Provider.cc.installable, event (some apart) spec.key ≠ some .null := by decide
    exact fun _ => hvalues

/-- Where a group has another's hook and one of ours, another's hook is lost. -/
theorem mixed_group_lost : ¬ ∀ (p : Provider) (numbers : Numbers) (pdxPath : String) (file : Val), base pdxPath = "pdx" →
    '"' ∉ pdxPath.toList → Harmless p numbers pdxPath (file.map Subtype.val) := by
  intro h
  have hharmless := h .cc wholeNumbers "/usr/local/bin/pdx" (some ⟨mixed, by decide⟩) (by decide) (by decide)
  have hkept := (hharmless.kept true).events "Stop"
  have hlost : theirEvent Provider.cc.owns (event (edited .cc wholeNumbers "/usr/local/bin/pdx" true (some mixed)) "Stop") ≠
      theirEvent Provider.cc.owns (event (some mixed) "Stop") := by decide
  exact hlost hkept

end Purdex.Hooks
