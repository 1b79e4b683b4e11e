/-
A hook file before and after an install and a remove: which commands in it are ours, what in it is theirs, and for which files both
leave what is theirs as it was and take out or replace what is ours.
-/
import Purdex.Hooks.Entries

namespace Purdex.Hooks

open Json

/-! ## Events -/

def boxed : List Raw → Option Raw
  | [] => none
  | entries => some (.arr entries)

/-- Our commands in the value of an event. -/
def ourCommands (owns : String → Bool) (value : Option Raw) : List String := (toEntrySlice value).flatMap (commandsOf owns)

/-- The value of an event without what is ours. An event with no entries is as good as none. -/
def theirEvent (owns : String → Bool) : Option Raw → Option Raw
  | none | some .null => none
  | some (.arr entries) => boxed (entries.filterMap (theirEntry owns))
  | some value => some value

/-- What an install puts in the place of the value of an event. -/
def installed (p : Provider) (pdxPath : String) (spec : HookEventSpec) (value : Option Raw) : Raw :=
  .arr (p.filterOut (toEntrySlice value) ++ [p.makeEntry pdxPath spec])

section Events

variable {p : Provider} {numbers : Numbers} {owns : String → Bool} {value : Option Raw} {spec : HookEventSpec} {pdxPath : String}

theorem boxed_inj {as bs : List Raw} : boxed as = boxed bs ↔ as = bs := by
  refine ⟨fun h => ?_, fun h => congrArg boxed h⟩
  cases as with
  | nil => cases bs with
    | nil => rfl
    | cons b bs => cases h
  | cons a as => cases bs with
    | nil => cases h
    | cons b bs => exact Raw.arr.inj (Option.some.inj h)

theorem toEntrySlice_boxed (entries : List Raw) : toEntrySlice (boxed entries) = entries := by
  cases entries <;> rfl

theorem theirEvent_boxed (entries : List Raw) : theirEvent owns (boxed entries) = boxed (entries.filterMap (theirEntry owns)) := by
  cases entries <;> rfl

theorem cleanEvent_arr (p : Provider) (entries : List Raw) : cleanEvent p (.arr entries) = boxed (p.filterOut entries) := by
  cases hkept : p.filterOut entries <;> simp only [cleanEvent, hkept, boxed]

theorem toEntrySlice_settle (value : Option Raw) :
    toEntrySlice (value.map numbers.settle) = (toEntrySlice value).map numbers.settle := by
  cases value with
  | none => rfl
  | some a =>
    cases a with
    | arr items => rw [Option.map_some, settle_arr]; rfl
    | obj fields => rw [Option.map_some, settle_obj]; rfl
    | _ => rfl

theorem shapeOk_settle (value : Option Raw) : shapeOk (value.map numbers.settle) = shapeOk value := by
  cases value with
  | none => rfl
  | some a =>
    cases a with
    | arr items => rw [Option.map_some, settle_arr]; rfl
    | obj fields => rw [Option.map_some, settle_obj]; rfl
    | _ => rfl

theorem toEntrySlice_clean (value : Option Raw) : toEntrySlice (value.bind (cleanEvent p)) = p.filterOut (toEntrySlice value) := by
  cases value with
  | none => cases p <;> rfl
  | some a =>
    cases a with
    | arr entries => rw [Option.bind_some, cleanEvent_arr, toEntrySlice_boxed]; rfl
    | _ => cases p <;> rfl

/-- A value that can be installed into is the entries it has. -/
theorem theirEvent_of_shapeOk (h : shapeOk value = true) : theirEvent owns value = boxed ((toEntrySlice value).filterMap (theirEntry owns)) := by
  cases value with
  | none => rfl
  | some a =>
    cases a with
    | null | arr entries => rfl
    | _ => cases h

theorem ourCommands_removed (value : Option Raw) : ourCommands p.owns ((value.map numbers.settle).bind (cleanEvent p)) = [] ↔
    ∀ entry ∈ toEntrySlice value, ∀ kept, p.keepEntry entry = some kept → commandsOf p.owns kept = [] := by
  rw [ourCommands, toEntrySlice_clean, toEntrySlice_settle, filterOut_settle, Provider.filterOut_eq, List.flatMap_map,
    List.flatMap_eq_nil_iff]
  simp only [commandsOf_settle, List.mem_filterMap]
  constructor
  · exact fun h entry hentry kept hkept => h kept ⟨entry, hentry, hkept⟩
  · rintro h kept ⟨entry, hentry, hkept⟩
    exact h entry hentry kept hkept

theorem theirEvent_removed (value : Option Raw) :
    theirEvent p.owns ((value.map numbers.settle).bind (cleanEvent p)) = theirEvent p.owns value ↔
      (∀ entry ∈ toEntrySlice value, (p.keepEntry entry).bind (theirEntry p.owns) = theirEntry p.owns entry) ∧
        ∀ theirs, theirEvent p.owns value = some theirs → numbers.settle theirs = theirs := by
  cases value with
  | none => exact iff_of_true rfl ⟨nofun, nofun⟩
  | some a =>
    cases a with
    | null => exact iff_of_true rfl ⟨nofun, nofun⟩
    | arr entries =>
      have hlist : theirEvent p.owns (((some (.arr entries)).map numbers.settle).bind (cleanEvent p)) =
          boxed ((entries.filterMap fun entry => (p.keepEntry entry).bind (theirEntry p.owns)).map numbers.settle) := by
        rw [Option.map_some, settle_arr, Option.bind_some, cleanEvent_arr, theirEvent_boxed, filterOut_settle, List.filterMap_map,
          Provider.filterOut_eq, List.filterMap_filterMap, List.map_filterMap]
        congr 1
        refine List.filterMap_congr fun entry _ => ?_
        cases p.keepEntry entry with
        | none => rfl
        | some kept => exact theirs_settle kept
      rw [hlist]
      change boxed _ = boxed _ ↔ _
      rw [boxed_inj, filterMap_shrunk_iff (Provider.bind_theirs p)]
      refine and_congr_right fun _ => ?_
      change _ ↔ ∀ theirs, boxed (entries.filterMap (theirEntry p.owns)) = some theirs → _
      cases hfilter : entries.filterMap (theirEntry p.owns) with
      | nil => exact iff_of_true nofun nofun
      | cons first rest =>
        constructor
        · rintro h _ ⟨⟩
          rw [settle_arr, map_eq_self.2 h]
        · intro h
          have harr := h _ rfl
          rw [settle_arr] at harr
          exact map_eq_self.1 (Raw.arr.inj harr)
    | bool | num | str | obj =>
      rw [Option.map_some, Option.bind_some]
      first | rw [settle_obj] | skip
      constructor
      · intro h
        refine ⟨nofun, ?_⟩
        rintro _ ⟨⟩
        first | exact Option.some.inj h | exact (settle_obj _ _).trans (Option.some.inj h)
      · rintro ⟨-, h⟩
        have hsame := h _ rfl
        first | exact congrArg some hsame | exact congrArg some ((settle_obj _ _).symm.trans hsame)

theorem shape_clean (h : shapeOk value = true) : shapeOk (value.bind (cleanEvent p)) = true := by
  cases value with
  | none => rfl
  | some a =>
    cases a with
    | null => rfl
    | arr entries =>
      rw [Option.bind_some, cleanEvent_arr]
      cases p.filterOut entries <;> rfl
    | _ => cases h

variable (hbase : base pdxPath = "pdx") (hquote : '"' ∉ pdxPath.toList) (hspec : spec ∈ p.installable)
include hbase hquote hspec

/-- An install keeps of theirs what a remove keeps. -/
theorem theirEvent_installed (h : shapeOk value = true) :
    theirEvent p.owns (some (installed p pdxPath spec value)) = theirEvent p.owns (value.bind (cleanEvent p)) := by
  rw [theirEvent_of_shapeOk (shape_clean h), toEntrySlice_clean]
  change boxed _ = _
  rw [List.filterMap_append, List.filterMap_cons, (makeEntry_lost hbase hquote hspec).2, List.filterMap_nil, List.append_nil]

/-- And of ours what a remove keeps, with one command more. -/
theorem ourCommands_installed (value : Option Raw) : ourCommands p.owns (some (installed p pdxPath spec value)) =
    ourCommands p.owns (value.bind (cleanEvent p)) ++ [hookCommand pdxPath p.agent spec.purdexName] := by
  rw [ourCommands, ourCommands, toEntrySlice_clean]
  change List.flatMap _ (_ ++ _) = _
  rw [List.flatMap_append, List.flatMap_singleton, commandsOf_makeEntry hbase hquote hspec]

theorem filterOut_installed (entries : List Raw) :
    p.filterOut (p.filterOut entries ++ [p.makeEntry pdxPath spec]) = p.filterOut entries := by
  have happend : p.filterOut (p.filterOut entries ++ [p.makeEntry pdxPath spec]) =
      p.filterOut (p.filterOut entries) ++ p.filterOut [p.makeEntry pdxPath spec] := by
    simp only [Provider.filterOut_eq, List.filterMap_append]
  rw [happend, Provider.filterOut_idem]
  simp only [Provider.filterOut_eq, List.filterMap_cons, (makeEntry_lost hbase hquote hspec).1, List.filterMap_nil, List.append_nil]

theorem installed_installed (value : Option Raw) :
    installed p pdxPath spec (some (installed p pdxPath spec value)) = installed p pdxPath spec value := by
  unfold installed
  change Raw.arr (p.filterOut (_ ++ _) ++ _) = _
  rw [filterOut_installed hbase hquote hspec]

/-- A remove undoes an install, but for a value that is null and stays so where it is removed only. -/
theorem clean_installed (h : shapeOk value = true) :
    value.bind (cleanEvent p) = cleanEvent p (installed p pdxPath spec value) ↔ value ≠ some .null := by
  rw [installed, cleanEvent_arr, filterOut_installed hbase hquote hspec]
  cases value with
  | none => exact iff_of_true (by cases p <;> rfl) nofun
  | some a =>
    cases a with
    | null => exact iff_of_false (by cases p <;> exact nofun) fun h => h rfl
    | arr entries => exact iff_of_true (cleanEvent_arr p entries) nofun
    | _ => cases h

end Events

end Purdex.Hooks
