/-
Checking hooks: what is told of a hook file, and that it tells the truth of what an install and a remove have made of one.
-/
import Purdex.Hooks.Harmless

namespace Purdex.Hooks

open Json

/-! ## Commands that are accepted -/

/-- The hooks of a group. -/
def groupHooks : Raw → List Raw
  | .obj group => toEntrySlice (group.lookup "hooks")
  | _ => []

def isPdxCommandForCCEvent (cmd eventName : String) : Bool := isPdxCommand "cc" (· = eventName) cmd

def isPdxCommandCodexForEvent (cmd eventName : String) : Bool := isPdxCommand "codex" (· = eventName) cmd

/-- The first command in a group that is accepted, and the empty one where none is. -/
def findCommand (accepts : String → Bool) (entries : Raw) : String :=
  (((toEntrySlice entries).flatMap groupHooks).findSome? (ourCommand accepts)).getD ""

def findPdxCommandForEvent (entries : Raw) (eventName : String) : String :=
  findCommand (isPdxCommandForCCEvent · eventName) entries

def findPdxCommandInCodexForEvent (entries : Raw) (eventName : String) : String :=
  findCommand (isPdxCommandCodexForEvent · eventName) entries

/-- A hook of ours that stands in no group. -/
def isLegacyDirectEntry (owns : String → Bool) : Raw → Bool
  | .obj entry => (entry.lookup "hooks").isNone && (entry.lookup "type").isSome && isOwnedHook owns (.obj entry)
  | _ => false

def hasLegacyPdxDirectCodexEntryOwned (entries : Raw) (owned : List String) : Bool :=
  (toEntrySlice entries).any (isLegacyDirectEntry (isPdxCommandCodexOwnedEvent · owned))

def hasLegacyPdxDirectCodexEntry (entries : Raw) : Bool := hasLegacyPdxDirectCodexEntryOwned entries codexOwnedCleanupEventNames

/-! ## The check of an event -/

structure HookEventInfo where
  installed : Bool
  command : String := ""
  futureOnly : Bool := false
  deriving Repr, DecidableEq

structure EventCheck where
  info : HookEventInfo
  issues : List String := []
  blocks : Bool := false
  upgrade : Bool := false
  deriving Repr, DecidableEq

def checkCCEvent (spec : HookEventSpec) (hooks : List (String × Raw)) : EventCheck :=
  match hooks.lookup spec.key with
  | none =>
    let info : HookEventInfo := { installed := false, futureOnly := spec.futureOnly }
    if spec.futureOnly then { info, upgrade := true }
    else { info, issues := [spec.purdexName ++ " hook not installed"], blocks := true }
  | some entries =>
    let command := findPdxCommandForEvent entries spec.purdexName
    let info : HookEventInfo := { installed := command ≠ "", command, futureOnly := spec.futureOnly }
    if command = "" then { info, issues := [spec.purdexName ++ " hook: pdx command not found"], blocks := true }
    else { info }

def checkCodexEvent (spec : HookEventSpec) (hooks : List (String × Raw)) : HookEventInfo × List String × Bool :=
  match hooks.lookup spec.key with
  | none =>
    if spec.futureOnly then ({ installed := false }, [], false)
    else ({ installed := false }, [spec.key ++ " hook not installed"], true)
  | some entries =>
    if hasLegacyPdxDirectCodexEntry entries then
      ({ installed := false }, [spec.key ++ " hook uses legacy format; reinstall required"], true)
    else
      let command := findPdxCommandInCodexForEvent entries spec.purdexName
      if command = "" then
        if spec.futureOnly then
          ({ installed := false }, [spec.key ++ " hook: pdx command malformed (FutureOnly event has existing hook entry but " ++
            "pdx path incorrect — run install to repair)"], true)
        else ({ installed := false }, [spec.key ++ " hook: pdx command not found"], true)
      else ({ installed := true, command }, [], false)

/-- An event is an upgrade where it may be missing and is. -/
def codexEventCheck (spec : HookEventSpec) (hooks : List (String × Raw)) : EventCheck :=
  let (info, issues, blocks) := checkCodexEvent spec hooks
  { info := { info with futureOnly := spec.futureOnly }, issues, blocks,
    upgrade := spec.futureOnly && !info.installed && (hooks.lookup spec.key).isNone }

/-! ## The check of a file -/

structure HookStatus where
  installed : Bool
  managed : Bool := false
  upgradesAvailable : List String := []
  events : List (String × HookEventInfo) := []
  issues : List String
  deriving Repr, DecidableEq

def ccHooksManaged (hooks : List (String × Raw)) : Bool :=
  hooks.any fun event => (toEntrySlice event.2).any (entryIsPdxCCKnownEvent ccOwnedCleanupEventNames)

def codexHooksManaged (hooks : List (String × Raw)) : Bool :=
  hooks.any fun event => hasLegacyPdxDirectCodexEntryOwned event.2 codexOwnedCleanupEventNames ||
    ((toEntrySlice event.2).flatMap groupHooks).any (isOwnedHook (isPdxCommandCodexOwnedEvent · codexOwnedCleanupEventNames))

/-- `config.toml`, where it can be parsed. One that is not there is empty, and one that is written is read as it was written. -/
abbrev Config := Except Failure (List (String × Raw))

def features (config : List (String × Raw)) : List (String × Raw) :=
  match config.lookup "features" with
  | some (.obj features) => features
  | _ => []

def setCodexHooksFeature (config : List (String × Raw)) : List (String × Raw) :=
  Fields.put "features" (.obj (Fields.put "codex_hooks" (.bool true) (features config))) config

def codexHooksFeatureEnabled (config : List (String × Raw)) : Bool :=
  match (features config).lookup "codex_hooks" with
  | some (.bool enabled) => enabled
  | _ => false

namespace Provider

def eventCheck : Provider → HookEventSpec → List (String × Raw) → EventCheck
  | cc => checkCCEvent
  | codex => codexEventCheck

def hooksManaged : Provider → List (String × Raw) → Bool
  | cc => ccHooksManaged
  | codex => codexHooksManaged

def fileNotFound : Provider → String
  | cc => "settings.json not found"
  | codex => "hooks.json not found"

/-- Codex runs no hook where its feature is not turned on. -/
def enabled : Provider → Config → Except Failure Bool
  | cc, _ => .ok true
  | codex, config => config.map codexHooksFeatureEnabled

/-- The events of a file, and none where they are no object. -/
def hooksForCheck (settings : List (String × Raw)) : List (String × Raw) :=
  match settings.lookup "hooks" with
  | some (.obj hooks) => hooks
  | _ => []

def statusOf (p : Provider) (enabled : Bool) (hooks : List (String × Raw)) : HookStatus :=
  let checks := p.installable.map fun spec => (spec.purdexName, p.eventCheck spec hooks)
  { installed := checks.all (fun check => !check.2.blocks) && enabled
    managed := p.hooksManaged hooks
    upgradesAvailable := (checks.filter fun check => check.2.upgrade).map Prod.fst
    events := checks.map fun check => (check.1, check.2.info)
    issues := checks.flatMap (fun check => check.2.issues) ++
      if enabled then [] else ["codex hooks feature flag disabled; run install to enable features.codex_hooks"] }

/-- The versions of the agent are left out. No number is looked at. -/
def checkHooks (p : Provider) (numbers : Numbers) (config : Config) (file : Option Raw) : Except Failure HookStatus :=
  let checked (settings : List (String × Raw)) : Except Failure HookStatus :=
    (p.enabled config).map fun enabled => p.statusOf enabled (hooksForCheck settings)
  match file with
  | none => .ok { installed := false, issues := [p.fileNotFound] }
  | some a =>
    if numbers.readable a then
      match a with
      | .null => checked []
      | .obj settings => checked settings
      | _ => .error .parse
    else .error .parse

/-- An install for Codex turns its feature on, where it gets as far as that. -/
def install (p : Provider) (numbers : Numbers) (pdxPath : String) (config : Config) (file : Option Raw) : Merged × Config :=
  match p with
  | cc => (mergeClaudeHooks numbers pdxPath false file, config)
  | codex =>
    match config with
    | .error reason => (.failed reason, config)
    | .ok features =>
      match mergeCodexHooks numbers pdxPath false file with
      | .written settings => (.written settings, .ok (setCodexHooksFeature features))
      | other => (other, config)

/-- What an install and a remove look for in an entry of the file they leave. -/
def marked : Provider → Raw → Bool
  | cc, entry => entryIsPdxCCKnownEvent ccOwnedCleanupEventNames entry
  | codex, entry => isLegacyDirectEntry codex.owns entry || (groupHooks entry).any (isOwnedHook codex.owns)

/-- The check of one event accepts the command. -/
def accepts (p : Provider) (spec : HookEventSpec) (cmd : String) : Bool := isPdxCommand p.agent (· = spec.purdexName) cmd

end Provider

/-! ## Entries that are left -/

section Left

variable {p : Provider} {spec : HookEventSpec} {cmd : String} {entry kept entries : Raw}

theorem isPdxCommand_mono {agent : String} {eventOK known : String → Bool} (hknown : ∀ event, eventOK event = true → known event = true)
    (h : isPdxCommand agent eventOK cmd = true) : isPdxCommand agent known cmd = true := by
  unfold isPdxCommand at h ⊢
  split at h
  · simp only [Bool.and_eq_true] at h ⊢
    exact ⟨h.1, hknown _ h.2⟩
  · cases h

/-- What the check accepts is ours. -/
theorem owns_of_accepts (hspec : spec ∈ p.installable) (h : p.accepts spec cmd = true) : p.owns cmd = true := by
  have hname : ∀ event, decide (event = spec.purdexName) = true → (ownedCleanupEventNames p.specs).contains event = true := by
    intro event hevent
    rw [of_decide_eq_true hevent]
    exact List.contains_iff_mem.2 (mem_ownedCleanupEventNames hspec)
  cases p with
  | cc => exact isPdxCommand_mono hname h
  | codex => exact isPdxCommand_mono hname h

theorem accepts_ne_empty (h : p.accepts spec cmd = true) : cmd ≠ "" := by
  rintro rfl
  cases h

theorem accepts_hookCommand {pdxPath : String} (hbase : base pdxPath = "pdx") (hquote : '"' ∉ pdxPath.toList) (hspec : spec ∈ p.installable) :
    p.accepts spec (hookCommand pdxPath p.agent spec.purdexName) = true := by
  have h : isPdxCommand p.agent ([spec.purdexName].contains ·) (hookCommand pdxPath p.agent spec.purdexName) = true :=
    isPdxCommand_hookCommand hbase hquote (List.mem_singleton_self _) (hookCommand_words p spec hspec)
  exact isPdxCommand_mono (fun event hevent => by simpa using hevent) h

theorem groupHooks_eq (owns : String → Bool) (entry : Raw) : groupHooks entry = match kindOf owns entry with
    | .group _ hooks => hooks
    | _ => [] := by
  cases entry with
  | obj fields =>
    rcases Option.eq_none_or_eq_some (fields.lookup "hooks") with hnone | ⟨hooks, hsome⟩
    · simp only [groupHooks, kindOf, hnone]
      by_cases hdirect : (fields.lookup "type").isSome ∧ isOwnedHook owns (.obj fields)
      · rw [if_pos hdirect]
        rfl
      · rw [if_neg hdirect]
        rfl
    · simp only [groupHooks, kindOf, hsome]
      cases hooks <;> rfl
  | _ => rfl

theorem isLegacyDirectEntry_eq (owns : String → Bool) (entry : Raw) : isLegacyDirectEntry owns entry = match kindOf owns entry with
    | .direct => true
    | _ => false := by
  cases entry with
  | obj fields =>
    rcases Option.eq_none_or_eq_some (fields.lookup "hooks") with hnone | ⟨hooks, hsome⟩
    · simp only [isLegacyDirectEntry, kindOf, hnone]
      by_cases hdirect : (fields.lookup "type").isSome ∧ isOwnedHook owns (.obj fields)
      · simp [hdirect]
      · simp only [if_neg hdirect, Option.isNone_none, Bool.true_and]
        exact Bool.eq_false_iff.2 fun h => hdirect (by simpa using h)
    · simp only [isLegacyDirectEntry, kindOf, hsome]
      cases hooks <;> rfl
  | _ => rfl

theorem marked_cc (entry : Raw) : Provider.cc.marked entry = (groupHooks entry).any (isOwnedHook Provider.cc.owns) := by
  cases entry with
  | obj fields =>
    simp only [Provider.marked, entryIsPdxCCKnownEvent, groupHooks]
    rcases Option.eq_none_or_eq_some (fields.lookup "hooks") with hnone | ⟨hooks, hsome⟩
    · simp only [hnone, toEntrySlice, List.any_nil]
    · simp only [hsome]
      cases hooks <;> rfl
  | _ => rfl

/-- A command of ours in a group marks it. -/
theorem not_owned_of_unmarked (h : p.marked entry = false) : ∀ hook ∈ groupHooks entry, isOwnedHook p.owns hook = false := by
  intro hook hhook
  cases p with
  | cc =>
    rw [marked_cc] at h
    simpa using List.any_eq_false.1 h hook hhook
  | codex =>
    obtain ⟨-, hgroup⟩ := Bool.or_eq_false_iff.1 h
    simpa using List.any_eq_false.1 hgroup hook hhook

/-- No filter keeps an entry that is marked. -/
theorem unmarked_of_kept (h : p.keepEntry entry = some kept) : p.marked kept = false := by
  have hagain := Provider.keepEntry_idem h
  cases p with
  | cc =>
    change (if entryIsPdxCCKnownEvent ccOwnedCleanupEventNames kept then none else some kept) = some kept at hagain
    split at hagain
    · cases hagain
    · rename_i hours
      exact Bool.eq_false_iff.2 hours
  | codex =>
    rw [Provider.keep_codex] at hagain
    rw [Provider.marked, isLegacyDirectEntry_eq, groupHooks_eq Provider.codex.owns]
    cases hkind : kindOf Provider.codex.owns kept with
    | group fields hooks =>
      obtain ⟨rfl, hlookup⟩ := kindOf_eq_group hkind
      rw [hkind] at hagain
      simp only at hagain ⊢
      split at hagain
      · cases hagain
      · rename_i theirs hne
        have hsame : Fields.put "hooks" (.arr (hooks.filter (!isOwnedHook Provider.codex.owns ·))) fields = fields :=
          Raw.obj.inj (Option.some.inj hagain)
        rw [← hsame, Fields.lookup_put, if_pos rfl] at hlookup
        have hfilter : hooks.filter (!isOwnedHook Provider.codex.owns ·) = hooks := Raw.arr.inj (Option.some.inj hlookup)
        exact List.any_eq_false.2 fun hook hhook => by simp [not_owned_of_filter hfilter hook hhook]
    | direct =>
      rw [hkind] at hagain
      cases hagain
    | other => rfl

/-- A command that is taken passed the test. -/
theorem ourCommand_passes {owns : String → Bool} (h : ourCommand owns entry = some cmd) : owns cmd = true := by
  cases entry with
  | obj fields =>
    simp only [ourCommand] at h
    split at h
    · split at h
      · rename_i howns
        cases h
        exact howns
      · cases h
    · cases h
  | _ => cases h

/-- The command of a hook is the same for whoever takes it. -/
theorem ourCommand_again {owns owns' : String → Bool} (h : ourCommand owns entry = some cmd) (hagain : owns' cmd = true) :
    ourCommand owns' entry = some cmd := by
  cases entry with
  | obj fields =>
    simp only [ourCommand] at h ⊢
    split at h
    · split at h
      · cases h
        exact if_pos hagain
      · cases h
    · cases h
  | _ => cases h

theorem ourCommand_of_accepts (hspec : spec ∈ p.installable) (h : ourCommand (p.accepts spec) entry = some cmd) :
    p.accepts spec cmd = true ∧ ourCommand p.owns entry = some cmd :=
  ⟨ourCommand_passes h, ourCommand_again h (owns_of_accepts hspec (ourCommand_passes h))⟩

theorem ourCommand_accepts (hspec : spec ∈ p.installable) (h : isOwnedHook p.owns entry = false) : ourCommand (p.accepts spec) entry = none := by
  rw [Option.eq_none_iff_forall_not_mem]
  intro cmd hcmd
  have hours := (ourCommand_of_accepts hspec hcmd).2
  rw [ourCommand_eq_none h] at hours
  cases hours

theorem unmarked_filterOut (p : Provider) (before : List Raw) : ∀ entry ∈ p.filterOut before, p.marked entry = false := by
  intro entry hentry
  rw [Provider.filterOut_eq, List.mem_filterMap] at hentry
  obtain ⟨whole, -, hkept⟩ := hentry
  exact unmarked_of_kept hkept

/-- Where no entry is marked, no command is found. -/
theorem findCommand_eq_empty (hspec : spec ∈ p.installable) (h : ∀ entry ∈ toEntrySlice entries, p.marked entry = false) :
    findCommand (p.accepts spec) entries = "" := by
  have hnone : ((toEntrySlice entries).flatMap groupHooks).findSome? (ourCommand (p.accepts spec)) = none := by
    refine List.findSome?_eq_none_iff.2 fun hook hhook => ?_
    obtain ⟨entry, hentry, hhook⟩ := List.mem_flatMap.1 hhook
    exact ourCommand_accepts hspec (not_owned_of_unmarked (h entry hentry) hook hhook)
  rw [findCommand, hnone]
  rfl

/-- A command that is found is one of ours in a group of the event. -/
theorem findCommand_mem (hspec : spec ∈ p.installable) (h : findCommand (p.accepts spec) entries ≠ "") :
    p.accepts spec (findCommand (p.accepts spec) entries) = true ∧ findCommand (p.accepts spec) entries ∈ ourCommands p.owns (some entries) := by
  cases hfound : ((toEntrySlice entries).flatMap groupHooks).findSome? (ourCommand (p.accepts spec)) with
  | none =>
    rw [findCommand, hfound] at h
    exact absurd rfl h
  | some cmd =>
    have hcmd : findCommand (p.accepts spec) entries = cmd := by
      rw [findCommand, hfound]
      rfl
    rw [hcmd]
    obtain ⟨hook, hhook, htaken⟩ := List.exists_of_findSome?_eq_some hfound
    obtain ⟨entry, hentry, hhook⟩ := List.mem_flatMap.1 hhook
    obtain ⟨haccepts, hours⟩ := ourCommand_of_accepts hspec htaken
    refine ⟨haccepts, List.mem_flatMap.2 ⟨entry, hentry, ?_⟩⟩
    rw [groupHooks_eq p.owns] at hhook
    rw [commandsOf]
    cases hkind : kindOf p.owns entry with
    | group fields hooks =>
      rw [hkind] at hhook
      exact List.mem_filterMap.2 ⟨hook, hhook, hours⟩
    | direct | other =>
      rw [hkind] at hhook
      cases hhook

/-! ## What is told of an event -/

variable {hooks : List (String × Raw)}

/-- An event that is told for installed has a command that is found. -/
theorem eventCheck_installed (h : (p.eventCheck spec hooks).info.installed = true) : ∃ entries, hooks.lookup spec.key = some entries ∧
    (p.eventCheck spec hooks).info.command = findCommand (p.accepts spec) entries ∧ findCommand (p.accepts spec) entries ≠ "" := by
  cases p with
  | cc =>
    simp only [Provider.eventCheck, checkCCEvent] at h ⊢
    cases hlookup : hooks.lookup spec.key with
    | none =>
      simp only [hlookup] at h
      split at h <;> cases h
    | some entries =>
      simp only [hlookup] at h
      refine ⟨entries, rfl, ?_⟩
      split at h
      · rename_i hempty
        simp [hempty] at h
      · rename_i hfound
        simp only [if_neg hfound]
        exact ⟨rfl, hfound⟩
  | codex =>
    simp only [Provider.eventCheck, codexEventCheck, checkCodexEvent] at h ⊢
    cases hlookup : hooks.lookup spec.key with
    | none =>
      simp only [hlookup] at h
      split at h <;> cases h
    | some entries =>
      simp only [hlookup] at h
      refine ⟨entries, rfl, ?_⟩
      split at h
      · cases h
      · rename_i hdirect
        simp only [if_neg hdirect]
        split at h
        · split at h <;> cases h
        · rename_i hfound
          simp only [if_neg hfound]
          exact ⟨rfl, hfound⟩

/-- And an event with a command that is found, and none of ours by itself, is told for installed. -/
theorem eventCheck_eq (hlookup : hooks.lookup spec.key = some entries)
    (hdirect : p = .codex → ∀ entry ∈ toEntrySlice entries, isLegacyDirectEntry p.owns entry = false)
    (hfound : findCommand (p.accepts spec) entries ≠ "") :
    p.eventCheck spec hooks = { info := ⟨true, findCommand (p.accepts spec) entries, spec.futureOnly⟩ } := by
  cases p with
  | cc =>
    change findPdxCommandForEvent entries spec.purdexName ≠ "" at hfound
    simp only [Provider.eventCheck, checkCCEvent, hlookup, ne_eq, hfound, not_false_eq_true, decide_true]
    rfl
  | codex =>
    change findPdxCommandInCodexForEvent entries spec.purdexName ≠ "" at hfound
    have hnone : ¬ hasLegacyPdxDirectCodexEntry entries = true := fun h => by
      obtain ⟨entry, hentry, howned⟩ := List.any_eq_true.1 h
      exact absurd howned (Bool.eq_false_iff.1 (hdirect rfl entry hentry))
    simp only [Provider.eventCheck, codexEventCheck, checkCodexEvent, hlookup, if_neg hnone, if_neg hfound, Bool.not_true, Bool.and_false,
      Bool.false_and]
    rfl

end Left

section Installed

variable {p : Provider} {spec : HookEventSpec} {pdxPath : String} {hooks : List (String × Raw)} (hbase : base pdxPath = "pdx")
  (hquote : '"' ∉ pdxPath.toList) (hspec : spec ∈ p.installable)
include hbase hquote hspec

/-- Behind what a filter keeps the command is found that is installed. -/
theorem findCommand_installed (value : Option Raw) :
    findCommand (p.accepts spec) (installed p pdxPath spec value) = hookCommand pdxPath p.agent spec.purdexName := by
  have hkept : ((p.filterOut (toEntrySlice value)).flatMap groupHooks).findSome? (ourCommand (p.accepts spec)) = none := by
    refine List.findSome?_eq_none_iff.2 fun hook hhook => ?_
    obtain ⟨entry, hentry, hhook⟩ := List.mem_flatMap.1 hhook
    exact ourCommand_accepts hspec (not_owned_of_unmarked (unmarked_filterOut p _ entry hentry) hook hhook)
  have hown : (groupHooks (p.makeEntry pdxPath spec)).findSome? (ourCommand (p.accepts spec)) =
      some (hookCommand pdxPath p.agent spec.purdexName) := by
    obtain ⟨fields, hook, hkind, hcommand⟩ := makeEntry_kind hbase hquote hspec
    rw [groupHooks_eq p.owns, hkind]
    simp only [List.findSome?_cons, ourCommand_again hcommand (accepts_hookCommand hbase hquote hspec)]
  change (((p.filterOut (toEntrySlice value) ++ [p.makeEntry pdxPath spec]).flatMap groupHooks).findSome? _).getD "" = _
  rw [List.flatMap_append, List.findSome?_append, hkept, Option.none_or, List.flatMap_singleton, hown]
  rfl

theorem marked_makeEntry : p.marked (p.makeEntry pdxPath spec) = true := by
  obtain ⟨fields, hook, hkind, hcommand⟩ := makeEntry_kind hbase hquote hspec
  have howned : isOwnedHook p.owns hook = true := by
    rw [← ourCommand_isSome, hcommand]
    rfl
  cases p with
  | cc =>
    rw [marked_cc, groupHooks_eq Provider.cc.owns, hkind]
    exact List.any_eq_true.2 ⟨hook, List.mem_singleton_self _, howned⟩
  | codex =>
    rw [Provider.marked, groupHooks_eq Provider.codex.owns, hkind, Bool.or_eq_true]
    exact .inr (List.any_eq_true.2 ⟨hook, List.mem_singleton_self _, howned⟩)

/-- What is told of an event behind an install. -/
theorem eventCheck_of_installed {value : Option Raw} (hlookup : hooks.lookup spec.key = some (installed p pdxPath spec value)) :
    p.eventCheck spec hooks = { info := ⟨true, hookCommand pdxPath p.agent spec.purdexName, spec.futureOnly⟩ } := by
  have hfound := findCommand_installed hbase hquote hspec value
  have hne : findCommand (p.accepts spec) (installed p pdxPath spec value) ≠ "" := by
    rw [hfound]
    exact accepts_ne_empty (accepts_hookCommand hbase hquote hspec)
  rw [eventCheck_eq hlookup ?_ hne, hfound]
  rintro rfl entry hentry
  rcases List.mem_append.1 hentry with hentry | hentry
  · exact (Bool.or_eq_false_iff.1 (unmarked_filterOut .codex _ entry hentry)).1
  · obtain rfl := List.mem_singleton.1 hentry
    obtain ⟨fields, hook, hkind, -⟩ := makeEntry_kind hbase hquote hspec
    rw [isLegacyDirectEntry_eq, hkind]

end Installed

/-! ## What is told of a file -/

section Files

variable {p : Provider} {numbers : Numbers} {pdxPath : String} {file : Option Raw} {settings hooks : List (String × Raw)}

theorem hooksManaged_iff : p.hooksManaged hooks = true ↔ ∃ event ∈ hooks, ∃ entry ∈ toEntrySlice event.2, p.marked entry = true := by
  cases p with
  | cc =>
    change hooks.any _ = true ↔ _
    simp only [List.any_eq_true]
    rfl
  | codex =>
    change hooks.any _ = true ↔ _
    simp only [List.any_eq_true, Bool.or_eq_true, hasLegacyPdxDirectCodexEntryOwned, List.mem_flatMap, Provider.marked]
    refine exists_congr fun event => and_congr_right fun _ => ⟨?_, ?_⟩
    · rintro (⟨entry, hentry, hdirect⟩ | ⟨hook, ⟨entry, hentry, hhook⟩, howned⟩)
      · exact ⟨entry, hentry, .inl hdirect⟩
      · exact ⟨entry, hentry, .inr ⟨hook, hhook, howned⟩⟩
    · rintro ⟨entry, hentry, hdirect | ⟨hook, hhook, howned⟩⟩
      · exact .inl ⟨entry, hentry, hdirect⟩
      · exact .inr ⟨hook, ⟨entry, hentry, hhook⟩, howned⟩

/-- What a remove leaves of an event has nothing that is marked. -/
theorem unmarked_removed {event : String × Raw} (hevent : event ∈ removeHooks p hooks) :
    ∀ entry ∈ toEntrySlice event.2, p.marked entry = false := by
  intro entry hentry
  obtain ⟨before, -, hleft⟩ := List.mem_filterMap.1 hevent
  obtain ⟨value, hvalue, rfl⟩ := Option.map_eq_some_iff.1 hleft
  cases hbefore : before.2 with
  | arr entries =>
    have hslice := toEntrySlice_boxed (p.filterOut entries)
    rw [← cleanEvent_arr, ← hbefore, hvalue] at hslice
    refine unmarked_filterOut p entries entry ?_
    rw [← hslice]
    exact hentry
  | _ =>
    rw [hbefore] at hvalue
    cases hvalue
    cases hentry

theorem hooksForCheck_written (hooks settings : List (String × Raw)) :
    Provider.hooksForCheck (Fields.put "hooks" (.obj hooks) settings) = hooks := by
  rw [Provider.hooksForCheck, Fields.lookup_put, if_pos rfl]

theorem event_checked (settings : List (String × Raw)) (e : String) :
    event (some (.obj settings)) e = (Provider.hooksForCheck settings).lookup e := by
  rw [event, hooksOf, fieldsOf_written, Option.bind_some, Provider.hooksForCheck, hooksMapForMerge]
  cases settings.lookup "hooks" with
  | none => rfl
  | some a => cases a <;> rfl

theorem codexHooksFeatureEnabled_set (config : List (String × Raw)) : codexHooksFeatureEnabled (setCodexHooksFeature config) = true := by
  rw [codexHooksFeatureEnabled, features, setCodexHooksFeature, Fields.lookup_put, if_pos rfl]
  simp only [Fields.lookup_put, if_true]

theorem checkHooks_obj (hread : numbers.readable (.obj settings) = true) {config : Config} {enabled : Bool}
    (henabled : p.enabled config = .ok enabled) :
    p.checkHooks numbers config (some (.obj settings)) = .ok (p.statusOf enabled (Provider.hooksForCheck settings)) := by
  rw [Provider.checkHooks]
  simp only [if_pos hread, henabled]
  rfl

theorem names_nodup (p : Provider) : (p.installable.map HookEventSpec.purdexName).Nodup := by
  cases p <;> decide

/-- A status tells of each event that is installed what its own check found. -/
theorem mem_events {spec : HookEventSpec} {enabled : Bool} {info : HookEventInfo} (hspec : spec ∈ p.installable)
    (h : (spec.purdexName, info) ∈ (p.statusOf enabled hooks).events) : info = (p.eventCheck spec hooks).info := by
  simp only [Provider.statusOf, List.map_map, List.mem_map, Function.comp_def, Prod.mk.injEq] at h
  obtain ⟨other, hother, hname, rfl⟩ := h
  rw [List.inj_on_of_nodup_map (names_nodup p) hother hspec hname]

/-! ## Files that were written -/

/-- What is written is written into a file that opens. -/
theorem opened_of_written {remove : Bool} (h : merge p numbers pdxPath remove file = .written settings) :
    ∃ fields hooks, Opened numbers file fields hooks := by
  have hnull : file ≠ some .null := by
    rintro rfl
    cases h
  have hfailed : ∀ {reason}, merge p numbers pdxPath remove file ≠ .failed reason := fun hreason => by
    rw [h] at hreason
    cases hreason
  cases hread : file.all numbers.readable with
  | false => exact absurd (merge_unread hread remove) hfailed
  | true =>
    cases hhooks : hooksOf file with
    | none =>
      obtain ⟨reason, hreason⟩ := @merge_locked p numbers pdxPath file hread hhooks hnull remove
      exact absurd hreason hfailed
    | some hooks => exact exists_opened hread (Option.isSome_of_eq_some hhooks)

/-- An install that writes a file writes what it makes of its events. -/
theorem written_installed (h : merge p numbers pdxPath false file = .written settings) : ∃ fields hooks, Opened numbers file fields hooks ∧
    settings = Fields.put "hooks" (.obj (installHooks p pdxPath (numbers.settleFields hooks))) (numbers.settleFields fields) := by
  obtain ⟨fields, hooks, hopened⟩ := opened_of_written h
  refine ⟨fields, hooks, hopened, ?_⟩
  by_cases hshape : ∀ spec ∈ p.installable, shapeOk (hooks.lookup spec.key) = true
  · rw [hopened.merge_install hshape] at h
    exact (Merged.written.inj h).symm
  · obtain ⟨reason, hreason⟩ := @Opened.refused p numbers pdxPath _ _ _ hopened hshape
    rw [hreason] at h
    cases h

theorem readable_filterOut {entries : List Raw} (h : ∀ entry ∈ entries, numbers.readable entry = true) :
    ∀ entry ∈ p.filterOut entries, numbers.readable entry = true := by
  intro entry hentry
  rw [Provider.filterOut_eq, List.mem_filterMap] at hentry
  obtain ⟨before, hbefore, hkept⟩ := hentry
  exact readable_keep (h before hbefore) hkept

theorem readable_removed (h : numbers.readable (.obj hooks) = true) : numbers.readable (.obj (removeHooks p hooks)) = true := by
  refine Raw.allNumbers_obj.2 fun event hevent => ?_
  obtain ⟨before, hbefore, hleft⟩ := List.mem_filterMap.1 hevent
  obtain ⟨value, hvalue, rfl⟩ := Option.map_eq_some_iff.1 hleft
  have hread := Raw.allNumbers_obj.1 h before hbefore
  cases harr : before.2 with
  | arr entries =>
    rw [harr] at hread
    rw [harr, cleanEvent_arr] at hvalue
    have hslice := toEntrySlice_boxed (p.filterOut entries)
    rw [hvalue] at hslice
    have hentries := @readable_filterOut p numbers entries (Raw.allNumbers_arr.1 hread)
    cases hkept : p.filterOut entries with
    | nil =>
      rw [hkept] at hvalue
      cases hvalue
    | cons first rest =>
      rw [hkept] at hvalue
      cases hvalue
      rw [hkept] at hentries
      exact Raw.allNumbers_arr.2 hentries
  | _ =>
    rw [harr] at hvalue
    cases hvalue
    rw [← harr]
    exact hread

theorem install_written {config config' : Config} (h : p.install numbers pdxPath config file = (.written settings, config')) :
    merge p numbers pdxPath false file = .written settings ∧ p.enabled config' = .ok true := by
  cases p with
  | cc => exact ⟨congrArg Prod.fst h, rfl⟩
  | codex =>
    cases config with
    | error reason => cases h
    | ok config =>
      simp only [Provider.install] at h
      split at h
      · rename_i hmerge
        cases h
        exact ⟨hmerge, congrArg Except.ok (codexHooksFeatureEnabled_set config)⟩
      · rename_i hother
        exact absurd (congrArg Prod.fst h) (hother settings)

/-! ## The check tells the truth -/

/-- What is installed is told for installed, with the command that was written, and what was removed is not. What is told for installed
is ours. -/
structure Truthful (p : Provider) (numbers : Numbers) (pdxPath : String) (file : Option Raw) : Prop where
  installs : ∀ config settings config', p.install numbers pdxPath config file = (.written settings, config') →
    ∃ status, p.checkHooks numbers config' (some (.obj settings)) = .ok status ∧ status.installed = true ∧ status.managed = true ∧
      status.issues = [] ∧ status.events = p.installable.map fun spec =>
        (spec.purdexName, ⟨true, hookCommand pdxPath p.agent spec.purdexName, spec.futureOnly⟩)
  removable : ∀ config settings config', p.install numbers pdxPath config file = (.written settings, config') →
    ∃ left, merge p numbers pdxPath true (some (.obj settings)) = .written left
  removes : ∀ settings, merge p numbers pdxPath true file = .written settings → ∀ config,
    ∃ status, p.checkHooks numbers (.ok config) (some (.obj settings)) = .ok status ∧ status.managed = false ∧
      status.events.map Prod.fst = p.installable.map HookEventSpec.purdexName ∧ ∀ event ∈ status.events, event.2.installed = false
  recognised : ∀ config status, p.checkHooks numbers config file = .ok status → ∀ spec ∈ p.installable, ∀ info,
    (spec.purdexName, info) ∈ status.events → info.installed = true →
      p.owns info.command = true ∧ info.command ∈ ourCommands p.owns (event file spec.key)

theorem status_removed (enabled : Bool) : (p.statusOf enabled (removeHooks p hooks)).managed = false ∧
    ∀ event ∈ (p.statusOf enabled (removeHooks p hooks)).events, event.2.installed = false := by
  constructor
  · refine Bool.eq_false_iff.2 fun h => ?_
    obtain ⟨event, hevent, entry, hentry, hmarked⟩ := hooksManaged_iff.1 h
    rw [unmarked_removed hevent entry hentry] at hmarked
    cases hmarked
  · intro event hevent
    simp only [Provider.statusOf, List.map_map, List.mem_map, Function.comp_def] at hevent
    obtain ⟨spec, hspec, rfl⟩ := hevent
    refine Bool.eq_false_iff.2 fun h => ?_
    obtain ⟨entries, hlookup, -, hfound⟩ := eventCheck_installed h
    exact hfound (findCommand_eq_empty hspec (unmarked_removed (mem_of_lookup hlookup)))

/-- What is told for installed stands in a group of its event, and is ours. -/
theorem status_recognised {spec : HookEventSpec} (hspec : spec ∈ p.installable) (h : (p.eventCheck spec hooks).info.installed = true) :
    p.owns (p.eventCheck spec hooks).info.command = true ∧
      (p.eventCheck spec hooks).info.command ∈ ourCommands p.owns (hooks.lookup spec.key) := by
  obtain ⟨entries, hlookup, hcommand, hfound⟩ := eventCheck_installed h
  obtain ⟨haccepts, hmem⟩ := findCommand_mem hspec hfound
  rw [hcommand, hlookup]
  exact ⟨owns_of_accepts hspec haccepts, hmem⟩

/-- A check that tells anything tells of the events of the file, or that there is no file. -/
theorem checked_cases {config : Config} {status : HookStatus} (h : p.checkHooks numbers config file = .ok status) :
    status = { installed := false, issues := [p.fileNotFound] } ∨
      ∃ enabled hooks, status = p.statusOf enabled hooks ∧ ∀ e, event file e = hooks.lookup e := by
  have hchecked : ∀ {settings}, ((p.enabled config).map fun enabled => p.statusOf enabled (Provider.hooksForCheck settings)) = .ok status →
      ∃ enabled, status = p.statusOf enabled (Provider.hooksForCheck settings) := fun h => by
    cases henabled : p.enabled config with
    | error reason =>
      rw [henabled] at h
      cases h
    | ok enabled =>
      rw [henabled] at h
      exact ⟨enabled, (Except.ok.inj h).symm⟩
  cases file with
  | none => exact .inl (Except.ok.inj h).symm
  | some a =>
    by_cases hread : numbers.readable a = true
    · cases a with
      | null =>
        simp only [Provider.checkHooks, if_pos hread] at h
        obtain ⟨enabled, rfl⟩ := hchecked h
        exact .inr ⟨enabled, _, rfl, fun _ => rfl⟩
      | obj settings =>
        simp only [Provider.checkHooks, if_pos hread] at h
        obtain ⟨enabled, rfl⟩ := hchecked h
        exact .inr ⟨enabled, _, rfl, event_checked settings⟩
      | _ =>
        simp only [Provider.checkHooks, if_pos hread] at h
        cases h
    · unfold Provider.checkHooks at h
      simp only [if_neg hread] at h
      cases h

variable (hbase : base pdxPath = "pdx") (hquote : '"' ∉ pdxPath.toList)
include hbase hquote

theorem status_installed : (p.statusOf true (installHooks p pdxPath hooks)).installed = true ∧
    (p.statusOf true (installHooks p pdxPath hooks)).managed = true ∧ (p.statusOf true (installHooks p pdxPath hooks)).issues = [] ∧
      (p.statusOf true (installHooks p pdxPath hooks)).events = p.installable.map fun spec =>
        (spec.purdexName, ⟨true, hookCommand pdxPath p.agent spec.purdexName, spec.futureOnly⟩) := by
  have hlookup : ∀ spec ∈ p.installable, (installHooks p pdxPath hooks).lookup spec.key =
      some (installed p pdxPath spec (hooks.lookup spec.key)) := fun spec hspec => lookup_foldl _ (nodup_installable p) hspec hooks
  have hchecks : (p.installable.map fun spec => (spec.purdexName, p.eventCheck spec (installHooks p pdxPath hooks))) =
      p.installable.map fun spec => (spec.purdexName,
        ({ info := ⟨true, hookCommand pdxPath p.agent spec.purdexName, spec.futureOnly⟩ } : EventCheck)) :=
    List.map_congr_left fun spec hspec => by rw [eventCheck_of_installed hbase hquote hspec (hlookup spec hspec)]
  simp only [Provider.statusOf, hchecks]
  refine ⟨by simp, ?_, by simp, by simp [Function.comp_def]⟩
  obtain ⟨spec, hspec⟩ : ∃ spec, spec ∈ p.installable := List.exists_mem_of_ne_nil _ (by cases p <;> decide)
  refine hooksManaged_iff.2 ⟨_, mem_of_lookup (hlookup spec hspec), p.makeEntry pdxPath spec, ?_, marked_makeEntry hbase hquote hspec⟩
  exact List.mem_append_right _ (List.mem_singleton_self _)

/-- For both agents and every file the check tells the truth. -/
theorem check_truthful : Truthful p numbers pdxPath file where
  installs config settings config' h := by
    obtain ⟨hmerge, henabled⟩ := install_written h
    obtain ⟨fields, hooks, hopened, rfl⟩ := written_installed hmerge
    have hread := (@Opened.reopened p numbers pdxPath _ _ _ hopened).1.readable
    refine ⟨_, checkHooks_obj hread henabled, ?_⟩
    rw [hooksForCheck_written]
    exact status_installed hbase hquote
  removable config settings config' h := by
    obtain ⟨fields, hooks, hopened, rfl⟩ := written_installed (install_written h).1
    exact ⟨_, (@Opened.reopened p numbers pdxPath _ _ _ hopened).1.merge_remove⟩
  removes settings h config := by
    obtain ⟨fields, hooks, hopened⟩ := opened_of_written h
    rw [hopened.merge_remove] at h
    cases h
    obtain ⟨hfields, hhooks⟩ := hopened.readable_fields
    have hread : numbers.readable (.obj (Fields.put "hooks" (.obj (removeHooks p (numbers.settleFields hooks)))
        (numbers.settleFields fields))) = true :=
      readable_put (settleFields_idem hfields).2 (readable_removed (settleFields_idem hhooks).2)
    obtain ⟨enabled, henabled⟩ : ∃ enabled, p.enabled (.ok config) = .ok enabled := by cases p <;> exact ⟨_, rfl⟩
    refine ⟨_, checkHooks_obj hread henabled, ?_⟩
    rw [hooksForCheck_written]
    obtain ⟨hmanaged, hnone⟩ := @status_removed p (numbers.settleFields hooks) enabled
    exact ⟨hmanaged, by simp [Provider.statusOf, Function.comp_def], hnone⟩
  recognised config status h spec hspec info hinfo hinstalled := by
    obtain rfl | ⟨enabled, hooks, rfl, hevent⟩ := checked_cases h
    · cases hinfo
    · obtain rfl := mem_events hspec hinfo
      rw [hevent]
      exact status_recognised hspec hinstalled

end Files

/-- A path with a blank in it, and a Claude file with a hook of another's beside one of ours from an older path. -/
theorem blank_path_truthful : Truthful .cc wholeNumbers "/Applications/Purdex Beta/pdx" (some mixed) :=
  check_truthful (by decide) (by decide)

end Purdex.Hooks
