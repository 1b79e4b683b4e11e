/-
An entry of an event in a hook file: a group of hooks, a hook of ours that stands there by itself as files had it once, or anything
else. What is ours in it, what is theirs, and what the two filters keep of it.
-/
import Purdex.Hooks.Merge

namespace Purdex.Hooks

open Json

/-! ## Shrinking lists -/

theorem map_eq_self {β : Type} {s : β → β} {l : List β} : l.map s = l ↔ ∀ b ∈ l, s b = b := by
  have h := @List.map_inj_left _ _ l s id
  rwa [List.map_id] at h

/-- Where one function keeps what another keeps, or nothing, the lists are equal only if it keeps all of it. -/
theorem filterMap_shrunk_iff {α β : Type} {f g : α → Option β} {s : β → β} (h : ∀ a, g a = f a ∨ g a = none) (l : List α) :
    (l.filterMap g).map s = l.filterMap f ↔ (∀ a ∈ l, g a = f a) ∧ ∀ b ∈ l.filterMap f, s b = b := by
  have hle : ∀ l : List α, (l.filterMap g).length ≤ (l.filterMap f).length := by
    intro l
    induction l with
    | nil => exact le_refl _
    | cons a l ih =>
      rw [List.filterMap_cons, List.filterMap_cons]
      rcases h a with ha | ha
      · rw [ha]
        cases f a with
        | none => exact ih
        | some b => exact Nat.succ_le_succ ih
      · rw [ha]
        cases f a with
        | none => exact ih
        | some b => exact ih.trans (Nat.le_succ _)
  have hkept : ∀ l : List α, (l.filterMap g).length = (l.filterMap f).length → ∀ a ∈ l, g a = f a := by
    intro l
    induction l with
    | nil => exact fun _ => nofun
    | cons a l ih =>
      intro hlen
      rw [List.filterMap_cons, List.filterMap_cons] at hlen
      have hrest := hle l
      rcases h a with ha | ha
      · rw [ha] at hlen
        refine List.forall_mem_cons.2 ⟨ha, ih ?_⟩
        cases hf : f a with
        | none => rwa [hf] at hlen
        | some b =>
          rw [hf] at hlen
          exact Nat.succ.inj hlen
      · rw [ha] at hlen
        cases hf : f a with
        | none =>
          rw [hf] at hlen
          exact List.forall_mem_cons.2 ⟨ha.trans hf.symm, ih hlen⟩
        | some b =>
          rw [hf] at hlen
          simp only [List.length_cons] at hlen
          omega
  constructor
  · intro heq
    have hlen := congrArg List.length heq
    rw [List.length_map] at hlen
    have hsame := hkept l hlen
    refine ⟨hsame, ?_⟩
    rw [List.filterMap_congr hsame] at heq
    exact fun b hb => map_eq_self.1 heq b hb
  · rintro ⟨hsame, hfix⟩
    rw [List.filterMap_congr hsame]
    exact map_eq_self.2 hfix

/-! ## Kinds of entries -/

inductive Kind
  | group (fields : List (String × Raw)) (hooks : List Raw)
  | direct
  | other

def kindOf (owns : String → Bool) (entry : Raw) : Kind :=
  match entry with
  | .obj fields =>
    match fields.lookup "hooks" with
    | some (.arr hooks) => .group fields hooks
    | some _ => .other
    | none => if (fields.lookup "type").isSome ∧ isOwnedHook owns entry then .direct else .other
  | _ => .other

/-- The command of a hook, where it is ours. -/
def ourCommand (owns : String → Bool) : Raw → Option String
  | .obj fields =>
    match fields.lookup "command" with
    | some (.str cmd) => if owns cmd then some cmd else none
    | _ => none
  | _ => none

/-- Our commands in an entry. -/
def commandsOf (owns : String → Bool) (entry : Raw) : List String :=
  match kindOf owns entry with
  | .group _ hooks => hooks.filterMap (ourCommand owns)
  | .direct => (ourCommand owns entry).toList
  | .other => []

/-- An entry without what is ours in it, and nothing where it was ours altogether. -/
def theirEntry (owns : String → Bool) (entry : Raw) : Option Raw :=
  match kindOf owns entry with
  | .group fields hooks =>
    if hooks.any (isOwnedHook owns) then
      match hooks.filter (!isOwnedHook owns ·) with
      | [] => none
      | theirs => some (.obj (Fields.put "hooks" (.arr theirs) fields))
    else some entry
  | .direct => none
  | .other => some entry

namespace Provider

/-- What the filter keeps of an entry. -/
def keepEntry : Provider → Raw → Option Raw
  | cc, entry => if entryIsPdxCCKnownEvent ccOwnedCleanupEventNames entry then none else some entry
  | codex, entry => keepCodexEntry codex.owns entry

/-- An entry that the filter takes ours out of, and no more: for Claude no group with ours and others and none of ours by itself, for
Codex no group that is empty from the first. -/
def Fine (p : Provider) (entry : Raw) : Prop :=
  match p, kindOf p.owns entry with
  | cc, .group _ hooks => (∀ hook ∈ hooks, isOwnedHook cc.owns hook = true) ∨ ∀ hook ∈ hooks, isOwnedHook cc.owns hook = false
  | cc, .direct => False
  | codex, .group _ hooks => hooks ≠ []
  | _, _ => True

variable {p : Provider} {entry : Raw}

theorem filterOut_eq (p : Provider) (entries : List Raw) : p.filterOut entries = entries.filterMap p.keepEntry := by
  cases p with
  | cc =>
    change entries.filter _ = _
    rw [← List.filterMap_eq_filter]
    refine List.filterMap_congr fun entry _ => ?_
    unfold Option.guard keepEntry
    cases hours : entryIsPdxCCKnownEvent ccOwnedCleanupEventNames entry <;> simp [hours]
  | codex => rfl

/-! ## What is kept, by kind -/

theorem keep_cc (entry : Raw) : cc.keepEntry entry = match kindOf cc.owns entry with
    | .group _ hooks => if hooks.any (isOwnedHook cc.owns) then none else some entry
    | _ => some entry := by
  cases entry with
  | obj fields =>
    rcases Option.eq_none_or_eq_some (fields.lookup "hooks") with hnone | ⟨hooks, hsome⟩
    · by_cases hdirect : (fields.lookup "type").isSome ∧ isOwnedHook cc.owns (.obj fields)
      · simp only [keepEntry, entryIsPdxCCKnownEvent, kindOf, hnone, if_pos hdirect]
        rfl
      · simp only [keepEntry, entryIsPdxCCKnownEvent, kindOf, hnone, if_neg hdirect]
        rfl
    · simp only [keepEntry, entryIsPdxCCKnownEvent, kindOf, hsome]
      cases hooks <;> rfl
  | _ => rfl

theorem keep_codex (entry : Raw) : codex.keepEntry entry = match kindOf codex.owns entry with
    | .group fields hooks =>
      match hooks.filter (!isOwnedHook codex.owns ·) with
      | [] => none
      | kept => some (.obj (Fields.put "hooks" (.arr kept) fields))
    | .direct => none
    | .other => some entry := by
  cases entry with
  | obj fields =>
    rcases Option.eq_none_or_eq_some (fields.lookup "hooks") with hnone | ⟨hooks, hsome⟩
    · simp only [keepEntry, keepCodexEntry, kindOf, hnone]
      split <;> rfl
    · simp only [keepEntry, keepCodexEntry, kindOf, hsome]
      cases hooks <;> rfl
  | _ => rfl

end Provider

section Entries

variable {owns : String → Bool} {fields : List (String × Raw)} {hooks : List Raw} {entry hook : Raw}

theorem kindOf_eq_group (h : kindOf owns entry = .group fields hooks) : entry = .obj fields ∧ fields.lookup "hooks" = some (.arr hooks) := by
  unfold kindOf at h
  cases entry with
  | obj fields' =>
    simp only at h
    split at h
    · rename_i hlookup
      cases h
      exact ⟨rfl, hlookup⟩
    · cases h
    · split at h <;> cases h
  | _ => cases h

theorem kindOf_eq_direct (h : kindOf owns entry = .direct) : isOwnedHook owns entry = true := by
  unfold kindOf at h
  cases entry with
  | obj fields' =>
    simp only at h
    split at h
    · cases h
    · cases h
    · split at h
      · rename_i howned
        exact howned.2
      · cases h
  | _ => cases h

theorem kindOf_put (fields : List (String × Raw)) (hooks : List Raw) :
    kindOf owns (.obj (Fields.put "hooks" (.arr hooks) fields)) = .group (Fields.put "hooks" (.arr hooks) fields) hooks := by
  unfold kindOf
  simp only [Fields.lookup_put, if_true]

theorem ourCommand_isSome (owns : String → Bool) (hook : Raw) : (ourCommand owns hook).isSome = isOwnedHook owns hook := by
  unfold ourCommand isOwnedHook
  cases hook with
  | obj fields =>
    simp only
    cases fields.lookup "command" with
    | none => rfl
    | some cmd =>
      cases cmd with
      | str cmd => cases howns : owns cmd <;> simp [howns]
      | _ => rfl
  | _ => rfl

theorem ourCommand_eq_none (h : isOwnedHook owns hook = false) : ourCommand owns hook = none := by
  have hnone := ourCommand_isSome owns hook
  rw [h] at hnone
  exact Option.isNone_iff_eq_none.1 (Option.isSome_eq_false_iff.1 hnone)

theorem filter_theirs (h : hooks.any (isOwnedHook owns) = false) : hooks.filter (!isOwnedHook owns ·) = hooks := by
  rw [List.filter_eq_self]
  intro hook hhook
  simpa using List.any_eq_false.1 h hook hhook

/-- What has nothing of ours is theirs as it is. -/
theorem theirs_put (h : ∀ hook ∈ hooks, isOwnedHook owns hook = false) (fields : List (String × Raw)) :
    theirEntry owns (.obj (Fields.put "hooks" (.arr hooks) fields)) = some (.obj (Fields.put "hooks" (.arr hooks) fields)) := by
  have hany : hooks.any (isOwnedHook owns) = false := List.any_eq_false.2 fun hook hhook => by simp [h hook hhook]
  unfold theirEntry
  rw [kindOf_put]
  simp only [hany, Bool.false_eq_true, if_false]

theorem not_owned_of_filter {theirs : List Raw} (h : hooks.filter (!isOwnedHook owns ·) = theirs) :
    ∀ hook ∈ theirs, isOwnedHook owns hook = false := by
  rintro hook hhook
  rw [← h] at hhook
  simpa using (List.mem_filter.1 hhook).2

end Entries

/-! ## What the filters lose -/

namespace Provider

variable {p : Provider} {entry kept : Raw}

/-- A filter loses an entry, or of it what is ours at most. -/
theorem bind_theirs (p : Provider) (entry : Raw) :
    (p.keepEntry entry).bind (theirEntry p.owns) = theirEntry p.owns entry ∨ (p.keepEntry entry).bind (theirEntry p.owns) = none := by
  cases p with
  | cc =>
    rw [keep_cc]
    cases kindOf cc.owns entry with
    | group fields hooks =>
      simp only
      split
      · exact .inr rfl
      · exact .inl rfl
    | direct | other => exact .inl rfl
  | codex =>
    rw [keep_codex]
    cases hkind : kindOf codex.owns entry with
    | group fields hooks =>
      obtain ⟨rfl, hlookup⟩ := kindOf_eq_group hkind
      cases hfilter : hooks.filter (!isOwnedHook codex.owns ·) with
      | nil =>
        simp only [hfilter]
        exact .inr rfl
      | cons hook rest =>
        left
        simp only [hfilter, Option.bind_some]
        rw [theirs_put (not_owned_of_filter hfilter), theirEntry, hkind]
        simp only [hfilter]
        split
        · rfl
        · rename_i hany
          rw [Bool.not_eq_true] at hany
          rw [← hfilter, filter_theirs hany, Fields.put_eq_self hlookup]
    | direct => exact .inr rfl
    | other => exact .inl rfl

/-- Of what is fine nothing of theirs is lost and nothing of ours is kept, and of nothing else. -/
theorem fine_iff (p : Provider) (entry : Raw) : p.Fine entry ↔
    (p.keepEntry entry).bind (theirEntry p.owns) = theirEntry p.owns entry ∧
      ∀ kept, p.keepEntry entry = some kept → commandsOf p.owns kept = [] := by
  cases p with
  | cc =>
    unfold Fine
    rw [keep_cc]
    cases hkind : kindOf cc.owns entry with
    | group fields hooks =>
      simp only
      cases hany : hooks.any (isOwnedHook cc.owns) with
      | false =>
        have hnone : ∀ hook ∈ hooks, isOwnedHook cc.owns hook = false := fun hook hhook => by
          simpa using List.any_eq_false.1 hany hook hhook
        refine iff_of_true (.inr hnone) ⟨rfl, ?_⟩
        rintro _ ⟨⟩
        rw [commandsOf, hkind]
        exact List.filterMap_eq_nil_iff.2 fun hook hhook => ourCommand_eq_none (hnone hook hhook)
      | true =>
        obtain ⟨hook, hhook, howned⟩ := List.any_eq_true.1 hany
        simp only [if_true, Option.bind_none, reduceCtorEq, false_implies, implies_true, and_true]
        rw [theirEntry, hkind]
        simp only [hany, if_true]
        constructor
        · rintro (hall | hnone)
          · rw [List.filter_eq_nil_iff.2 fun hook hhook => by simp [hall hook hhook]]
          · rw [hnone hook hhook] at howned
            cases howned
        · intro hlost
          cases hfilter : hooks.filter (!isOwnedHook cc.owns ·) with
          | nil => exact .inl fun hook hhook => by simpa using List.filter_eq_nil_iff.1 hfilter hook hhook
          | cons first rest =>
            rw [hfilter] at hlost
            cases hlost
    | direct =>
      refine iff_of_false id fun hkept => ?_
      have hcommands := hkept.2 entry rfl
      rw [commandsOf, hkind] at hcommands
      have hsome := ourCommand_isSome cc.owns entry
      rw [kindOf_eq_direct hkind, Option.isSome_iff_exists] at hsome
      obtain ⟨cmd, hcmd⟩ := hsome
      simp only [hcmd] at hcommands
      cases hcommands
    | other =>
      refine iff_of_true trivial ⟨rfl, ?_⟩
      rintro _ ⟨⟩
      rw [commandsOf, hkind]
  | codex =>
    unfold Fine
    rw [keep_codex]
    cases hkind : kindOf codex.owns entry with
    | group fields hooks =>
      obtain ⟨rfl, hlookup⟩ := kindOf_eq_group hkind
      simp only
      cases hfilter : hooks.filter (!isOwnedHook codex.owns ·) with
      | nil =>
        simp only [Option.bind_none, reduceCtorEq, false_implies, implies_true, and_true]
        rw [theirEntry, hkind]
        simp only [hfilter]
        cases hooks with
        | nil => simp
        | cons hook rest =>
          have howned : isOwnedHook codex.owns hook = true := by
            simpa using List.filter_eq_nil_iff.1 hfilter hook List.mem_cons_self
          simp [howned]
      | cons hook rest =>
        have hne : hooks ≠ [] := by
          rintro rfl
          cases hfilter
        have hnone := not_owned_of_filter hfilter
        refine iff_of_true hne ⟨?_, ?_⟩
        · have hbind := bind_theirs codex (.obj fields)
          rw [keep_codex, hkind] at hbind
          simp only [hfilter, Option.bind_some, theirs_put hnone, reduceCtorEq, or_false] at hbind
          simp only [Option.bind_some, theirs_put hnone]
          exact hbind
        · rintro _ ⟨⟩
          rw [commandsOf, kindOf_put]
          exact List.filterMap_eq_nil_iff.2 fun hook hhook => ourCommand_eq_none (hnone hook hhook)
    | direct =>
      refine iff_of_true trivial ⟨?_, nofun⟩
      rw [theirEntry, hkind]
      rfl
    | other =>
      refine iff_of_true trivial ⟨rfl, ?_⟩
      rintro _ ⟨⟩
      rw [commandsOf, hkind]

/-- What is kept once is kept. -/
theorem keepEntry_idem (h : p.keepEntry entry = some kept) : p.keepEntry kept = some kept := by
  cases p with
  | cc =>
    have hkept : entry = kept := by
      change (if entryIsPdxCCKnownEvent ccOwnedCleanupEventNames entry then none else some entry) = some kept at h
      split at h
      · cases h
      · exact Option.some.inj h
    rw [← hkept] at h ⊢
    exact h
  | codex =>
    have hentry := h
    rw [keep_codex] at h
    cases hkind : kindOf codex.owns entry with
    | group fields hooks =>
      rw [hkind] at h
      simp only at h
      split at h
      · cases h
      · rename_i theirs hne
        cases h
        rw [keep_codex, kindOf_put]
        simp only [List.filter_filter, Bool.and_self, Fields.put_put]
    | direct =>
      rw [hkind] at h
      cases h
    | other =>
      rw [hkind] at h
      cases h
      exact hentry

theorem filterOut_idem (p : Provider) (entries : List Raw) : p.filterOut (p.filterOut entries) = p.filterOut entries := by
  rw [filterOut_eq, filterOut_eq, List.filterMap_filterMap]
  refine List.filterMap_congr fun entry _ => ?_
  cases hkept : p.keepEntry entry with
  | none => rfl
  | some kept => exact keepEntry_idem hkept

end Provider

/-! ## Numbers within entries -/

section Settle

variable {numbers : Numbers} {owns : String → Bool}

def Kind.settle (numbers : Numbers) : Kind → Kind
  | .group fields hooks => .group (numbers.settleFields fields) (hooks.map numbers.settle)
  | .direct => .direct
  | .other => .other

theorem settle_obj (numbers : Numbers) (fields : List (String × Raw)) : numbers.settle (.obj fields) = .obj (numbers.settleFields fields) :=
  Raw.mapNumbers_obj fields

theorem settle_arr (numbers : Numbers) (items : List Raw) : numbers.settle (.arr items) = .arr (items.map numbers.settle) :=
  Raw.mapNumbers_arr items

theorem lookup_settle (numbers : Numbers) (fields : List (String × Raw)) (k : String) :
    (numbers.settleFields fields).lookup k = (fields.lookup k).map numbers.settle := Fields.lookup_map _ fields k

theorem settle_put (numbers : Numbers) (k : String) (a : Raw) (fields : List (String × Raw)) :
    numbers.settleFields (Fields.put k a fields) = Fields.put k (numbers.settle a) (numbers.settleFields fields) :=
  Fields.put_map numbers.settle k a fields

theorem ourCommand_settle (hook : Raw) : ourCommand owns (numbers.settle hook) = ourCommand owns hook := by
  cases hook with
  | obj fields =>
    rw [settle_obj]
    simp only [ourCommand, lookup_settle]
    cases fields.lookup "command" with
    | none => rfl
    | some cmd =>
      cases cmd with
      | arr items =>
        rw [Option.map_some, settle_arr]
      | obj fields => rw [Option.map_some, settle_obj]
      | _ => rfl
  | arr items => rw [settle_arr]; rfl
  | _ => rfl

theorem isOwnedHook_settle (hook : Raw) : isOwnedHook owns (numbers.settle hook) = isOwnedHook owns hook := by
  rw [← ourCommand_isSome, ← ourCommand_isSome, ourCommand_settle]

theorem kindOf_settle (entry : Raw) : kindOf owns (numbers.settle entry) = (kindOf owns entry).settle numbers := by
  cases entry with
  | obj fields =>
    have howned := @isOwnedHook_settle numbers owns (.obj fields)
    rw [settle_obj] at howned ⊢
    rcases Option.eq_none_or_eq_some (fields.lookup "hooks") with hnone | ⟨hooks, hsome⟩
    · simp only [kindOf, lookup_settle, hnone, Option.map_none, Option.isSome_map, howned]
      split <;> rfl
    · simp only [kindOf, lookup_settle, hsome, Option.map_some]
      cases hooks with
      | arr items =>
        rw [settle_arr]
        rfl
      | obj fields =>
        rw [settle_obj]
        rfl
      | _ => rfl
  | arr items => rw [settle_arr]; rfl
  | _ => rfl

theorem any_settle (hooks : List Raw) : (hooks.map numbers.settle).any (isOwnedHook owns) = hooks.any (isOwnedHook owns) := by
  rw [List.any_map]
  congr 1
  funext hook
  exact isOwnedHook_settle hook

theorem filter_settle (hooks : List Raw) : (hooks.map numbers.settle).filter (!isOwnedHook owns ·) =
    (hooks.filter (!isOwnedHook owns ·)).map numbers.settle := by
  rw [List.filter_map]
  congr 2
  funext hook
  exact congrArg Bool.not (isOwnedHook_settle hook)

theorem theirs_settle (entry : Raw) : theirEntry owns (numbers.settle entry) = (theirEntry owns entry).map numbers.settle := by
  unfold theirEntry
  rw [kindOf_settle]
  cases kindOf owns entry with
  | group fields hooks =>
    simp only [Kind.settle, any_settle, filter_settle]
    split
    · cases hooks.filter (!isOwnedHook owns ·) with
      | nil => rfl
      | cons hook rest => simp only [List.map_cons, Option.map_some, settle_obj, settle_put, settle_arr]
    · rfl
  | direct | other => rfl

theorem keep_settle (p : Provider) (entry : Raw) : p.keepEntry (numbers.settle entry) = (p.keepEntry entry).map numbers.settle := by
  cases p with
  | cc =>
    rw [Provider.keep_cc, Provider.keep_cc, kindOf_settle]
    cases kindOf Provider.cc.owns entry with
    | group fields hooks =>
      simp only [Kind.settle, any_settle]
      split <;> rfl
    | direct | other => rfl
  | codex =>
    rw [Provider.keep_codex, Provider.keep_codex, kindOf_settle]
    cases kindOf Provider.codex.owns entry with
    | group fields hooks =>
      simp only [Kind.settle, filter_settle]
      cases hooks.filter (!isOwnedHook Provider.codex.owns ·) with
      | nil => rfl
      | cons hook rest => simp only [List.map_cons, Option.map_some, settle_obj, settle_put, settle_arr]
    | direct | other => rfl

theorem commandsOf_settle (entry : Raw) : commandsOf owns (numbers.settle entry) = commandsOf owns entry := by
  unfold commandsOf
  rw [kindOf_settle, ourCommand_settle]
  cases kindOf owns entry with
  | group fields hooks =>
    simp only [Kind.settle]
    rw [List.filterMap_map]
    exact List.filterMap_congr fun hook _ => ourCommand_settle hook
  | direct | other => rfl

theorem filterOut_settle (p : Provider) (entries : List Raw) :
    p.filterOut (entries.map numbers.settle) = (p.filterOut entries).map numbers.settle := by
  rw [Provider.filterOut_eq, Provider.filterOut_eq, List.filterMap_map, List.map_filterMap]
  exact List.filterMap_congr fun entry _ => keep_settle p entry

end Settle

/-! ## The entry that is installed -/

section Own

variable {p : Provider} {spec : HookEventSpec} {pdxPath : String}

theorem hookCommand_words : ∀ p : Provider, ∀ spec ∈ p.installable,
    tokenizeCommand ("hook --agent " ++ p.agent ++ " " ++ spec.purdexName) = ["hook", "--agent", p.agent, spec.purdexName] := by
  intro p spec hspec
  have hagent : plain p.agent = true := by cases p <;> decide
  have hname : ∀ p : Provider, ∀ spec ∈ p.installable, plain spec.purdexName = true := by
    intro p
    cases p <;> decide
  have hsplit : "hook --agent " ++ p.agent ++ " " ++ spec.purdexName = "hook" ++ " " ++ ("--agent" ++ " " ++ (p.agent ++ " " ++ spec.purdexName)) := by
    rw [← String.append_assoc, ← String.append_assoc]
    rfl
  rw [hsplit, tokenize_plain (by decide), tokenize_plain (by decide), tokenize_plain hagent, tokenize_last (hname p spec hspec)]

theorem owns_hookCommand (hbase : base pdxPath = "pdx") (hquote : '"' ∉ pdxPath.toList) (hspec : spec ∈ p.installable) :
    p.owns (hookCommand pdxPath p.agent spec.purdexName) = true := by
  have hwords := hookCommand_words p spec hspec
  cases p with
  | cc => exact isPdxCommand_hookCommand hbase hquote (mem_ownedCleanupEventNames hspec) hwords
  | codex => exact isPdxCommand_hookCommand hbase hquote (mem_ownedCleanupEventNames hspec) hwords

/-- The entry that is installed is a group with one hook, and that is ours. -/
theorem makeEntry_kind (hbase : base pdxPath = "pdx") (hquote : '"' ∉ pdxPath.toList) (hspec : spec ∈ p.installable) :
    ∃ fields hook, kindOf p.owns (p.makeEntry pdxPath spec) = .group fields [hook] ∧
      ourCommand p.owns hook = some (hookCommand pdxPath p.agent spec.purdexName) := by
  have howns := owns_hookCommand hbase hquote hspec
  cases p with
  | cc =>
    refine ⟨_, _, rfl, ?_⟩
    change (if Provider.cc.owns _ then some _ else none) = _
    exact if_pos howns
  | codex =>
    refine ⟨_, _, rfl, ?_⟩
    change (if Provider.codex.owns _ then some _ else none) = _
    exact if_pos howns

theorem commandsOf_makeEntry (hbase : base pdxPath = "pdx") (hquote : '"' ∉ pdxPath.toList) (hspec : spec ∈ p.installable) :
    commandsOf p.owns (p.makeEntry pdxPath spec) = [hookCommand pdxPath p.agent spec.purdexName] := by
  obtain ⟨fields, hook, hkind, hcommand⟩ := makeEntry_kind hbase hquote hspec
  rw [commandsOf, hkind]
  simp only [List.filterMap_cons, hcommand, List.filterMap_nil]

theorem makeEntry_lost (hbase : base pdxPath = "pdx") (hquote : '"' ∉ pdxPath.toList) (hspec : spec ∈ p.installable) :
    p.keepEntry (p.makeEntry pdxPath spec) = none ∧ theirEntry p.owns (p.makeEntry pdxPath spec) = none := by
  obtain ⟨fields, hook, hkind, hcommand⟩ := makeEntry_kind hbase hquote hspec
  have howned : isOwnedHook p.owns hook = true := by rw [← ourCommand_isSome, hcommand]; rfl
  refine ⟨?_, by simp [theirEntry, hkind, howned]⟩
  cases p with
  | cc =>
    rw [Provider.keep_cc, hkind]
    simp [howned]
  | codex =>
    rw [Provider.keep_codex, hkind]
    simp [howned]

theorem makeEntry_numbers (p : Provider) (numbers : Numbers) (pdxPath : String) (spec : HookEventSpec) :
    numbers.readable (p.makeEntry pdxPath spec) = true ∧ numbers.settle (p.makeEntry pdxPath spec) = p.makeEntry pdxPath spec := by
  obtain ⟨hfits, hround⟩ := numbers.small 5 (by decide)
  cases p with
  | cc => exact ⟨rfl, rfl⟩
  | codex =>
    refine ⟨?_, ?_⟩
    · have h : (numbers.fits 5 : Bool) = true := by simpa using hfits
      simp [Numbers.readable, Provider.makeEntry, makeCodexEntry, Raw.allNumbers, Raw.allNumbersFields, Raw.allNumbersItems, h]
    · have h : numbers.round 5 = 5 := by simpa using hround
      simp [Numbers.settle, Provider.makeEntry, makeCodexEntry, Raw.mapNumbers, Raw.mapNumbersFields, Raw.mapNumbersItems, h]

end Own

end Purdex.Hooks
