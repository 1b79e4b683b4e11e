/-
The status line of the settings: our proxy, alone or around the command that was there, what mode that is, and for which settings a
command that is wrapped and unwrapped again leaves them as they were.
-/
import Purdex.Hooks.Harmless
import Purdex.Runtime.Daemon
import Purdex.Text.Shell

namespace Purdex.Hooks

open Json
open Purdex.Runtime (trimSpace trimSpace_ne)

/-! ## Modes -/

inductive StatuslineMode
  | none
  | pdx
  | wrapped
  | unmanaged
  deriving Repr, DecidableEq

structure StatuslineState where
  mode : StatuslineMode
  installed : Bool
  inner : String
  rawCommand : String
  deriving Repr, DecidableEq

inductive StatuslineFailure
  | parse
  | unmanaged
  deriving Repr, DecidableEq

/-- The mode of a command, and the one within. `shell` splits it into words. -/
def statuslineMode (shell : String → Option (List String)) (cmd : String) : StatuslineMode × String :=
  match shell cmd with
  | some (first :: second :: rest) =>
    if base first ≠ "pdx" ∧ base first ≠ "pdx.exe" then (.unmanaged, cmd)
    else if second ≠ "statusline-proxy" then (.unmanaged, cmd)
    else
      match rest with
      | [] => (.pdx, "")
      | flag :: inner :: _ => if flag = "--inner" then (.wrapped, inner) else (.unmanaged, cmd)
      | _ => (.unmanaged, cmd)
  | _ => (.unmanaged, cmd)

/-- The command of a status line that is an object with one. -/
def statuslineCommand (settings : List (String × Raw)) : Option String :=
  match settings.lookup "statusLine" with
  | some (.obj statusLine) =>
    match statusLine.lookup "command" with
    | some (.str cmd) => if trimSpace cmd = "" then none else some cmd
    | _ => none
  | _ => none

def statuslineState (shell : String → Option (List String)) (settings : List (String × Raw)) : StatuslineState :=
  match statuslineCommand settings with
  | none => ⟨.none, false, "", ""⟩
  | some cmd => ⟨(statuslineMode shell cmd).1, true, (statuslineMode shell cmd).2, cmd⟩

/-- The settings of a file. `null` makes them a nil map. -/
def loadSettings (numbers : Numbers) : Option Raw → Except StatuslineFailure (Option (List (String × Raw)))
  | none => .ok (some [])
  | some a =>
    if numbers.readable a then
      match a with
      | .null => .ok none
      | .obj fields => .ok (some (numbers.settleFields fields))
      | _ => .error .parse
    else .error .parse

def detectStatuslineMode (shell : String → Option (List String)) (numbers : Numbers) (file : Option Raw) : Except StatuslineFailure StatuslineState := do
  let settings ← loadSettings numbers file
  return statuslineState shell (settings.getD [])

/-! ## Installing and removing -/

def shellSingleQuote : String → String := Shell.quote

/-- `aborted` is a write to a map that is nil. -/
inductive Edited
  | failed (reason : StatuslineFailure)
  | aborted
  | unchanged
  | written (settings : List (String × Raw))
  deriving DecidableEq

def Edited.after (file : Option Raw) : Edited → Option Raw
  | .written settings => some (.obj settings)
  | _ => file

/-- What is put for the status line: an object with the command and no more. -/
def commandLine (cmd : String) : Raw := .obj [("type", .str "command"), ("command", .str cmd)]

def writeStatusline (numbers : Numbers) (cmd : String) (file : Option Raw) : Edited :=
  match loadSettings numbers file with
  | .error reason => .failed reason
  | .ok none => .aborted
  | .ok (some settings) => .written (Fields.put "statusLine" (commandLine cmd) settings)

def pdxCommand (pdxPath : String) : String := shellSingleQuote pdxPath ++ " statusline-proxy"

def wrapCommand (pdxPath inner : String) : String := shellSingleQuote pdxPath ++ " statusline-proxy --inner " ++ shellSingleQuote inner

def installStatuslinePdx (numbers : Numbers) (pdxPath : String) : Option Raw → Edited := writeStatusline numbers (pdxCommand pdxPath)

def installStatuslineWrap (numbers : Numbers) (pdxPath inner : String) : Option Raw → Edited :=
  writeStatusline numbers (wrapCommand pdxPath inner)

/-- The status line with the command within for its command. -/
def unwrapped (inner : String) : Option Raw → Raw
  | some (.obj statusLine) => .obj (Fields.put "command" (.str inner) statusLine)
  | _ => .obj (Fields.put "command" (.str inner) [("type", .str "command")])

def removeStatusline (shell : String → Option (List String)) (numbers : Numbers) (file : Option Raw) : Edited :=
  match detectStatuslineMode shell numbers file with
  | .error reason => .failed reason
  | .ok state =>
    match loadSettings numbers file with
    | .error reason => .failed reason
    | .ok settings =>
      match state.mode with
      | .none => .unchanged
      | .unmanaged => .failed .unmanaged
      | .pdx => .written ((settings.getD []).filter (·.1 ≠ "statusLine"))
      | .wrapped =>
        match settings with
        | none => .aborted
        | some settings => .written (Fields.put "statusLine" (unwrapped state.inner (settings.lookup "statusLine")) settings)

inductive StatuslineOp
  | pdx
  | wrap (inner : String)
  | remove
  deriving Repr, DecidableEq

def StatuslineOp.run (shell : String → Option (List String)) (numbers : Numbers) (pdxPath : String) : StatuslineOp → Option Raw → Edited
  | pdx => installStatuslinePdx numbers pdxPath
  | wrap inner => installStatuslineWrap numbers pdxPath inner
  | remove => removeStatusline shell numbers

/-! ## What is promised -/

/-- Of a file with these settings. -/
structure Reversible (shell : String → Option (List String)) (numbers : Numbers) (pdxPath : String) (file : Option Raw)
    (fields : List (String × Raw)) : Prop where
  wraps : ∀ inner, ∃ settings raw, installStatuslineWrap numbers pdxPath inner file = .written settings ∧
    detectStatuslineMode shell numbers (some (.obj settings)) = .ok ⟨.wrapped, true, inner, raw⟩
  pdx : ∃ settings raw, installStatuslinePdx numbers pdxPath file = .written settings ∧
    detectStatuslineMode shell numbers (some (.obj settings)) = .ok ⟨.pdx, true, "", raw⟩
  restores : ∀ state, detectStatuslineMode shell numbers file = .ok state → state.mode = .unmanaged →
    ∃ settings restored, installStatuslineWrap numbers pdxPath state.inner file = .written settings ∧
      removeStatusline shell numbers (some (.obj settings)) = .written restored ∧ (Raw.obj restored).deepEqual (.obj fields)
  refuses : ∀ state, detectStatuslineMode shell numbers file = .ok state → state.mode = .unmanaged →
    ∃ reason, removeStatusline shell numbers file = .failed reason
  others : ∀ op settings, StatuslineOp.run shell numbers pdxPath op file = .written settings →
    ∀ k, k ≠ "statusLine" → settings.lookup k = fields.lookup k

/-- Its numbers are read and printed as they are but for those of the status line, and a status line that is not ours is a command and no
more. -/
structure Bare (shell : String → Option (List String)) (numbers : Numbers) (fields : List (String × Raw)) : Prop where
  readable : numbers.readable (.obj fields) = true
  settled : ∀ k, k ≠ "statusLine" → ∀ value, fields.lookup k = some value → numbers.settle value = value
  alone : ∀ statusLine cmd, fields.lookup "statusLine" = some (.obj statusLine) → statusLine.lookup "command" = some (.str cmd) →
    trimSpace cmd ≠ "" → (statuslineMode shell cmd).1 = .unmanaged →
      statusLine.lookup "type" = some (.str "command") ∧ ∀ p ∈ statusLine, p.1 = "type" ∨ p.1 = "command"

section Statusline

variable {shell : String → Option (List String)} {numbers : Numbers} {pdxPath cmd inner : String} {file : Option Raw}
  {fields settings : List (String × Raw)}

/-! ## Commands -/

theorem words_pdxCommand (pdxPath : String) : Shell.words (pdxCommand pdxPath) = some [pdxPath, "statusline-proxy"] := by
  have hlist : (pdxCommand pdxPath).toList = (Shell.quote pdxPath).toList ++ ' ' :: "statusline-proxy".toList := by
    simp [pdxCommand, shellSingleQuote, String.toList_append]
  rw [Shell.words, hlist, Shell.scan_cons (Shell.reads_quote pdxPath),
    Shell.scan_last (Shell.reads_plain (by decide) (by decide))]
  rfl

theorem words_wrapCommand (pdxPath inner : String) :
    Shell.words (wrapCommand pdxPath inner) = some [pdxPath, "statusline-proxy", "--inner", inner] := by
  have hlist : (wrapCommand pdxPath inner).toList = (Shell.quote pdxPath).toList ++ ' ' :: ("statusline-proxy".toList ++ ' ' ::
      ("--inner".toList ++ ' ' :: (Shell.quote inner).toList)) := by
    simp [wrapCommand, shellSingleQuote, String.toList_append]
  rw [Shell.words, hlist, Shell.scan_cons (Shell.reads_quote pdxPath), Shell.scan_cons (Shell.reads_plain (by decide) (by decide)),
    Shell.scan_cons (Shell.reads_plain (by decide) (by decide)), Shell.scan_last (Shell.reads_quote inner)]
  rfl

/-- What begins with a quote is not blank. -/
theorem quoted_not_blank (s rest : String) : trimSpace (shellSingleQuote s ++ rest) ≠ "" := by
  refine trimSpace_ne (c := '\'') ?_ (by decide)
  simp [shellSingleQuote, Shell.quote, String.toList_append]

/-! ## Reading and writing -/

theorem loadSettings_fields (hread : numbers.readable (.obj fields) = true) (hfields : fieldsOf file = some fields) :
    loadSettings numbers file = .ok (some (numbers.settleFields fields)) := by
  cases file with
  | none =>
    obtain rfl := Option.some.inj hfields
    rfl
  | some a =>
    cases a with
    | obj fields' =>
      obtain rfl := Option.some.inj hfields
      rw [loadSettings, if_pos hread]
    | _ => cases hfields

theorem loadSettings_unread (hread : numbers.readable (.obj fields) = false) (hfields : fieldsOf file = some fields) :
    loadSettings numbers file = .error .parse := by
  cases file with
  | none =>
    obtain rfl := Option.some.inj hfields
    cases hread
  | some a =>
    cases a with
    | obj fields' =>
      obtain rfl := Option.some.inj hfields
      rw [loadSettings, if_neg (by rw [hread]; exact Bool.false_ne_true)]
    | _ => cases hfields

theorem statuslineCommand_settle (fields : List (String × Raw)) : statuslineCommand (numbers.settleFields fields) = statuslineCommand fields := by
  unfold statuslineCommand
  rw [lookup_settle]
  cases fields.lookup "statusLine" with
  | none => rfl
  | some a =>
    cases a with
    | obj statusLine =>
      rw [Option.map_some, settle_obj]
      simp only [lookup_settle]
      cases statusLine.lookup "command" with
      | none => rfl
      | some b =>
        cases b with
        | arr items => rw [Option.map_some, settle_arr]
        | obj inner => rw [Option.map_some, settle_obj]
        | _ => rfl
    | arr items => rw [Option.map_some, settle_arr]
    | _ => rfl

theorem detect_fields (hread : numbers.readable (.obj fields) = true) (hfields : fieldsOf file = some fields) :
    detectStatuslineMode shell numbers file = .ok (statuslineState shell fields) := by
  rw [detectStatuslineMode, loadSettings_fields hread hfields]
  change Except.ok (statuslineState shell (numbers.settleFields fields)) = _
  rw [statuslineState, statuslineCommand_settle, ← statuslineState]

theorem writeStatusline_fields (hread : numbers.readable (.obj fields) = true) (hfields : fieldsOf file = some fields) (cmd : String) :
    writeStatusline numbers cmd file = .written (Fields.put "statusLine" (commandLine cmd) (numbers.settleFields fields)) := by
  rw [writeStatusline, loadSettings_fields hread hfields]

theorem settle_commandLine (cmd : String) : numbers.settle (commandLine cmd) = commandLine cmd := by
  rw [commandLine, settle_obj]
  rfl

/-- What was written is read as it is. -/
theorem written_read (hread : numbers.readable (.obj fields) = true) (cmd : String) :
    numbers.readable (.obj (Fields.put "statusLine" (commandLine cmd) (numbers.settleFields fields))) = true ∧
      numbers.settleFields (Fields.put "statusLine" (commandLine cmd) (numbers.settleFields fields)) =
        Fields.put "statusLine" (commandLine cmd) (numbers.settleFields fields) := by
  obtain ⟨hsettled, hreads⟩ := settleFields_idem hread
  refine ⟨readable_put hreads rfl, ?_⟩
  rw [settle_put, settle_commandLine, hsettled]

theorem detect_written (hread : numbers.readable (.obj fields) = true) (hblank : trimSpace cmd ≠ "") :
    detectStatuslineMode shell numbers (some (.obj (Fields.put "statusLine" (commandLine cmd) (numbers.settleFields fields)))) =
      .ok ⟨(statuslineMode shell cmd).1, true, (statuslineMode shell cmd).2, cmd⟩ := by
  rw [detect_fields (written_read hread cmd).1 rfl]
  have hcommand : statuslineCommand (Fields.put "statusLine" (commandLine cmd) (numbers.settleFields fields)) = some cmd := by
    rw [statuslineCommand, Fields.lookup_put, if_pos rfl]
    exact if_neg hblank
  rw [statuslineState, hcommand]

/-! ## Modes of what was written -/

section Posix

variable (hposix : ∀ line ws, Shell.words line = some ws → shell line = some ws) (hbase : base pdxPath = "pdx")
include hposix hbase

theorem statuslineMode_pdx : statuslineMode shell (pdxCommand pdxPath) = (.pdx, "") := by
  rw [statuslineMode, hposix _ _ (words_pdxCommand pdxPath)]
  exact (if_neg fun h => h.1 hbase).trans (if_neg fun h => h rfl)

theorem statuslineMode_wrap (inner : String) : statuslineMode shell (wrapCommand pdxPath inner) = (.wrapped, inner) := by
  rw [statuslineMode, hposix _ _ (words_wrapCommand pdxPath inner)]
  exact ((if_neg fun h => h.1 hbase).trans (if_neg fun h => h rfl)).trans (if_pos rfl)

theorem detect_wrapped (hread : numbers.readable (.obj fields) = true) (inner : String) :
    detectStatuslineMode shell numbers
      (some (.obj (Fields.put "statusLine" (commandLine (wrapCommand pdxPath inner)) (numbers.settleFields fields)))) =
        .ok ⟨.wrapped, true, inner, wrapCommand pdxPath inner⟩ := by
  have hblank : trimSpace (wrapCommand pdxPath inner) ≠ "" := by
    rw [wrapCommand, String.append_assoc]
    exact quoted_not_blank _ _
  rw [detect_written hread hblank, statuslineMode_wrap hposix hbase]

/-- What a remove makes of a command that was wrapped. -/
theorem remove_wrapped (hread : numbers.readable (.obj fields) = true) (inner : String) :
    removeStatusline shell numbers
      (some (.obj (Fields.put "statusLine" (commandLine (wrapCommand pdxPath inner)) (numbers.settleFields fields)))) =
        .written (Fields.put "statusLine" (commandLine inner) (numbers.settleFields fields)) := by
  obtain ⟨hreads, hsettled⟩ := written_read hread (wrapCommand pdxPath inner)
  rw [removeStatusline, detect_wrapped hposix hbase hread, loadSettings_fields hreads rfl, hsettled]
  change Edited.written (Fields.put "statusLine" (unwrapped inner _) _) = _
  rw [Fields.lookup_put, if_pos rfl, Fields.put_put]
  rfl

end Posix

/-! ## Other settings -/

/-- Whatever an operation writes, it has the other settings as they were read. -/
theorem run_others {op : StatuslineOp} (hread : numbers.readable (.obj fields) = true) (hfields : fieldsOf file = some fields)
    (h : op.run shell numbers pdxPath file = .written settings) {k : String} (hk : k ≠ "statusLine") :
    settings.lookup k = (fields.lookup k).map numbers.settle := by
  have hput : ∀ value, (Fields.put "statusLine" value (numbers.settleFields fields)).lookup k = (fields.lookup k).map numbers.settle := by
    intro value
    rw [Fields.lookup_put, if_neg (Ne.symm hk), lookup_settle]
  cases op with
  | pdx =>
    obtain rfl := Edited.written.inj ((writeStatusline_fields hread hfields _).symm.trans h)
    exact hput _
  | wrap inner =>
    obtain rfl := Edited.written.inj ((writeStatusline_fields hread hfields _).symm.trans h)
    exact hput _
  | remove =>
    change removeStatusline shell numbers file = _ at h
    rw [removeStatusline, detect_fields hread hfields, loadSettings_fields hread hfields] at h
    cases hmode : (statuslineState shell fields).mode with
    | none => simp only [hmode, reduceCtorEq] at h
    | unmanaged => simp only [hmode, reduceCtorEq] at h
    | pdx =>
      simp only [hmode, Option.getD_some] at h
      rw [← Edited.written.inj h, Fields.lookup_filter_ne hk, lookup_settle]
    | wrapped =>
      simp only [hmode] at h
      rw [← Edited.written.inj h]
      exact hput _

theorem others_iff (hread : numbers.readable (.obj fields) = true) (hfields : fieldsOf file = some fields) :
    (∀ op settings, StatuslineOp.run shell numbers pdxPath op file = .written settings →
      ∀ k, k ≠ "statusLine" → settings.lookup k = fields.lookup k) ↔
    ∀ k, k ≠ "statusLine" → ∀ value, fields.lookup k = some value → numbers.settle value = value := by
  constructor
  · intro h k hk value hvalue
    have hpdx : StatuslineOp.run shell numbers pdxPath .pdx file = .written _ := writeStatusline_fields hread hfields _
    have hsame := (run_others hread hfields hpdx hk).symm.trans (h _ _ hpdx k hk)
    rw [hvalue] at hsame
    exact Option.some.inj hsame
  · intro h op settings hrun k hk
    rw [run_others hread hfields hrun hk]
    cases hvalue : fields.lookup k with
    | none => rfl
    | some value => exact congrArg some (h k hk value hvalue)

/-! ## Back again -/

/-- Where the other settings are settled, a status line is put among them as they are. -/
theorem put_settled (hnodup : (fields.map Prod.fst).Nodup)
    (h : ∀ k, k ≠ "statusLine" → ∀ value, fields.lookup k = some value → numbers.settle value = value) (value : Raw) :
    Fields.put "statusLine" value (numbers.settleFields fields) = Fields.put "statusLine" value fields := by
  have hrow : ∀ p ∈ fields, p.1 ≠ "statusLine" → (p.1, numbers.settle p.2) = p := fun p hp hk =>
    Prod.ext rfl (h p.1 hk p.2 ((lookup_eq_some hnodup).2 hp))
  clear h
  induction fields with
  | nil => rfl
  | cons p fields ih =>
    obtain ⟨hp, hnodup⟩ := List.nodup_cons.1 hnodup
    change Fields.put "statusLine" value ((p.1, numbers.settle p.2) :: numbers.settleFields fields) = _
    rw [Fields.put, Fields.put]
    by_cases hk : p.1 = "statusLine"
    · have hrest : numbers.settleFields fields = fields := by
        refine List.map_congr_left (fun q hq => hrow q (List.mem_cons_of_mem _ hq) fun hq' => hp ?_) |>.trans (List.map_id _)
        exact List.mem_map.2 ⟨q, hq, hq'.trans hk.symm⟩
      rw [if_pos hk, if_pos hk, hrest]
    · rw [if_neg hk, if_neg hk, hrow p List.mem_cons_self hk, ih hnodup fun q hq => hrow q (List.mem_cons_of_mem _ hq)]

/-- An object with this command and no more. -/
theorem commandLine_deepEqual {statusLine : List (String × Raw)} (hnodup : (statusLine.map Prod.fst).Nodup)
    (hcommand : statusLine.lookup "command" = some (.str cmd)) : (commandLine cmd).deepEqual (.obj statusLine) ↔
      statusLine.lookup "type" = some (.str "command") ∧ ∀ p ∈ statusLine, p.1 = "type" ∨ p.1 = "command" := by
  rw [commandLine, Raw.deepEqual_obj]
  have hpair : (["type", "command"] : List String).Nodup := by decide
  constructor
  · rintro ⟨hlen, hall⟩
    obtain ⟨value, hvalue, hequal⟩ := hall _ List.mem_cons_self
    have htype : statusLine.lookup "type" = some (.str "command") := by
      rw [hvalue]
      cases value with
      | str s =>
        rw [Raw.deepEqual, decide_eq_true_eq] at hequal
        rw [hequal]
      | _ => cases hequal
    refine ⟨htype, fun p hp => ?_⟩
    have hkeys : ["type", "command"] ⊆ statusLine.map Prod.fst := by
      intro k hk
      rcases List.mem_pair.1 hk with rfl | rfl
      · exact lookup_isSome.1 (Option.isSome_of_eq_some htype)
      · exact lookup_isSome.1 (Option.isSome_of_eq_some hcommand)
    have hperm := (hpair.subperm hkeys).perm_of_length_le (by rw [List.length_map]; exact hlen.ge)
    exact List.mem_pair.1 (hperm.mem_iff.2 (List.mem_map_of_mem hp))
  · rintro ⟨htype, hkeys⟩
    have hperm : (statusLine.map Prod.fst).Perm ["type", "command"] := by
      refine (List.perm_ext_iff_of_nodup hnodup hpair).2 fun k => ⟨fun hk => ?_, fun hk => ?_⟩
      · obtain ⟨p, hp, rfl⟩ := List.mem_map.1 hk
        exact List.mem_pair.2 (hkeys p hp)
      · rcases List.mem_pair.1 hk with rfl | rfl
        · exact lookup_isSome.1 (Option.isSome_of_eq_some htype)
        · exact lookup_isSome.1 (Option.isSome_of_eq_some hcommand)
    refine ⟨by simpa using hperm.length_eq.symm, ?_⟩
    rintro p hp
    rcases List.mem_pair.1 hp with rfl | rfl
    · exact ⟨_, htype, by simp [Raw.deepEqual]⟩
    · exact ⟨_, hcommand, by simp [Raw.deepEqual]⟩

/-- A setting that is put anew is as good as it was where its value is. -/
theorem put_deepEqual {k : String} {value old : Raw} (hwf : (Raw.obj fields).wf) (hold : fields.lookup k = some old) :
    (Raw.obj (Fields.put k value fields)).deepEqual (.obj fields) ↔ value.deepEqual old := by
  obtain ⟨hnodup, hvalues⟩ := Raw.wf_obj.1 hwf
  have hmem : k ∈ fields.map Prod.fst := lookup_isSome.1 (Option.isSome_of_eq_some hold)
  have hlen : (Fields.put k value fields).length = fields.length := by
    have hkeys := congrArg List.length (Fields.keys_put k value fields)
    rw [if_pos hmem, List.length_map, List.length_map] at hkeys
    exact hkeys
  have hput : (k, value) ∈ Fields.put k value fields := mem_of_lookup (by rw [Fields.lookup_put, if_pos rfl])
  rw [Raw.deepEqual_obj]
  constructor
  · rintro ⟨-, hall⟩
    obtain ⟨b, hb, hequal⟩ := hall _ hput
    rw [hold] at hb
    exact Option.some.inj hb ▸ hequal
  · intro hequal
    refine ⟨hlen, fun p hp => ?_⟩
    rcases Fields.mem_put hp with rfl | hp
    · exact ⟨old, hold, hequal⟩
    · by_cases hk : p.1 = k
      · have hlookup : (Fields.put k value fields).lookup p.1 = some value := by rw [Fields.lookup_put, if_pos hk.symm]
        have hnodup' := Fields.nodup_put hnodup k value
        have hsame : p.2 = value := by
          rw [(lookup_eq_some hnodup').2 (by assumption)] at hlookup
          exact Option.some.inj hlookup
        exact ⟨old, hk ▸ hold, hsame ▸ hequal⟩
      · exact ⟨p.2, (lookup_eq_some hnodup).2 hp, Raw.deepEqual_refl (hvalues p hp)⟩

/-- A command that is not ours is the one that is told to be within. -/
theorem statuslineMode_unmanaged (h : (statuslineMode shell cmd).1 = .unmanaged) : (statuslineMode shell cmd).2 = cmd := by
  have hcases : statuslineMode shell cmd = (.unmanaged, cmd) ∨ (statuslineMode shell cmd).1 ≠ .unmanaged := by
    unfold statuslineMode
    split
    · split
      · exact .inl rfl
      · split
        · exact .inl rfl
        · split
          · exact .inr nofun
          · split
            · exact .inr nofun
            · exact .inl rfl
          · exact .inl rfl
    · exact .inl rfl
  rcases hcases with heq | hne
  · rw [heq]
  · exact absurd h hne

theorem unmanaged_iff {state : StatuslineState} : statuslineState shell fields = state ∧ state.mode = .unmanaged ↔
    ∃ statusLine cmd, fields.lookup "statusLine" = some (.obj statusLine) ∧ statusLine.lookup "command" = some (.str cmd) ∧
      trimSpace cmd ≠ "" ∧ (statuslineMode shell cmd).1 = .unmanaged ∧ state = ⟨.unmanaged, true, cmd, cmd⟩ := by
  constructor
  · rintro ⟨rfl, hmode⟩
    cases hcommand : statuslineCommand fields with
    | none => simp only [statuslineState, hcommand, reduceCtorEq] at hmode
    | some cmd =>
      have hstate : statuslineState shell fields = ⟨(statuslineMode shell cmd).1, true, (statuslineMode shell cmd).2, cmd⟩ := by
        rw [statuslineState, hcommand]
      rw [hstate] at hmode ⊢
      change (statuslineMode shell cmd).1 = .unmanaged at hmode
      unfold statuslineCommand at hcommand
      split at hcommand
      · rename_i statusLine hline
        split at hcommand
        · rename_i cmd' hcmd
          split at hcommand
          · cases hcommand
          · rename_i hblank
            obtain rfl := Option.some.inj hcommand
            exact ⟨statusLine, cmd', hline, hcmd, hblank, hmode, by rw [hmode, statuslineMode_unmanaged hmode]⟩
        · cases hcommand
      · cases hcommand
  · rintro ⟨statusLine, cmd, hline, hcmd, hblank, hmode, rfl⟩
    refine ⟨?_, rfl⟩
    have hcommand : statuslineCommand fields = some cmd := by
      simp only [statuslineCommand, hline, hcmd, if_neg hblank]
    rw [statuslineState, hcommand]
    simp only [hmode, statuslineMode_unmanaged hmode]

/-- For which commands the status line is as it was, once the command was wrapped and unwrapped again. -/
theorem restored_iff (hwf : (Raw.obj fields).wf) {statusLine : List (String × Raw)} (hline : fields.lookup "statusLine" = some (.obj statusLine))
    (hcmd : statusLine.lookup "command" = some (.str cmd)) : (Raw.obj (Fields.put "statusLine" (commandLine cmd) fields)).deepEqual (.obj fields) ↔
      statusLine.lookup "type" = some (.str "command") ∧ ∀ p ∈ statusLine, p.1 = "type" ∨ p.1 = "command" := by
  have hlineWf := (Raw.wf_obj.1 hwf).2 _ (mem_of_lookup hline)
  rw [put_deepEqual hwf hline, commandLine_deepEqual (Raw.wf_obj.1 hlineWf).1 hcmd]

/-- What is promised holds of exactly the settings that are bare. -/
theorem reversible_iff_bare (shell : String → Option (List String)) (hposix : ∀ line ws, Shell.words line = some ws → shell line = some ws)
    (numbers : Numbers) (hbase : base pdxPath = "pdx") (hfields : fieldsOf file = some fields) (hwf : (Raw.obj fields).wf) :
    Reversible shell numbers pdxPath file fields ↔ Bare shell numbers fields := by
  have hnodup := (Raw.wf_obj.1 hwf).1
  constructor
  · intro h
    have hread : numbers.readable (.obj fields) = true := by
      by_contra hunread
      obtain ⟨settings, _, hwritten, _⟩ := h.pdx
      rw [installStatuslinePdx, writeStatusline, loadSettings_unread (Bool.eq_false_iff.2 hunread) hfields] at hwritten
      cases hwritten
    have hsettled := (others_iff hread hfields).1 h.others
    refine ⟨hread, hsettled, fun statusLine cmd hline hcmd hblank hmode => ?_⟩
    obtain ⟨hstate, hunmanaged⟩ := unmanaged_iff.2 ⟨statusLine, cmd, hline, hcmd, hblank, hmode, rfl⟩
    obtain ⟨settings, restored, hwrap, hremove, hequal⟩ := h.restores _ ((detect_fields hread hfields).trans (congrArg Except.ok hstate)) hunmanaged
    obtain rfl := Edited.written.inj ((writeStatusline_fields hread hfields _).symm.trans hwrap)
    obtain rfl := Edited.written.inj ((remove_wrapped hposix hbase hread _).symm.trans hremove)
    rw [put_settled hnodup hsettled] at hequal
    exact (restored_iff hwf hline hcmd).1 hequal
  · rintro ⟨hread, hsettled, halone⟩
    have hpdx : trimSpace (pdxCommand pdxPath) ≠ "" := quoted_not_blank _ _
    refine ⟨fun inner => ⟨_, _, writeStatusline_fields hread hfields _, detect_wrapped hposix hbase hread inner⟩,
      ⟨_, _, writeStatusline_fields hread hfields _, (detect_written hread hpdx).trans (by rw [statuslineMode_pdx hposix hbase])⟩, ?_, ?_,
      (others_iff hread hfields).2 hsettled⟩
    · intro state hdetect hunmanaged
      rw [detect_fields hread hfields] at hdetect
      obtain ⟨statusLine, cmd, hline, hcmd, hblank, hmode, rfl⟩ := unmanaged_iff.1 ⟨Except.ok.inj hdetect, hunmanaged⟩
      refine ⟨_, _, writeStatusline_fields hread hfields _, remove_wrapped hposix hbase hread cmd, ?_⟩
      rw [put_settled hnodup hsettled]
      exact (restored_iff hwf hline hcmd).2 (halone statusLine cmd hline hcmd hblank hmode)
    · intro state hdetect hunmanaged
      refine ⟨.unmanaged, ?_⟩
      rw [removeStatusline, hdetect, loadSettings_fields hread hfields]
      simp only [hunmanaged]

/-! ## Two status lines -/

/-- The shell that splits a command where quotes alone say how. -/
def bareShell : String → Option (List String) := Shell.words

/-- A status line with a command of its own. -/
def plainLine : List (String × Raw) := [("model", .str "opus"), ("statusLine", commandLine "ccstatusline --format 'a b'")]

/-- The same with a padding. -/
def paddedLine : List (String × Raw) :=
  [("statusLine", .obj [("type", .str "command"), ("command", .str "ccstatusline"), ("padding", .num 0)])]

theorem plainLine_reversible : Reversible bareShell wholeNumbers "/Applications/Purdex Beta/pdx" (some (.obj plainLine)) plainLine := by
  refine (reversible_iff_bare bareShell (fun _ _ h => h) wholeNumbers (by decide) rfl (by decide)).2
    ⟨rfl, fun _ _ value _ => Raw.mapNumbers_id value, ?_⟩
  intro statusLine cmd hline _ _ _
  have heq : plainLine.lookup "statusLine" = some (commandLine "ccstatusline --format 'a b'") := rfl
  obtain rfl := Raw.obj.inj (Option.some.inj (heq.symm.trans hline))
  decide

theorem paddedLine_lost : ¬ ∀ (shell : String → Option (List String)) (numbers : Numbers) (pdxPath : String) (fields : List (String × Raw)),
    (∀ line ws, Shell.words line = some ws → shell line = some ws) → base pdxPath = "pdx" → (Raw.obj fields).wf →
      Reversible shell numbers pdxPath (some (.obj fields)) fields := by
  intro h
  have hreversible := h bareShell wholeNumbers "/usr/local/bin/pdx" paddedLine (fun _ _ h => h) (by decide) (by decide)
  obtain ⟨settings, restored, hwrap, hremove, hequal⟩ := hreversible.restores ⟨.unmanaged, true, "ccstatusline", "ccstatusline"⟩ (by decide) rfl
  have hsettings : installStatuslineWrap wholeNumbers "/usr/local/bin/pdx" "ccstatusline" (some (.obj paddedLine)) =
      .written [("statusLine", commandLine (wrapCommand "/usr/local/bin/pdx" "ccstatusline"))] := by decide
  obtain rfl := Edited.written.inj (hsettings.symm.trans hwrap)
  have hrestored : removeStatusline bareShell wholeNumbers
      (some (.obj [("statusLine", commandLine (wrapCommand "/usr/local/bin/pdx" "ccstatusline"))])) =
        .written [("statusLine", commandLine "ccstatusline")] := by decide
  obtain rfl := Edited.written.inj (hrestored.symm.trans hremove)
  exact absurd hequal (by decide)

end Statusline

end Purdex.Hooks
