/-
The accepted report made again from its row: which of its bytes are those of the report that was queued with the row.
-/
import Purdex.Dispatch.Effects

namespace Purdex.Dispatch

open Conc

/-! ## The payload -/

/-- What is read of a row. An empty session code is none. -/
structure AcceptedRow where
  executionID : String
  dispatchID : String
  repoLocation : String
  repoLocationJSON : String
  provider : String
  attemptNo : Nat
  effectiveSandboxProfile : String
  headAtStart : String
  dirtyAtStart : Bool
  sessionCode : String
  deriving Repr, DecidableEq

def acceptedRowFromExec (e : Execution) : AcceptedRow where
  executionID := e.executionID
  dispatchID := e.dispatchID
  repoLocation := e.repoLocation
  repoLocationJSON := e.repoLocationJSON
  provider := e.provider
  attemptNo := e.attemptNo
  effectiveSandboxProfile := e.sandboxProfile
  headAtStart := e.headAtStart
  dirtyAtStart := e.dirtyAtStart
  sessionCode := e.sessionCode.getD ""

def loadAcceptedRow (db : Tables) (execID : String) : Option AcceptedRow :=
  (db.executions.find? (·.executionID = execID)).map acceptedRowFromExec

/-- How a text is escaped within quotes, and what is printed of raw JSON: nothing of what is no JSON. -/
structure Encoder where
  escape : String → String
  raw : String → Option String

def Encoder.quote (enc : Encoder) (s : String) : String := "\"" ++ enc.escape s ++ "\""

/-- The accepted report as it is printed: the fields of a map in the order of their names. -/
def printAccepted (enc : Encoder) : ReportPayload → Option String
  | .accepted dispatchID executionID attemptNo provider repoLocation effectiveSandboxProfile headAtStart dirtyAtStart sessionCode =>
    let repo := match repoLocation with
      | .object json => enc.raw json
      | .localDir path => some ("\x7b\"local_dir\":" ++ enc.quote path ++ "\x7d")
    let code := match sessionCode with
      | some code => enc.quote code
      | none => "null"
    repo.map fun repo =>
      "\x7b\"attempt_no\":" ++ toString attemptNo ++ ",\"dirty_at_start\":" ++ toString dirtyAtStart ++
        ",\"dispatch_id\":" ++ enc.quote dispatchID ++ ",\"effective_sandbox_profile\":" ++ enc.quote effectiveSandboxProfile ++
        ",\"execution_id\":" ++ enc.quote executionID ++ ",\"head_at_start\":" ++ enc.quote headAtStart ++
        ",\"provider\":" ++ enc.quote provider ++ ",\"repo_location\":" ++ repo ++
        ",\"schema_version\":1,\"seq\":1,\"session_code\":" ++ code ++ ",\"status\":\"accepted\"\x7d"
  | _ => none

def buildAcceptedBytes (enc : Encoder) (row : AcceptedRow) : Option String :=
  printAccepted enc (.accepted row.dispatchID row.executionID (if row.attemptNo = 0 then 1 else row.attemptNo)
    (if row.provider = "" then "claude" else row.provider)
    (if row.repoLocationJSON ≠ "" then .object row.repoLocationJSON else .localDir row.repoLocation)
    row.effectiveSandboxProfile row.headAtStart row.dirtyAtStart (if row.sessionCode ≠ "" then some row.sessionCode else none))

/-- The payload that a reconstruction queues, where there is the row. -/
def reconstructedPayload (enc : Encoder) (db : Tables) (execID : String) : Option String :=
  (loadAcceptedRow db execID).bind (buildAcceptedBytes enc)

section Payload

variable {enc : Encoder} {row row' : AcceptedRow} {payload : String}

/-- The facts of a row that do not come with the launch. -/
def AcceptedRow.immutable (row : AcceptedRow) : AcceptedRow := { row with sessionCode := "" }

theorem quote_ne_null (s : String) : enc.quote s ≠ "null" := by
  intro h
  have hhead := congrArg (fun s => s.toList.head?) h
  simp [Encoder.quote, String.toList_append] at hhead

/-- A code that is printed makes another payload than none. -/
theorem bytes_eq_iff (h : row.immutable = row'.immutable) (hnone : row'.sessionCode = "")
    (hpayload : buildAcceptedBytes enc row' = some payload) : buildAcceptedBytes enc row = some payload ↔ row.sessionCode = "" := by
  obtain ⟨executionID, dispatchID, repoLocation, repoLocationJSON, provider, attemptNo, profile, head, dirty, code⟩ := row
  obtain ⟨_, _, _, _, _, _, _, _, _, _⟩ := row'
  simp only [AcceptedRow.immutable, AcceptedRow.mk.injEq] at h hnone
  obtain ⟨rfl, rfl, rfl, rfl, rfl, rfl, rfl, rfl, rfl, -⟩ := h
  subst hnone
  constructor
  · intro hsame
    by_contra hcode
    have heq := hsame.trans hpayload.symm
    simp only [buildAcceptedBytes, printAccepted, ne_eq, hcode, not_false_eq_true, if_true, not_true_eq_false, if_false] at heq hpayload
    obtain ⟨repo, hrepo, -⟩ := Option.map_eq_some_iff.1 hpayload
    rw [hrepo, Option.map_some, Option.map_some] at heq
    have htext := Option.some.inj heq
    rw [String.append_left_inj, String.append_right_inj] at htext
    exact quote_ne_null _ htext
  · rintro rfl
    exact hpayload

end Payload

/-! ## Runs -/

/-- A call that made the row, and queued its accepted report. -/
def Admits (e : StoreStep) (row : Execution) : Prop :=
  (∃ reply, e.reply = .ok reply) ∧ Fresh e.pre row ∧
    match e.request.op with
    | .upsertByDispatch newID req | .insertRejected newID req _ _ => row = req.row e.request.now newID
    | _ => False

/-- A launch of the execution that was recorded, with its code. -/
def Codes (e : StoreStep) (execID code : String) : Prop := (∃ reply, e.reply = .ok reply) ∧ e.request.op = .markLaunched execID code

/-- Where each row comes from, and its code. -/
structure Traced (db : Tables) (t : List StoreStep) : Prop where
  ids : (db.executions.map (·.executionID)).Nodup
  admitted : ∀ row ∈ db.executions, ∃ e ∈ t, ∃ row₀, Admits e row₀ ∧ row₀.executionID = row.executionID
  kept : ∀ e ∈ t, ∀ row₀, Admits e row₀ → ∃ row ∈ db.executions, (acceptedRowFromExec row).immutable = (acceptedRowFromExec row₀).immutable
  coded : ∀ row ∈ db.executions, ∀ code, row.sessionCode = some code → code ≠ "" ∧ ∃ e ∈ t, Codes e row.executionID code
  launched : ∀ e ∈ t, ∀ execID code, Codes e execID code → ∃ row ∈ db.executions, row.executionID = execID ∧ row.launchState = .launched ∧
    (code ≠ "" → row.sessionCode = some code)

section Runs

variable {db db' : Tables} {t : List StoreStep} {e : StoreStep} {now : Int} {execID : String} {row : Execution}

theorem traced_init (h : NoExecutions db) : Traced db [] := by
  refine ⟨?_, ?_, fun e he => absurd he List.not_mem_nil, ?_, fun e he => absurd he List.not_mem_nil⟩ <;> rw [h.1]
  · exact List.nodup_nil
  · exact fun row hrow => absurd hrow List.not_mem_nil
  · exact fun row hrow => absurd hrow List.not_mem_nil

theorem Admits.uncoded (h : Admits e row) : row.sessionCode = none := by
  obtain ⟨_, _, hrow⟩ := h
  split at hrow
  · exact hrow ▸ rfl
  · exact hrow ▸ rfl
  · exact hrow.elim

theorem immutable_id {row row' : Execution} (h : (acceptedRowFromExec row).immutable = (acceptedRowFromExec row').immutable) :
    row.executionID = row'.executionID := congrArg AcceptedRow.executionID h

theorem uncoded_of_ne (h : ∀ execID code, e.request.op ≠ .markLaunched execID code) : ∀ execID code, ¬Codes e execID code :=
  fun execID code hlaunch => h execID code hlaunch.2

/-- A call that makes no row and records no launch. -/
theorem Traced.quiet (h : Traced db t) (hadmits : ∀ row, ¬Admits e row) (hcodes : ∀ execID code, ¬Codes e execID code) :
    Traced db (e :: t) := by
  refine ⟨h.ids, fun row hrow => ?_, ?_, fun row hrow code hcode => ?_, ?_⟩
  · obtain ⟨e', he', hmade⟩ := h.admitted row hrow
    exact ⟨e', List.mem_cons_of_mem _ he', hmade⟩
  · rintro e' (_ | ⟨_, he'⟩) row₀ hmade
    · exact absurd hmade (hadmits row₀)
    · exact h.kept e' he' row₀ hmade
  · obtain ⟨hne, e', he', hlaunch⟩ := h.coded row hrow code hcode
    exact ⟨hne, e', List.mem_cons_of_mem _ he', hlaunch⟩
  · rintro e' (_ | ⟨_, he'⟩) execID code hlaunch
    · exact absurd hlaunch (hcodes execID code)
    · exact h.launched e' he' execID code hlaunch

/-- A row that is made without a code. -/
theorem Traced.insert {row₀ : Execution} (h : Traced db t) (hids : (db'.executions.map (·.executionID)).Nodup)
    (hrows : db'.executions = db.executions ++ [row]) (hmade : Admits e row₀)
    (hsame : (acceptedRowFromExec row).immutable = (acceptedRowFromExec row₀).immutable) (hnone : row.sessionCode = none)
    (honly : ∀ row', Admits e row' → row' = row₀) (hcodes : ∀ execID code, ¬Codes e execID code) : Traced db' (e :: t) := by
  have hold : ∀ {r}, r ∈ db.executions → r ∈ db'.executions := fun hr => hrows ▸ List.mem_append_left _ hr
  have hnew : row ∈ db'.executions := hrows ▸ List.mem_append_right _ List.mem_cons_self
  refine ⟨hids, fun r hr => ?_, ?_, fun r hr code hcode => ?_, ?_⟩
  · rcases List.mem_append.1 (hrows ▸ hr) with hr | hr
    · obtain ⟨e', he', hmade'⟩ := h.admitted r hr
      exact ⟨e', List.mem_cons_of_mem _ he', hmade'⟩
    · obtain rfl := List.mem_singleton.1 hr
      exact ⟨e, List.mem_cons_self, row₀, hmade, (immutable_id hsame).symm⟩
  · rintro e' (_ | ⟨_, he'⟩) row' hmade'
    · obtain rfl := honly row' hmade'
      exact ⟨row, hnew, hsame⟩
    · obtain ⟨r, hr, hsame'⟩ := h.kept e' he' row' hmade'
      exact ⟨r, hold hr, hsame'⟩
  · rcases List.mem_append.1 (hrows ▸ hr) with hr | hr
    · obtain ⟨hne, e', he', hlaunch⟩ := h.coded r hr code hcode
      exact ⟨hne, e', List.mem_cons_of_mem _ he', hlaunch⟩
    · obtain rfl := List.mem_singleton.1 hr
      rw [hnone] at hcode
      cases hcode
  · rintro e' (_ | ⟨_, he'⟩) execID code hlaunch
    · exact absurd hlaunch (hcodes execID code)
    · obtain ⟨r, hr, hlaunched⟩ := h.launched e' he' execID code hlaunch
      exact ⟨r, hold hr, hlaunched⟩

/-- A row changes in what the report does not say. -/
theorem Traced.moved {target : Status} {source : Option OutcomeSource} (h : Traced db t)
    (hrows : db'.executions = changeRow execID (moved now target source) db.executions)
    (hadmits : ∀ row, ¬Admits e row) (hcodes : ∀ execID code, ¬Codes e execID code) : Traced db' (e :: t) := by
  have hquiet := h.quiet hadmits hcodes
  have hrow : ∀ r, ∃ r', (if r.executionID = execID then Dispatch.moved now target source r else r) = r' ∧
      acceptedRowFromExec r' = acceptedRowFromExec r ∧ r'.launchState = r.launchState ∧ r'.sessionCode = r.sessionCode := by
    intro r
    split
    · exact ⟨_, rfl, rfl, rfl, rfl⟩
    · exact ⟨_, rfl, rfl, rfl, rfl⟩
  have hafter : ∀ r ∈ db.executions, ∃ r' ∈ db'.executions,
      acceptedRowFromExec r' = acceptedRowFromExec r ∧ r'.launchState = r.launchState ∧ r'.sessionCode = r.sessionCode := by
    intro r hr
    obtain ⟨r', heq, hsame⟩ := hrow r
    exact ⟨r', hrows ▸ List.mem_map.2 ⟨r, hr, heq⟩, hsame⟩
  have hbefore : ∀ r' ∈ db'.executions, ∃ r ∈ db.executions, acceptedRowFromExec r' = acceptedRowFromExec r ∧ r'.sessionCode = r.sessionCode := by
    intro r' hr'
    rw [hrows] at hr'
    obtain ⟨r, hr, heq⟩ := List.mem_map.1 hr'
    obtain ⟨r'', heq', hsame, _, hcode⟩ := hrow r
    obtain rfl := heq'.symm.trans heq
    exact ⟨r, hr, hsame, hcode⟩
  refine ⟨ids_changed h.ids hrows fun _ => rfl, fun r' hr' => ?_, fun e' he' row₀ hmade => ?_, fun r' hr' code hcode => ?_,
    fun e' he' id code hlaunch => ?_⟩
  · obtain ⟨r, hr, hsame, _⟩ := hbefore r' hr'
    rw [show r'.executionID = r.executionID from congrArg AcceptedRow.executionID hsame]
    exact hquiet.admitted r hr
  · obtain ⟨r, hr, hkept⟩ := hquiet.kept e' he' row₀ hmade
    obtain ⟨r', hr', hsame, _⟩ := hafter r hr
    exact ⟨r', hr', hsame ▸ hkept⟩
  · obtain ⟨r, hr, hsame, hcode'⟩ := hbefore r' hr'
    rw [show r'.executionID = r.executionID from congrArg AcceptedRow.executionID hsame]
    exact hquiet.coded r hr code (hcode' ▸ hcode)
  · obtain ⟨r, hr, rfl, hlaunched, hcode⟩ := hquiet.launched e' he' id code hlaunch
    obtain ⟨r', hr', hsame, hlaunch', hcode'⟩ := hafter r hr
    exact ⟨r', hr', congrArg AcceptedRow.executionID hsame, hlaunch'.trans hlaunched, fun hne => hcode'.trans (hcode hne)⟩

/-- A row is launched, which no launch of it was before. -/
theorem Traced.markLaunched {sessionCode : String} (h : Traced db t)
    (hrows : db'.executions = changeRow execID (Dispatch.launched now sessionCode) db.executions)
    (hfind : ∃ r, db.executions.find? (·.executionID = execID) = some r ∧ r.launchState = .launching)
    (hadmits : ∀ row, ¬Admits e row) (hlaunch : Codes e execID sessionCode) : Traced db' (e :: t) := by
  obtain ⟨r, hfind, hlaunching⟩ := hfind
  have hmem := List.mem_of_find?_eq_some hfind
  have hid : r.executionID = execID := by simpa using List.find?_some hfind
  have honly : ∀ x ∈ db.executions, x.executionID = execID → x = r := fun x hx hxid =>
    List.inj_on_of_nodup_map h.ids hx hmem (hxid.trans hid.symm)
  have hother : ∀ x ∈ db.executions, x.executionID ≠ execID → x ∈ db'.executions := fun x hx hne =>
    hrows ▸ List.mem_map.2 ⟨x, hx, if_neg hne⟩
  have hnew : Dispatch.launched now sessionCode r ∈ db'.executions := hrows ▸ List.mem_map.2 ⟨r, hmem, if_pos hid⟩
  have hbefore : ∀ x' ∈ db'.executions, x' = Dispatch.launched now sessionCode r ∨ (x' ∈ db.executions ∧ x'.executionID ≠ execID) := by
    intro x' hx'
    rw [hrows] at hx'
    obtain ⟨x, hx, rfl⟩ := List.mem_map.1 hx'
    split
    · rename_i hxid
      exact .inl (congrArg _ (honly x hx hxid))
    · rename_i hne
      exact .inr ⟨hx, hne⟩
  refine ⟨ids_changed h.ids hrows fun _ => rfl, fun x hx => ?_, ?_, fun x hx code hcode => ?_, ?_⟩
  · have hmade : ∃ e' ∈ t, ∃ row₀, Admits e' row₀ ∧ row₀.executionID = x.executionID := by
      rcases hbefore x hx with rfl | ⟨hx, _⟩
      · exact h.admitted r hmem
      · exact h.admitted x hx
    obtain ⟨e', he', hmade⟩ := hmade
    exact ⟨e', List.mem_cons_of_mem _ he', hmade⟩
  · rintro e' (_ | ⟨_, he'⟩) row₀ hmade
    · exact absurd hmade (hadmits row₀)
    obtain ⟨x, hx, hsame⟩ := h.kept e' he' row₀ hmade
    by_cases hxid : x.executionID = execID
    · obtain rfl := honly x hx hxid
      exact ⟨_, hnew, hsame⟩
    · exact ⟨x, hother x hx hxid, hsame⟩
  · rcases hbefore x hx with rfl | ⟨hx, _⟩
    · change (if sessionCode = "" then none else some sessionCode) = some code at hcode
      split at hcode
      · cases hcode
      · rename_i hne
        obtain rfl := Option.some.inj hcode
        exact ⟨hne, e, List.mem_cons_self, show Codes e r.executionID sessionCode from hid ▸ hlaunch⟩
    · obtain ⟨hne, e', he', hlaunch'⟩ := h.coded x hx code hcode
      exact ⟨hne, e', List.mem_cons_of_mem _ he', hlaunch'⟩
  · rintro e' (_ | ⟨_, he'⟩) id code hlaunch'
    · obtain ⟨rfl, rfl⟩ := StoreOp.markLaunched.inj (hlaunch.2.symm.trans hlaunch'.2)
      exact ⟨_, hnew, hid, rfl, fun hne => if_neg hne⟩
    · obtain ⟨x, hx, rfl, hlaunched, hcode⟩ := h.launched e' he' id code hlaunch'
      by_cases hxid : x.executionID = execID
      · obtain rfl := honly x hx hxid
        rw [hlaunching] at hlaunched
        cases hlaunched
      · exact ⟨x, hother x hx hxid, rfl, hlaunched, hcode⟩

/-- Each call leaves where every row comes from known. -/
theorem Traced.serve (h : Traced db t) (c : StoreCall) : Traced (c.serve db).2 (⟨c, db, (c.serve db).1⟩ :: t) := by
  rcases c.serve_cases h.ids with ⟨err, heq⟩ | ⟨reply, db', heq, hdoes⟩
  · rw [heq]
    refine h.quiet ?_ ?_
    · rintro row ⟨⟨reply, hreply⟩, _⟩
      cases hreply
    · rintro execID code ⟨⟨reply, hreply⟩, _⟩
      cases hreply
  rw [heq]
  have hids := ids_does h.ids hdoes
  obtain ⟨op, now, faults⟩ := c
  cases op with
  | upsertByDispatch newID req =>
    have hcodes : ∀ execID code, ¬Codes ⟨⟨.upsertByDispatch newID req, now, faults⟩, db, .ok reply⟩ execID code :=
      uncoded_of_ne fun _ _ => StoreOp.noConfusion
    rcases hdoes with ⟨_, _, _, ⟨r, hr, hdispatch⟩, rfl⟩ | ⟨_, hfresh, _, hrows⟩
    · refine h.quiet ?_ hcodes
      rintro row ⟨_, hfresh, rfl⟩
      exact (hfresh r hr).2 hdispatch
    · exact h.insert hids hrows ⟨⟨reply, rfl⟩, hfresh, rfl⟩ rfl rfl (fun _ hmade => hmade.2.2) hcodes
  | insertRejected newID req errCode errMsg =>
    have hcodes : ∀ execID code, ¬Codes ⟨⟨.insertRejected newID req errCode errMsg, now, faults⟩, db, .ok reply⟩ execID code :=
      uncoded_of_ne fun _ _ => StoreOp.noConfusion
    rcases hdoes with ⟨⟨r, hr, hdispatch⟩, rfl⟩ | ⟨hfresh, _, hrows⟩
    · refine h.quiet ?_ hcodes
      rintro row ⟨_, hfresh, rfl⟩
      exact (hfresh r hr).2 hdispatch
    · exact h.insert hids hrows ⟨⟨reply, rfl⟩, hfresh, rfl⟩ rfl rfl (fun _ hmade => hmade.2.2) hcodes
  | markLaunched execID code =>
    obtain ⟨_, hrows, r, hfind, hlaunching, _⟩ := hdoes
    exact h.markLaunched hrows ⟨r, hfind, hlaunching⟩ (fun _ hmade => hmade.2.2) ⟨⟨reply, rfl⟩, rfl⟩
  | updateStatus execID target artifacts errCode errMsg =>
    exact h.moved hdoes.1 (fun _ hmade => hmade.2.2) (uncoded_of_ne fun _ _ => StoreOp.noConfusion)
  | markTerminal execID target source artifacts errCode errMsg =>
    exact h.moved hdoes.2.1 (fun _ hmade => hmade.2.2) (uncoded_of_ne fun _ _ => StoreOp.noConfusion)

theorem runs_traced (h : StoreRuns (fun _ _ => True) db t) : Traced db t := by
  induction h with
  | init hempty => exact traced_init hempty
  | @step db t c _ _ ih => exact ih.serve c

theorem Traced.find? (h : Traced db t) (hrow : row ∈ db.executions) (hid : row.executionID = execID) :
    db.executions.find? (·.executionID = execID) = some row := by
  cases hfind : db.executions.find? (·.executionID = execID) with
  | none => exact absurd (decide_eq_true hid) (List.find?_eq_none.1 hfind row hrow)
  | some r =>
    have hrid : r.executionID = execID := by simpa using List.find?_some hfind
    rw [List.inj_on_of_nodup_map h.ids (List.mem_of_find?_eq_some hfind) hrow (hrid.trans hid.symm)]

/-- A row without a code is reported again as it was. -/
theorem Traced.again_iff {row₀ : Execution} {enc : Encoder} {payload : String} (h : Traced db t) (he : e ∈ t) (hmade : Admits e row₀)
    (hpayload : buildAcceptedBytes enc (acceptedRowFromExec row₀) = some payload) :
    reconstructedPayload enc db row₀.executionID = some payload ↔ ¬∃ e' ∈ t, ∃ code, code ≠ "" ∧ Codes e' row₀.executionID code := by
  obtain ⟨row, hrow, hsame⟩ := h.kept e he row₀ hmade
  have hid := immutable_id hsame
  have hload : loadAcceptedRow db row₀.executionID = some (acceptedRowFromExec row) := by
    rw [loadAcceptedRow, h.find? hrow hid]
    rfl
  have huncoded : (acceptedRowFromExec row₀).sessionCode = "" := congrArg (Option.getD · "") hmade.uncoded
  rw [reconstructedPayload, hload, Option.bind_some, bytes_eq_iff hsame huncoded hpayload]
  change row.sessionCode.getD "" = "" ↔ _
  constructor
  · rintro hempty ⟨e', he', code, hne, hlaunch⟩
    obtain ⟨x, hx, hxid, _, hcode⟩ := h.launched e' he' _ code hlaunch
    obtain rfl := List.inj_on_of_nodup_map h.ids hx hrow (hxid.trans hid.symm)
    rw [hcode hne] at hempty
    exact hne hempty
  · intro hnone
    cases hcode : row.sessionCode with
    | none => rfl
    | some code =>
      obtain ⟨hne, e', he', hlaunch⟩ := h.coded row hrow code hcode
      exact absurd ⟨e', he', code, hne, hid ▸ hlaunch⟩ hnone

end Runs

/-- In every run each row was admitted, and the accepted report made again from it is that of its admission unless
a launch of it was recorded with a code. -/
theorem accepted_again_iff {db : Tables} {t : List StoreStep} (h : StoreRuns (fun _ _ => True) db t) :
    (∀ row ∈ db.executions, ∃ e ∈ t, ∃ row₀, Admits e row₀ ∧ row₀.executionID = row.executionID) ∧
      ∀ e ∈ t, ∀ row₀, Admits e row₀ → ∀ enc payload, buildAcceptedBytes enc (acceptedRowFromExec row₀) = some payload →
        (reconstructedPayload enc db row₀.executionID = some payload ↔ ¬∃ e' ∈ t, ∃ code, code ≠ "" ∧ Codes e' row₀.executionID code) :=
  ⟨(runs_traced h).admitted, fun _ he _ hmade _ _ hpayload => (runs_traced h).again_iff he hmade hpayload⟩

/-- Nothing is escaped, and raw JSON is printed as it is. -/
def plainEncoder : Encoder := ⟨id, some⟩

/-- The row of the one dispatch, and the call that makes it. -/
def oneRow : Execution := oneDispatch.row 0 "exc_2"

def admission : StoreStep := ⟨call (.upsertByDispatch "exc_2" oneDispatch), noTables, .ok (.row oneRow true)⟩

theorem admission_admits : Admits admission oneRow := ⟨⟨_, rfl⟩, fun _ hr => absurd hr List.not_mem_nil, rfl⟩

/-- The dispatch is delivered twice, and its row ends before it is launched. -/
def neverLaunched : List StoreCall :=
  [call (.upsertByDispatch "exc_2" oneDispatch), call (.upsertByDispatch "exc_3" oneDispatch),
    call (.updateStatus "exc_1" .failed [] "launch_failed" "gone")]

/-- Nothing gave that row a code. -/
theorem accepted_again_neverLaunched :
    reconstructedPayload plainEncoder (serveAll StoreCall.serve neverLaunched noTables []).1 "exc_1" =
      buildAcceptedBytes plainEncoder (acceptedRowFromExec oneRow) := by
  have hinit : StoreRuns (fun _ _ => True) noTables [] := .init ⟨rfl, rfl⟩
  have hmem : admission ∈ (serveAll StoreCall.serve neverLaunched noTables []).2 := List.mem_of_getLast? (by rfl)
  obtain ⟨payload, hpayload⟩ : ∃ payload, buildAcceptedBytes plainEncoder (acceptedRowFromExec oneRow) = some payload := ⟨_, rfl⟩
  rw [hpayload]
  refine ((accepted_again_iff (hinit.all (allOk_true _ neverLaunched _))).2 admission hmem oneRow admission_admits _ payload hpayload).2 ?_
  rintro ⟨e, he, code, _, hlaunch⟩
  simp only [neverLaunched, serveAll, List.mem_cons, List.not_mem_nil, or_false] at he
  rcases he with rfl | rfl | rfl <;> cases hlaunch.2

/-- The launch of the one dispatch is recorded. -/
def launchOnce : List StoreCall := [call (.upsertByDispatch "exc_2" oneDispatch), call (.markLaunched "exc_1" "c1")]

/-- The code is none when the report is queued, and printed when it is made again. -/
theorem launchOnce_accepted_otherwise : ¬∀ db t, StoreRuns (fun _ _ => True) db t → ∀ e ∈ t, ∀ row₀, Admits e row₀ → ∀ enc payload,
    buildAcceptedBytes enc (acceptedRowFromExec row₀) = some payload → reconstructedPayload enc db row₀.executionID = some payload := by
  intro h
  have hinit : StoreRuns (fun _ _ => True) noTables [] := .init ⟨rfl, rfl⟩
  have hmem : admission ∈ (serveAll StoreCall.serve launchOnce noTables []).2 := List.mem_of_getLast? (by rfl)
  obtain ⟨payload, hpayload⟩ : ∃ payload, buildAcceptedBytes plainEncoder (acceptedRowFromExec oneRow) = some payload := ⟨_, rfl⟩
  have hagain := h _ _ (hinit.all (allOk_true _ launchOnce _)) admission hmem oneRow admission_admits plainEncoder payload hpayload
  have hother : reconstructedPayload plainEncoder (serveAll StoreCall.serve launchOnce noTables []).1 "exc_1" ≠
      buildAcceptedBytes plainEncoder (acceptedRowFromExec oneRow) := by decide +kernel
  exact hother (hagain.trans hpayload.symm)

end Purdex.Dispatch
