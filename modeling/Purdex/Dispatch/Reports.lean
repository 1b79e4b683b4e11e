/-
The reports of the lifecycle, each with its seq, and what a run of the composite operations keeps
between the rows and the outbox.
-/
import Purdex.Conc.Serial
import Purdex.Dispatch.Store
import Mathlib.Data.List.Perm.Basic

namespace Purdex.Dispatch

open Conc

/-! ## Builders -/

def seqAccepted : Nat := 1

def seqRunning : Nat := 2

def seqFailed : Nat := 2

def seqTerminal : Nat := 3

def buildAcceptedPayload (row : Execution) : ReportPayload :=
  .accepted row.dispatchID row.executionID (if row.attemptNo = 0 then 1 else row.attemptNo)
    (if row.provider = "" then "claude" else row.provider)
    (if row.repoLocationJSON = "" then .localDir row.repoLocation else .object row.repoLocationJSON)
    row.sandboxProfile row.headAtStart row.dirtyAtStart (if row.sessionCode = some "" then none else row.sessionCode)

/-- Only a failed report has an error object. -/
def buildTerminalPayload (executionID : String) (seq : Nat) (status : Status) (artifacts : List Artifact) (error : Option ReportError) :
    ReportPayload :=
  .terminal executionID seq status artifacts (if status = .failed then error else none)

def buildAccepted : ReportBuilder := fun exec =>
  .ok ⟨seqAccepted, .accepted, some (buildAcceptedPayload exec)⟩

def buildRunning : ReportBuilder := fun exec =>
  .ok ⟨seqRunning, .running, some (.running exec.executionID seqRunning)⟩

def buildFailed (errCode errMsg : String) : ReportBuilder := fun exec =>
  .ok ⟨seqFailed, .failed, some (buildTerminalPayload exec.executionID seqFailed .failed [] (some ⟨errCode, errMsg⟩))⟩

/-- A row that was never launched has no running report, and its terminal report leaves no hole. -/
def terminalSeq (exec : Execution) : Nat := if exec.launchState = .launched then seqTerminal else seqFailed

def buildTerminal (status : Status) (artifacts : List Artifact) (errCode errMsg : String) : ReportBuilder := fun exec =>
  let error := if status = .failed then some ⟨errCode, errMsg⟩ else none
  .ok ⟨terminalSeq exec, status, some (buildTerminalPayload exec.executionID (terminalSeq exec) status artifacts error)⟩

/-- The builder of the report that a status implies. -/
def builderFor (target : Status) (artifacts : List Artifact) (errCode errMsg : String) : ReportBuilder :=
  match target with
  | .accepted => buildAccepted
  | .running => buildRunning
  | .failed => buildFailed errCode errMsg
  | .completed => buildTerminal .completed artifacts errCode errMsg

/-! ## Calls -/

inductive StoreOp where
  | upsertByDispatch (newID : String) (req : NewExecution)
  | insertRejected (newID : String) (req : NewExecution) (errCode errMsg : String)
  | markLaunched (execID sessionCode : String)
  | updateStatus (execID : String) (target : Status) (artifacts : List Artifact) (errCode errMsg : String)
  | markTerminal (execID : String) (target : Status) (source : OutcomeSource) (artifacts : List Artifact) (errCode errMsg : String)

inductive StoreReply where
  | row (exec : Execution) (created : Bool)
  | launched (exec : Execution)
  | done
  deriving Repr, DecidableEq

/-- A call of the store, when it is made, and which of its statements and builders fail. -/
structure StoreCall where
  op : StoreOp
  now : Int
  faults : Nat → Option StoreError

def StoreCall.serve (c : StoreCall) (db : Tables) : Except StoreError StoreReply × Tables :=
  match c.op with
  | .upsertByDispatch newID req =>
    inTx (do let out ← upsertByDispatchWithReport c.now newID req buildAccepted; return .row out.1 out.2) c.faults db
  | .insertRejected newID req errCode errMsg =>
    inTx (do
      let out ← insertRejectedWithReports c.now newID req buildAccepted (buildFailed errCode errMsg)
      return .row out.1 out.2) c.faults db
  | .markLaunched execID sessionCode =>
    inTx (do let exec ← markLaunchedWithReport c.now execID sessionCode buildRunning; return .launched exec) c.faults db
  | .updateStatus execID target artifacts errCode errMsg =>
    inTx (do updateStatusWithReport c.now execID target (builderFor target artifacts errCode errMsg); return .done) c.faults db
  | .markTerminal execID target source artifacts errCode errMsg =>
    inTx (do markTerminalWithReport c.now execID target source (buildTerminal target artifacts errCode errMsg); return .done) c.faults db

abbrev StoreStep := Served Tables StoreCall (Except StoreError StoreReply)

/-- The store is empty when it is made. -/
def NoExecutions (db : Tables) : Prop := db.executions = [] ∧ db.reportOutbox = []

abbrev StoreRuns (ok : Tables → StoreCall → Prop) : Tables → List StoreStep → Prop := Serves StoreCall.serve NoExecutions ok

/-! ## Rows and reports -/

/-- The reports of a row say what became of it, by seqs without a hole. -/
structure Accounted (db : Tables) (row : Execution) : Prop where
  seqs : ∃ k, ((db.reportsOf row.executionID).map Prod.fst).Perm ((List.range k).map (· + 1))
  accepted : ∀ r ∈ db.reportsOf row.executionID, r.1 = 1 ↔ r.2 = .accepted
  anchored : ∃ r ∈ db.reportsOf row.executionID, r.1 = 1
  running : (∃ r ∈ db.reportsOf row.executionID, r.2 = .running) ↔ row.launchState = .launched
  terminal : if row.status.IsTerminal
    then ∃ r, (db.reportsOf row.executionID).filter (·.2.IsTerminal) = [r] ∧ ∀ r' ∈ db.reportsOf row.executionID, r'.1 ≤ r.1
    else ∀ r ∈ db.reportsOf row.executionID, ¬r.2.IsTerminal

/-- Rows and reports of a store. -/
structure Together (db : Tables) : Prop where
  oneRow : (db.executions.map (·.dispatchID)).Nodup
  accounted : ∀ row ∈ db.executions, Accounted db row

/-- No row is lost, and statuses change along legal edges. -/
def Advances (db db' : Tables) : Prop :=
  ∀ row ∈ db.executions, ∃ row' ∈ db'.executions, row'.executionID = row.executionID ∧
    (row'.status = row.status ∨ canTransition row.status row'.status = true)

/-- What holds of one call. -/
def CallKeeps (e : StoreStep) : Prop :=
  Together e.pre ∧ Advances e.pre (e.request.serve e.pre).2 ∧ (∀ err, e.reply = .error err → (e.request.serve e.pre).2 = e.pre)

/-- A request that makes a row does not make it as launched. -/
def Unlaunched (db : Tables) (req : NewExecution) : Prop :=
  (∃ r ∈ db.executions, r.dispatchID = req.dispatchID) ∨ req.launchState ≠ some .launched

instance (db : Tables) (req : NewExecution) : Decidable (Unlaunched db req) := inferInstanceAs (Decidable (_ ∨ _))

/-- No row is made as launched, and a transition without an outcome source goes to `failed` from a row that
was not launched, or to `completed`. -/
def Fits (db : Tables) (c : StoreCall) : Prop :=
  match c.op with
  | .upsertByDispatch _ req | .insertRejected _ req _ _ => Unlaunched db req
  | .updateStatus execID target _ _ _ => ∀ r ∈ db.executions.find? (·.executionID = execID),
    canTransition r.status target = true → (target = .failed ∧ r.launchState ≠ .launched) ∨ target = .completed
  | .markLaunched _ _ | .markTerminal _ _ _ _ _ _ => True

instance (db : Tables) : ∀ c, Decidable (Fits db c)
  | ⟨.upsertByDispatch _ _, _, _⟩ | ⟨.insertRejected _ _ _ _, _, _⟩ => inferInstanceAs (Decidable (Unlaunched _ _))
  | ⟨.updateStatus _ _ _ _ _, _, _⟩ => inferInstanceAs (Decidable (∀ r ∈ _, _ → _))
  | ⟨.markLaunched _ _, _, _⟩ | ⟨.markTerminal _ _ _ _ _ _, _, _⟩ => inferInstanceAs (Decidable True)

/-- Executions and their reports move together. -/
def MoveTogether (db : Tables) (t : List StoreStep) : Prop := Together db ∧ ∀ e ∈ t, CallKeeps e

/-! ## Stages of a row -/

/-- The reports of a row that got as far as this. -/
def stages (launch : LaunchState) (status : Status) : List (Nat × Status) :=
  [(1, .accepted)] ++ (if launch = .launched then [(2, .running)] else []) ++
    (if status.IsTerminal then [(if launch = .launched then 3 else 2, status)] else [])

/-- What is launched is past `accepted`, and only that runs or is completed. -/
def Staged (launch : LaunchState) (status : Status) : Prop :=
  (status = .accepted → launch ≠ .launched) ∧ (status = .running ∨ status = .completed → launch = .launched)

instance (launch : LaunchState) (status : Status) : Decidable (Staged launch status) := inferInstanceAs (Decidable (_ ∧ _))

/-- Each row with the reports of its stage. -/
structure Recorded (db : Tables) : Prop where
  ids : (db.executions.map (·.executionID)).Nodup
  dispatches : (db.executions.map (·.dispatchID)).Nodup
  unowned : ∀ id, (∀ r ∈ db.executions, r.executionID ≠ id) → db.reportsOf id = []
  each : ∀ r ∈ db.executions, Staged r.launchState r.status ∧ db.reportsOf r.executionID = stages r.launchState r.status

section Steps

variable {db db' : Tables} {now : Int} {execID : String} {c : StoreCall}

theorem stages_seqs : ∀ launch status, ((stages launch status).map Prod.fst).Perm ((List.range (stages launch status).length).map (· + 1)) := by
  intro launch status
  cases launch <;> cases status <;> decide

theorem Recorded.together (h : Recorded db) : Together db := by
  refine ⟨h.dispatches, fun row hrow => ?_⟩
  obtain ⟨⟨hunlaunched, hlaunched⟩, hreports⟩ := h.each row hrow
  refine ⟨⟨_, hreports ▸ stages_seqs row.launchState row.status⟩, ?_, ?_, ?_, ?_⟩ <;> rw [hreports] <;> clear hreports
  · cases row.launchState <;> cases row.status <;> decide
  · exact ⟨_, List.mem_cons_self, rfl⟩
  · cases row.launchState <;> cases row.status <;> decide
  · cases hlaunch : row.launchState <;> cases hstatus : row.status <;> simp_all [stages, Status.IsTerminal]

theorem Recorded.insert (h : Recorded db) (row : Execution) (reports : List (Nat × Status))
    (hfresh : ∀ r ∈ db.executions, r.executionID ≠ row.executionID ∧ r.dispatchID ≠ row.dispatchID)
    (hrows : db'.executions = db.executions ++ [row])
    (hreports : ∀ id, db'.reportsOf id = if id = row.executionID then reports else db.reportsOf id)
    (hstaged : Staged row.launchState row.status) (hstages : reports = stages row.launchState row.status) : Recorded db' := by
  refine ⟨?_, ?_, fun id hid => ?_, fun r hr => ?_⟩
  · rw [hrows, List.map_append]
    refine List.nodup_append.2 ⟨h.ids, List.nodup_singleton _, ?_⟩
    rintro _ hid _ (_ | ⟨_, ⟨⟩⟩)
    obtain ⟨r, hr, rfl⟩ := List.mem_map.1 hid
    exact (hfresh r hr).1
  · rw [hrows, List.map_append]
    refine List.nodup_append.2 ⟨h.dispatches, List.nodup_singleton _, ?_⟩
    rintro _ hid _ (_ | ⟨_, ⟨⟩⟩)
    obtain ⟨r, hr, rfl⟩ := List.mem_map.1 hid
    exact (hfresh r hr).2
  · rw [hrows] at hid
    rw [hreports, if_neg fun heq => hid row (List.mem_append_right _ List.mem_cons_self) heq.symm]
    exact h.unowned id fun r hr => hid r (List.mem_append_left _ hr)
  · rw [hrows] at hr
    rcases List.mem_append.1 hr with hr | hr
    · rw [hreports, if_neg (hfresh r hr).1]
      exact h.each r hr
    · obtain rfl := List.mem_singleton.1 hr
      rw [hreports, if_pos rfl]
      exact ⟨hstaged, hstages⟩

theorem recorded_init (h : NoExecutions db) : Recorded db := by
  refine ⟨?_, ?_, fun id _ => ?_, fun r hr => ?_⟩
  · rw [h.1]
    exact List.nodup_nil
  · rw [h.1]
    exact List.nodup_nil
  · rw [Tables.reportsOf, h.2]
    rfl
  · rw [h.1] at hr
    cases hr

theorem advances_insert {row : Execution} (hrows : db'.executions = db.executions ++ [row]) : Advances db db' :=
  fun r hr => ⟨r, hrows ▸ List.mem_append_left _ hr, rfl, .inl rfl⟩

theorem Advances.refl (db : Tables) : Advances db db := fun r hr => ⟨r, hr, rfl, .inl rfl⟩

/-- A change of one row with the report of its new stage. -/
theorem Recorded.change (h : Recorded db) {change : Execution → Execution} {build : ReportBuilder}
    (hreported : Reported db db' execID change build)
    (hchange : ∀ r, (change r).executionID = r.executionID ∧ (change r).dispatchID = r.dispatchID)
    (hstage : ∀ r env, db.executions.find? (·.executionID = execID) = some r → Staged r.launchState r.status → build (change r) = .ok env →
      canTransition r.status (change r).status = true ∧ Staged (change r).launchState (change r).status ∧
        queued (stages r.launchState r.status) env.report = stages (change r).launchState (change r).status) :
    Recorded db' ∧ Advances db db' := by
  obtain ⟨r, env, hfind, hrows, hbuild, hreports⟩ := hreported
  have hmem := List.mem_of_find?_eq_some hfind
  have hid : r.executionID = execID := by simpa using List.find?_some hfind
  obtain ⟨hstaged, hown⟩ := h.each r hmem
  obtain ⟨hlegal, hstaged', hstages⟩ := hstage r env hfind hstaged hbuild
  have hrow : ∀ x ∈ db.executions, x.executionID = execID → x = r := fun x hx hxid =>
    List.inj_on_of_nodup_map h.ids hx hmem (hxid.trans hid.symm)
  have hids : (changeRow execID change db.executions).map (·.executionID) = db.executions.map (·.executionID) := by
    rw [changeRow, List.map_map]
    refine List.map_congr_left fun x _ => ?_
    rw [Function.comp_apply]
    split
    · exact (hchange x).1
    · rfl
  have hdispatches : (changeRow execID change db.executions).map (·.dispatchID) = db.executions.map (·.dispatchID) := by
    rw [changeRow, List.map_map]
    refine List.map_congr_left fun x _ => ?_
    rw [Function.comp_apply]
    split
    · exact (hchange x).2
    · rfl
  refine ⟨⟨?_, ?_, fun id hnone => ?_, fun x hx => ?_⟩, fun x hx => ?_⟩
  · rw [hrows, hids]
    exact h.ids
  · rw [hrows, hdispatches]
    exact h.dispatches
  · have hnone' : ∀ x ∈ db.executions, x.executionID ≠ id := by
      intro x hx hxid
      have hmem' : id ∈ db'.executions.map (·.executionID) := by
        rw [hrows, hids]
        exact List.mem_map.2 ⟨x, hx, hxid⟩
      obtain ⟨y, hy, hyid⟩ := List.mem_map.1 hmem'
      exact hnone y hy hyid
    rw [hreports, if_neg fun heq => hnone' r hmem (hid.trans heq.symm)]
    exact h.unowned id hnone'
  · rw [hrows] at hx
    obtain ⟨x, hmemx, rfl⟩ := List.mem_map.1 hx
    by_cases hxid : x.executionID = execID
    · obtain rfl := hrow x hmemx hxid
      rw [if_pos hxid, (hchange x).1, hreports, if_pos hxid, hown]
      exact ⟨hstaged', hstages⟩
    · rw [if_neg hxid, hreports, if_neg hxid]
      exact h.each x hmemx
  · by_cases hxid : x.executionID = execID
    · obtain rfl := hrow x hx hxid
      exact ⟨change x, hrows ▸ List.mem_map.2 ⟨x, hx, if_pos hxid⟩, (hchange x).1, .inr hlegal⟩
    · exact ⟨x, hrows ▸ List.mem_map.2 ⟨x, hx, if_neg hxid⟩, rfl, .inl rfl⟩

/-- What a call may do to the store. -/
def Outcome (db : Tables) (out : Except StoreError StoreReply × Tables) : Prop :=
  (∃ e, out = (.error e, db)) ∨ ((∀ e, out.1 ≠ .error e) ∧ Recorded out.2 ∧ Advances db out.2)

theorem outcome_inTx {α : Type} {body : Tx Tables StoreError α} (reply : α → StoreReply) {faults : Nat → Option StoreError}
    (h : body.Returns db fun _ db' => Recorded db' ∧ Advances db db') :
    Outcome db (inTx (do let a ← body; return reply a) faults db) := by
  have hbody : (do let a ← body; return reply a : Tx Tables StoreError StoreReply).Returns db fun _ db' => Recorded db' ∧ Advances db db' :=
    Tx.returns_bind (h.mono fun _ _ hQ => Tx.returns_pure hQ)
  rcases inTx_cases faults hbody with ⟨e, heq⟩ | ⟨a, s', heq, hQ⟩
  · exact .inl ⟨e, heq⟩
  · refine .inr ?_
    rw [heq]
    exact ⟨nofun, hQ⟩

/-- Every call that fits keeps each row with the reports of its stage. -/
theorem Recorded.serve (h : Recorded db) (hfits : Fits db c) : Outcome db (c.serve db) := by
  obtain ⟨op, now, faults⟩ := c
  cases op with
  | upsertByDispatch newID req =>
    refine outcome_inTx (fun out => .row out.1 out.2) (returns_upsertByDispatch.mono fun out db' h' => ?_)
    rcases h' with rfl | ⟨row, env, hfresh, _, hdispatch, hstatus, hlaunch, hrows, hbuild, hreports⟩
    · exact ⟨h, .refl _⟩
    have hunlaunched : row.launchState ≠ .launched := by
      rcases hfits with ⟨r, hr, hrd⟩ | hreq
      · exact absurd (hrd.trans hdispatch.symm) (hfresh r hr).2
      · rw [hlaunch]
        cases hl : req.launchState <;> simp_all
    obtain rfl := Except.ok.inj hbuild
    have hnone : db.reportsOf row.executionID = [] := h.unowned _ fun r hr => (hfresh r hr).1
    refine ⟨h.insert row [(1, .accepted)] hfresh hrows (fun id => ?_) ⟨fun _ => hunlaunched, ?_⟩ ?_, advances_insert hrows⟩
    · rw [hreports]
      split
      · rename_i heq
        rw [heq, hnone]
        rfl
      · rfl
    · rw [hstatus]
      rintro (h | h) <;> cases h
    · rw [hstatus]
      simp [stages, hunlaunched, Status.IsTerminal]
  | insertRejected newID req errCode errMsg =>
    refine outcome_inTx (fun out => .row out.1 out.2) (returns_insertRejected.mono fun out db' h' => ?_)
    rcases h' with rfl | ⟨row, env, env', hfresh, hdispatch, hlaunch, hrows, hbuild, hbuild', hreports⟩
    · exact ⟨h, .refl _⟩
    have hunlaunched : row.launchState ≠ .launched := by
      rcases hfits with ⟨r, hr, hrd⟩ | hreq
      · exact absurd (hrd.trans hdispatch.symm) (hfresh r hr).2
      · rw [hlaunch]
        cases hl : req.launchState <;> simp_all
    obtain rfl := Except.ok.inj hbuild
    obtain rfl := Except.ok.inj hbuild'
    have hnone : db.reportsOf row.executionID = [] := h.unowned _ fun r hr => (hfresh r hr).1
    refine ⟨h.insert (moved now .failed (some .rejected) row) [(1, .accepted), (2, .failed)] hfresh hrows
      (fun id => ?_) ⟨nofun, ?_⟩ ?_, advances_insert hrows⟩
    · show db'.reportsOf id = if id = row.executionID then _ else _
      rw [hreports]
      split
      · rename_i heq
        rw [heq, hnone]
        rfl
      · rfl
    · rintro (h | h) <;> cases h
    · simp [stages, moved, hunlaunched, Status.IsTerminal]
  | markLaunched execID sessionCode =>
    refine outcome_inTx .launched ((returns_markLaunched h.ids).mono fun exec db' h' => ?_)
    refine h.change h'.1 (fun _ => ⟨rfl, rfl⟩) fun r env hfind _ hbuild => ?_
    obtain ⟨hlaunching, haccepted⟩ := h'.2 r hfind
    obtain rfl := Except.ok.inj hbuild
    show canTransition r.status .running = true ∧ Staged .launched .running ∧ queued _ (2, .running) = stages .launched .running
    rw [hlaunching, haccepted]
    decide
  | updateStatus execID target artifacts errCode errMsg =>
    refine outcome_inTx (fun _ => .done) (returns_updateStatus.mono fun _ db' h' => ?_)
    refine h.change h'.1 (fun _ => ⟨rfl, rfl⟩) fun r env hfind hstaged hbuild => ?_
    have hlegal := h'.2 r hfind
    refine ⟨hlegal, ?_⟩
    rcases hfits r hfind hlegal with ⟨rfl, hunlaunched⟩ | rfl
    · obtain rfl := Except.ok.inj hbuild
      show Staged r.launchState .failed ∧ queued _ (2, .failed) = stages r.launchState .failed
      revert hstaged hlegal hunlaunched
      cases r.launchState <;> cases r.status <;> decide
    · obtain rfl := Except.ok.inj hbuild
      show Staged r.launchState .completed ∧ queued _ (if r.launchState = .launched then 3 else 2, .completed) = stages r.launchState .completed
      revert hstaged hlegal
      cases r.launchState <;> cases r.status <;> decide
  | markTerminal execID target source artifacts errCode errMsg =>
    refine outcome_inTx (fun _ => .done) (returns_markTerminal.mono fun _ db' h' => ?_)
    refine h.change h'.2.1 (fun _ => ⟨rfl, rfl⟩) fun r env hfind hstaged hbuild => ?_
    have hlegal := h'.2.2 r hfind
    refine ⟨hlegal, ?_⟩
    obtain rfl := Except.ok.inj hbuild
    show Staged r.launchState target ∧ queued _ (if r.launchState = .launched then 3 else 2, target) = stages r.launchState target
    have hterminal := h'.1
    revert hstaged hlegal hterminal
    cases r.launchState <;> cases r.status <;> cases target <;> decide

end Steps

/-- Executions and their reports move together in every run in which no row is made as launched, and a
transition without an outcome source is that of a failed launch or to `completed`. -/
theorem rows_and_reports_together {db : Tables} {t : List StoreStep} (h : StoreRuns Fits db t) : MoveTogether db t := by
  have hrun : Recorded db ∧ ∀ e ∈ t, CallKeeps e := by
    induction h with
    | @init db hempty => exact ⟨recorded_init hempty, fun e he => absurd he List.not_mem_nil⟩
    | @step db t c _ hfits ih =>
      have hout := ih.1.serve hfits
      refine ⟨?_, ?_⟩
      · rcases hout with ⟨e, heq⟩ | ⟨_, hrecorded, _⟩
        · rw [heq]
          exact ih.1
        · exact hrecorded
      · rintro e (_ | ⟨_, he⟩)
        · refine ⟨ih.1.together, ?_, fun err herr => ?_⟩
          · rcases hout with ⟨e, heq⟩ | ⟨_, _, hadvances⟩
            · show Advances db (c.serve db).2
              rw [heq]
              exact .refl _
            · exact hadvances
          · rcases hout with ⟨e, heq⟩ | ⟨hok, _⟩
            · show (c.serve db).2 = db
              rw [heq]
            · exact absurd herr (hok err)
        · exact ih.2 e he
  exact ⟨hrun.1.together, hrun.2⟩

/-! ## Runs of one dispatch -/

def oneDispatch : NewExecution where
  executionID := "exc_1"
  dispatchID := "d1"
  repoLocation := "/repo"
  repoLocationJSON := ""
  provider := "claude"
  sessionName := "exc_1"
  launchState := some .launching
  headAtStart := "abc"
  dirtyAtStart := false
  sandboxProfile := "read-only"

/-- A call none of whose statements fails. -/
def call (op : StoreOp) : StoreCall := ⟨op, 0, fun _ => none⟩

def noTables : Tables := ⟨[], [], 1⟩

/-- A launch, and the exit of what was launched. -/
def launchAndExit : List StoreCall :=
  [call (.upsertByDispatch "exc_2" oneDispatch), call (.markLaunched "exc_1" "c1"), call (.upsertByDispatch "exc_3" oneDispatch),
    call (.markTerminal "exc_1" .completed .result [⟨"diff", "p"⟩] "" "")]

theorem rows_and_reports_together_launchAndExit :
    MoveTogether (serveAll StoreCall.serve launchAndExit noTables []).1 (serveAll StoreCall.serve launchAndExit noTables []).2 := by
  have hinit : StoreRuns Fits noTables [] := .init ⟨rfl, rfl⟩
  have hfits : AllOk StoreCall.serve Fits launchAndExit noTables := by decide
  exact rows_and_reports_together (hinit.all hfits)

/-- A launch that is reported as failed after it had succeeded: the failed report has the seq of the running one. -/
def launchThenFailed : List StoreCall :=
  [call (.upsertByDispatch "exc_2" oneDispatch), call (.markLaunched "exc_1" "c1"),
    call (.updateStatus "exc_1" .failed [] "launch_failed" "gone")]

theorem launchThenFailed_unreported : ¬∀ db t, StoreRuns (fun _ _ => True) db t → MoveTogether db t := by
  intro h
  have hinit : StoreRuns (fun _ _ => True) noTables [] := .init ⟨rfl, rfl⟩
  have hrun := (h _ _ (hinit.all (allOk_true _ launchThenFailed _))).1
  have hfailed : ∃ row ∈ (serveAll StoreCall.serve launchThenFailed noTables []).1.executions, row.status.IsTerminal ∧
      ((serveAll StoreCall.serve launchThenFailed noTables []).1.reportsOf row.executionID).filter (·.2.IsTerminal) = [] := by
    decide
  obtain ⟨row, hrow, hterminal, hnone⟩ := hfailed
  have hreported := (hrun.accounted row hrow).terminal
  rw [if_pos hterminal, hnone] at hreported
  obtain ⟨r, hr, _⟩ := hreported
  cases hr

end Purdex.Dispatch
