/-
What each call of the store does to the rows, and which of its errors say what about them.
-/
import Purdex.Dispatch.Reports

namespace Purdex.Dispatch

open Conc

/-- The row that a request makes. -/
def NewExecution.row (req : NewExecution) (now : Int) (newID : String) : Execution where
  executionID := if req.executionID = "" then newID else req.executionID
  dispatchID := req.dispatchID
  repoLocation := req.repoLocation
  repoLocationJSON := req.repoLocationJSON
  provider := if req.provider = "" then "claude" else req.provider
  launchState := req.launchState.getD .none
  sessionName := req.sessionName
  sessionCode := none
  attemptNo := 1
  status := .accepted
  seqReported := 0
  headAtStart := req.headAtStart
  dirtyAtStart := req.dirtyAtStart
  sandboxProfile := req.sandboxProfile
  outcomeSource := none
  createdAt := now
  updatedAt := now

/-- A row that can be reported on. -/
def Execution.Named (r : Execution) : Prop := r.executionID ≠ "" ∧ r.dispatchID ≠ ""

/-- No row has the id of this one, or its dispatch. -/
def Fresh (db : Tables) (row : Execution) : Prop := ∀ r ∈ db.executions, r.executionID ≠ row.executionID ∧ r.dispatchID ≠ row.dispatchID

/-- What a call that succeeds answers, and what it does to the rows. -/
def StoreOp.Does (op : StoreOp) (now : Int) (db : Tables) (reply : StoreReply) (db' : Tables) : Prop :=
  match op with
  | .upsertByDispatch newID req =>
    (∃ row ∈ db.executions, reply = .row row false ∧ (∃ r ∈ db.executions, r.dispatchID = req.dispatchID) ∧ db' = db) ∨
    (reply = .row (req.row now newID) true ∧ Fresh db (req.row now newID) ∧ (req.row now newID).Named ∧
      db'.executions = db.executions ++ [req.row now newID])
  | .insertRejected newID req _ _ =>
    ((∃ r ∈ db.executions, r.dispatchID = req.dispatchID) ∧ db' = db) ∨
    (Fresh db (req.row now newID) ∧ (req.row now newID).Named ∧ db'.executions = db.executions ++ [moved now .failed (some .rejected) (req.row now newID)])
  | .markLaunched execID sessionCode => (∃ row, reply = .launched row) ∧
    db'.executions = changeRow execID (launched now sessionCode) db.executions ∧
      ∃ r, db.executions.find? (·.executionID = execID) = some r ∧ r.launchState = .launching ∧ r.status = .accepted
  | .updateStatus execID target _ _ _ => db'.executions = changeRow execID (moved now target none) db.executions ∧
    ∃ r, db.executions.find? (·.executionID = execID) = some r ∧ canTransition r.status target = true
  | .markTerminal execID target source _ _ _ => target.IsTerminal ∧
    db'.executions = changeRow execID (moved now target (some source)) db.executions ∧
      ∃ r, db.executions.find? (·.executionID = execID) = some r ∧ canTransition r.status target = true

section Effects

variable {now : Int} {db db' : Tables} {newID execID : String} {req : NewExecution}

/-- A row that is made is the one that the request says. -/
theorem returns_upsertTx_row : (upsertTx now newID req).Returns db fun out db' =>
    (out.2 = false ∧ out.1 ∈ db.executions ∧ (∃ r ∈ db.executions, r.dispatchID = req.dispatchID) ∧ db' = db) ∨
    (out = (req.row now newID, true) ∧ Fresh db (req.row now newID) ∧ db'.executions = db.executions ++ [req.row now newID]) := by
  refine Tx.returns_bind (Tx.returns_query fun existing hexisting => ?_)
  obtain rfl := Except.ok.inj hexisting
  split
  · rename_i row hfind
    refine Tx.returns_bind (returns_loadByID.mono fun exec db' h => Tx.returns_pure ?_)
    refine .inl ⟨rfl, List.mem_of_find?_eq_some h.2, ⟨row, List.mem_of_find?_eq_some hfind, ?_⟩, h.1⟩
    simpa using List.find?_some hfind
  · refine Tx.returns_bind (returns_insertExecution.mono fun _ db₁ h₁ => Tx.returns_bind (returns_loadByID.mono fun exec db' h => Tx.returns_pure ?_))
    obtain ⟨hfresh, _, hrows⟩ := h₁
    obtain ⟨rfl, hfind⟩ := h
    rw [hrows, List.find?_append, List.find?_eq_none.2 fun r hr => by simpa using (hfresh r hr).1] at hfind
    simp only [List.find?_singleton, decide_true, if_true, Option.none_or, Option.some.injEq] at hfind
    subst hfind
    exact .inr ⟨rfl, hfresh, hrows⟩

theorem returns_emitReport_named {exec : Execution} {build : ReportBuilder} : (emitReport now exec build).Returns db fun _ db' =>
    db'.executions = db.executions ∧ exec.Named := by
  refine (returns_emitReport.and ?_).mono fun _ _ h => ⟨h.1.1, h.1.2.1, h.2⟩
  refine Tx.returns_bind (Tx.returns_query fun env _ => Tx.returns_discard ?_)
  unfold enqueueReport
  split
  · exact Tx.returns_abort
  · rename_i hvalid
    exact Tx.returns_statement fun _ _ _ hempty => hvalid (.inr (.inl hempty))

theorem does_upsertByDispatch {build : ReportBuilder} : (upsertByDispatchWithReport now newID req build).Returns db fun out db' =>
    (StoreOp.upsertByDispatch newID req).Does now db (.row out.1 out.2) db' := by
  refine Tx.returns_bind (returns_upsertTx_row.mono fun out db₁ h => ?_)
  obtain ⟨row, created⟩ := out
  rcases h with ⟨rfl, hmem, hdispatch, rfl⟩ | ⟨heq, hfresh, hrows⟩
  · exact Tx.returns_pure (.inl ⟨row, hmem, rfl, hdispatch, rfl⟩)
  · obtain ⟨rfl, rfl⟩ := Prod.mk.inj heq
    refine Tx.returns_bind (returns_emitReport_named.mono fun _ db₂ h => Tx.returns_pure (.inr ⟨rfl, hfresh, h.2, ?_⟩))
    exact h.1.trans hrows

theorem does_insertRejected {buildAccepted buildFailed : ReportBuilder} (errCode errMsg : String) :
    (insertRejectedWithReports now newID req buildAccepted buildFailed).Returns db fun out db' =>
      (StoreOp.insertRejected newID req errCode errMsg).Does now db (.row out.1 out.2) db' := by
  refine Tx.returns_bind (returns_upsertTx_row.mono fun out db₁ h => ?_)
  obtain ⟨row, created⟩ := out
  rcases h with ⟨rfl, _, hdispatch, rfl⟩ | ⟨heq, hfresh, hrows⟩
  · exact Tx.returns_pure (.inl ⟨hdispatch, rfl⟩)
  · obtain ⟨rfl, rfl⟩ := Prod.mk.inj heq
    refine Tx.returns_bind (returns_emitReport_named.mono fun _ db₂ h => ?_)
    have hrows₂ := h.1.trans hrows
    have hnamed := h.2
    refine Tx.returns_bind (returns_transition.mono fun _ db₃ h => Tx.returns_bind (h.mono fun exec db₄ h =>
      Tx.returns_bind (h.mono fun _ db' h => Tx.returns_pure (.inr ⟨hfresh, hnamed, ?_⟩))))
    obtain ⟨⟨r, env', _, hrows', _, _⟩, _⟩ := h
    rw [hrows', hrows₂, changeRow, List.map_append, List.map_congr_left fun r hr => if_neg (hfresh r hr).1, List.map_id']
    simp

theorem find?_of_moved {target : Status} {source : Option OutcomeSource} {build : ReportBuilder} (h : Moved now db db' execID target source build) :
    db'.executions = changeRow execID (moved now target source) db.executions ∧
      ∃ r, db.executions.find? (·.executionID = execID) = some r ∧ canTransition r.status target = true := by
  obtain ⟨⟨r, _, hfind, hrows, _, _⟩, hlegal⟩ := h
  exact ⟨hrows, r, hfind, hlegal r hfind⟩

/-- A call fails and leaves the tables as they were, or does all it has to. -/
theorem StoreCall.serve_cases (c : StoreCall) (hids : (db.executions.map (·.executionID)).Nodup) :
    (∃ e, c.serve db = (.error e, db)) ∨ ∃ reply db', c.serve db = (.ok reply, db') ∧ c.op.Does c.now db reply db' := by
  obtain ⟨op, now, faults⟩ := c
  cases op with
  | upsertByDispatch newID req =>
    exact inTx_cases faults (Tx.returns_bind (does_upsertByDispatch.mono fun _ db' h => Tx.returns_pure h))
  | insertRejected newID req errCode errMsg =>
    exact inTx_cases faults (Tx.returns_bind ((does_insertRejected errCode errMsg).mono fun _ db' h => Tx.returns_pure h))
  | markLaunched execID sessionCode =>
    refine inTx_cases faults (Tx.returns_bind ((returns_markLaunched hids).mono fun exec db' h => Tx.returns_pure ⟨⟨exec, rfl⟩, ?_⟩))
    obtain ⟨⟨r, _, hfind, hrows, _, _⟩, hfence⟩ := h
    exact ⟨hrows, r, hfind, hfence r hfind⟩
  | updateStatus execID target artifacts errCode errMsg =>
    exact inTx_cases faults (Tx.returns_bind (returns_updateStatus.mono fun _ db' h => Tx.returns_pure (find?_of_moved h)))
  | markTerminal execID target source artifacts errCode errMsg =>
    exact inTx_cases faults (Tx.returns_bind (returns_markTerminal.mono fun _ db' h => Tx.returns_pure ⟨h.1, find?_of_moved h.2⟩))

theorem ids_changeRow {change : Execution → Execution} (hid : ∀ r, (change r).executionID = r.executionID) (rows : List Execution) :
    (changeRow execID change rows).map (·.executionID) = rows.map (·.executionID) := by
  rw [changeRow, List.map_map]
  refine List.map_congr_left fun x _ => ?_
  rw [Function.comp_apply]
  split
  · exact hid x
  · rfl

theorem ids_changed {change : Execution → Execution} (hids : (db.executions.map (·.executionID)).Nodup)
    (hrows : db'.executions = changeRow execID change db.executions) (hid : ∀ r, (change r).executionID = r.executionID) :
    (db'.executions.map (·.executionID)).Nodup := by
  rw [hrows, ids_changeRow hid]
  exact hids

theorem ids_inserted {row : Execution} (hids : (db.executions.map (·.executionID)).Nodup) (hfresh : Fresh db row)
    (hrows : db'.executions = db.executions ++ [row]) : (db'.executions.map (·.executionID)).Nodup := by
  rw [hrows, List.map_append]
  refine List.nodup_append.2 ⟨hids, List.nodup_singleton _, ?_⟩
  rintro _ hid _ (_ | ⟨_, ⟨⟩⟩)
  obtain ⟨r, hr, rfl⟩ := List.mem_map.1 hid
  exact (hfresh r hr).1

/-- The ids stay unique. -/
theorem ids_does {op : StoreOp} {reply : StoreReply} (hids : (db.executions.map (·.executionID)).Nodup) (h : op.Does now db reply db') :
    (db'.executions.map (·.executionID)).Nodup := by
  cases op with
  | upsertByDispatch newID req =>
    rcases h with ⟨_, _, _, _, rfl⟩ | ⟨_, hfresh, _, hrows⟩
    · exact hids
    · exact ids_inserted hids hfresh hrows
  | insertRejected newID req errCode errMsg =>
    rcases h with ⟨_, rfl⟩ | ⟨hfresh, _, hrows⟩
    · exact hids
    · exact ids_inserted hids (show Fresh db (moved now .failed (some .rejected) (req.row now newID)) from hfresh) hrows
  | markLaunched execID code => exact ids_changed hids h.2.1 fun _ => rfl
  | updateStatus execID target artifacts errCode errMsg => exact ids_changed hids h.1 fun _ => rfl
  | markTerminal execID target source artifacts errCode errMsg => exact ids_changed hids h.2.1 fun _ => rfl

/-! ## What does not fail -/

section Faultless

variable {exec r : Execution} {target : Status} {source : OutcomeSource}

theorem fails_loadByID (hfind : db.executions.find? (·.executionID = execID) = some r) : (loadByID execID).Fails db fun _ => False := by
  refine Tx.fails_query fun e he => ?_
  rw [hfind] at he
  cases he

theorem fails_emitReport {build : ReportBuilder} {env : ReportEnvelope} (hbuild : build exec = .ok env) (hseq : 1 ≤ env.seq) (hpayload : env.payload ≠ none)
    (hnamed : exec.Named) : (emitReport now exec build).Fails db fun _ => False := by
  refine Tx.fails_bind (Tx.fails_query fun e he => ?_) (Tx.returns_query fun env' henv => Tx.fails_discard ?_)
  · rw [hbuild] at he
    cases he
  · obtain rfl := Except.ok.inj (hbuild.symm.trans henv)
    unfold enqueueReport
    rw [if_neg]
    · refine Tx.fails_statement fun e he => ?_
      split at he <;> cases he
    · rintro (hid | hdispatch | hlow | hnone)
      · exact hnamed.1 hid
      · exact hnamed.2 hdispatch
      · exact absurd hseq (Nat.not_le.2 hlow)
      · exact hpayload hnone

theorem fails_transitionTx (hfind : db.executions.find? (·.executionID = execID) = some r) (hlegal : canTransition r.status target = true) :
    (transitionTx now execID target (some source)).Fails db fun _ => False := by
  refine Tx.fails_bind (Tx.fails_query fun e he => ?_) (Tx.returns_query fun cur hcur => ?_)
  · rw [hfind] at he
    cases he
  · rw [hfind] at hcur
    obtain rfl := Except.ok.inj hcur
    rw [if_neg (by simp [hlegal])]
    exact Tx.fails_discard (Tx.fails_statement fun e he => nomatch he)

theorem id_moved (now : Int) (target : Status) (source : Option OutcomeSource) (r : Execution) : (moved now target source r).executionID = r.executionID := rfl

/-- A row that may end is ended by a call none of whose statements fails. -/
theorem serve_markTerminal (now : Int) (source : OutcomeSource) (artifacts : List Artifact) (errCode errMsg : String) {faults : Nat → Option StoreError}
    (hids : (db.executions.map (·.executionID)).Nodup) (hfind : db.executions.find? (·.executionID = execID) = some r) (hnamed : r.Named)
    (hterminal : target.IsTerminal) (hlegal : canTransition r.status target = true) (hfaults : ∀ n, faults n = none) :
    ∃ reply db', StoreCall.serve ⟨.markTerminal execID target source artifacts errCode errMsg, now, faults⟩ db = (.ok reply, db') ∧
      (StoreOp.markTerminal execID target source artifacts errCode errMsg).Does now db reply db' := by
  rcases StoreCall.serve_cases ⟨.markTerminal execID target source artifacts errCode errMsg, now, faults⟩ hids with ⟨e, herr⟩ | hdone
  · refine absurd (congrArg Prod.fst herr) fun herr => ?_
    have hfails : (do markTerminalWithReport now execID target source (buildTerminal target artifacts errCode errMsg); return StoreReply.done :
        Tx Tables StoreError StoreReply).Fails db fun _ => False := by
      refine Tx.fails_bind ?_ fun _ _ _ _ _ _ => Tx.fails_pure
      unfold markTerminalWithReport
      rw [if_neg (not_not.2 hterminal)]
      refine Tx.fails_bind (fails_transitionTx hfind hlegal) (returns_transitionTx.mono fun _ db₁ h => ?_)
      have hfind₁ : db₁.executions.find? (·.executionID = execID) = some (moved now target (some source) r) := by
        rw [h.2.1, find?_changeRow (id_moved now target (some source)), hfind]
        rfl
      refine Tx.fails_bind (fails_loadByID hfind₁) (returns_loadByID.mono fun exec db₂ h => ?_)
      obtain ⟨rfl, hexec⟩ := h
      obtain rfl := Option.some.inj (hfind₁.symm.trans hexec)
      refine fails_emitReport rfl ?_ nofun hnamed
      show 1 ≤ terminalSeq _
      unfold terminalSeq seqTerminal seqFailed
      split <;> decide
    rcases inTx_error hfails herr with ⟨n, hfault⟩ | hfalse
    · exact absurd ((hfaults n).symm.trans hfault) nofun
    · exact hfalse
  · exact hdone

end Faultless

end Effects

end Purdex.Dispatch
