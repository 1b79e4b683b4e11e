/-
The executions of dispatches and the outbox of their reports, in one database, and the composite
operations that change both in one transaction.
-/
import Purdex.Conc.Transaction
import Mathlib.Data.List.Nodup

namespace Purdex.Dispatch

open Conc

/-! ## States -/

inductive Status where
  | accepted
  | running
  | completed
  | failed
  deriving Repr, DecidableEq

def Status.IsTerminal (s : Status) : Prop := s = completed ∨ s = failed

instance (s : Status) : Decidable s.IsTerminal := inferInstanceAs (Decidable (_ ∨ _))

def canTransition : Status → Status → Bool
  | .accepted, .running | .accepted, .failed | .running, .completed | .running, .failed => true
  | _, _ => false

inductive LaunchState where
  | none
  | launching
  | launched
  deriving Repr, DecidableEq

inductive OutcomeSource where
  | result
  | exitOnly
  | rejected
  deriving Repr, DecidableEq

/-! ## Rows -/

structure Execution where
  executionID : String
  dispatchID : String
  repoLocation : String
  repoLocationJSON : String
  provider : String
  launchState : LaunchState
  sessionName : String
  sessionCode : Option String
  attemptNo : Nat
  status : Status
  seqReported : Nat
  headAtStart : String
  dirtyAtStart : Bool
  sandboxProfile : String
  outcomeSource : Option OutcomeSource
  createdAt : Int
  updatedAt : Int
  deriving Repr, DecidableEq

/-- What an execution is created from; an empty id or provider and no launch state have defaults. -/
structure NewExecution where
  executionID : String
  dispatchID : String
  repoLocation : String
  repoLocationJSON : String
  provider : String
  sessionName : String
  launchState : Option LaunchState
  headAtStart : String
  dirtyAtStart : Bool
  sandboxProfile : String
  deriving Repr, DecidableEq

/-- The repository that an accepted report echoes. -/
inductive RepoEcho where
  | object (json : String)
  | localDir (path : String)
  deriving Repr, DecidableEq

structure Artifact where
  kind : String
  pointer : String
  deriving Repr, DecidableEq

structure ReportError where
  code : String
  message : String
  deriving Repr, DecidableEq

/-- The JSON that is posted. -/
inductive ReportPayload where
  | accepted (dispatchID executionID : String) (attemptNo : Nat) (provider : String) (repoLocation : RepoEcho)
      (effectiveSandboxProfile headAtStart : String) (dirtyAtStart : Bool) (sessionCode : Option String)
  | running (executionID : String) (seq : Nat)
  | terminal (executionID : String) (seq : Nat) (status : Status) (artifacts : List Artifact) (error : Option ReportError)
  deriving Repr, DecidableEq

/-- A payload is missing where it has no bytes. -/
structure OutboxRecord where
  id : Nat
  executionID : String
  dispatchID : String
  seq : Nat
  status : Status
  payload : Option ReportPayload
  attempts : Nat
  nextAttemptAt : Int
  acked : Bool
  permanent : Bool
  lastError : String
  createdAt : Int
  updatedAt : Int
  deriving Repr, DecidableEq

structure ReportEnvelope where
  seq : Nat
  status : Status
  payload : Option ReportPayload
  deriving Repr, DecidableEq

inductive StoreError where
  | notFound
  | illegalTransition
  | noRows
  | constraint
  | invalidRecord
  | build
  | database
  deriving Repr, DecidableEq

abbrev ReportBuilder := Execution → Except StoreError ReportEnvelope

structure Tables where
  executions : List Execution
  reportOutbox : List OutboxRecord
  nextID : Nat
  deriving Repr, DecidableEq

/-! ## Statements -/

section Statements

variable (now : Int)

def loadByID (execID : String) : Tx Tables StoreError Execution :=
  .query fun db =>
    match db.executions.find? (·.executionID = execID) with
    | some exec => .ok exec
    | none => .error .noRows

/-- `INSERT`, which keeps ids and dispatches unique. -/
def insertExecution (row : Execution) : Tx Tables StoreError Unit :=
  .statement fun db =>
    if ∃ r ∈ db.executions, r.executionID = row.executionID ∨ r.dispatchID = row.dispatchID then .error .constraint
    else .ok ((), { db with executions := db.executions ++ [row] })

/-- `UPDATE … WHERE`, and how many rows it changed. -/
def updateExecutions (selects : Execution → Bool) (change : Execution → Execution) : Tx Tables StoreError Nat :=
  .statement fun db =>
    .ok ((db.executions.filter selects).length, { db with executions := db.executions.map fun r => if selects r then change r else r })

/-- A report that has the seq of one of its execution's already is ignored. -/
def enqueueReport (rec : OutboxRecord) : Tx Tables StoreError Bool :=
  if rec.executionID = "" ∨ rec.dispatchID = "" ∨ rec.seq < 1 ∨ rec.payload = none then .abort .invalidRecord
  else .statement fun db =>
    if ∃ r ∈ db.reportOutbox, r.executionID = rec.executionID ∧ r.seq = rec.seq then .ok (false, db)
    else .ok (true, { db with
      reportOutbox := db.reportOutbox ++ [{ rec with
        id := db.nextID, attempts := 0, nextAttemptAt := 0, acked := false, permanent := false, lastError := "",
        createdAt := now, updatedAt := now }]
      nextID := db.nextID + 1 })

/-- Whether the report went in is not looked at. -/
def emitReport (exec : Execution) (build : ReportBuilder) : Tx Tables StoreError Unit := do
  let env ← .query fun _ => build exec
  discard <| enqueueReport now {
    id := 0
    executionID := exec.executionID
    dispatchID := exec.dispatchID
    seq := env.seq
    status := env.status
    payload := env.payload
    attempts := 0
    nextAttemptAt := 0
    acked := false
    permanent := false
    lastError := ""
    createdAt := 0
    updatedAt := 0 }

def transitionTx (execID : String) (target : Status) (source : Option OutcomeSource) : Tx Tables StoreError Unit := do
  let cur ← .query fun db =>
    match db.executions.find? (·.executionID = execID) with
    | some exec => .ok exec.status
    | none => .error .notFound
  if canTransition cur target = false then Tx.abort .illegalTransition
  else match source with
    | some source =>
      discard <| updateExecutions (·.executionID = execID) fun r => { r with status := target, outcomeSource := some source, updatedAt := now }
    | none => discard <| updateExecutions (·.executionID = execID) fun r => { r with status := target, updatedAt := now }

/-- The row of the dispatch, and whether it was made now. `newID` is what the store would generate. -/
def upsertTx (newID : String) (req : NewExecution) : Tx Tables StoreError (Execution × Bool) := do
  let existing ← .query fun db => .ok (db.executions.find? (·.dispatchID = req.dispatchID))
  match existing with
  | some row =>
    let exec ← loadByID row.executionID
    return (exec, false)
  | none =>
    let execID := if req.executionID = "" then newID else req.executionID
    insertExecution {
      executionID := execID
      dispatchID := req.dispatchID
      repoLocation := req.repoLocation
      repoLocationJSON := req.repoLocationJSON
      provider := if req.provider = "" then "claude" else req.provider
      launchState := req.launchState.getD .none
      sessionName := req.sessionName
      sessionCode := none
      attemptNo := 1
      status := .accepted
      seqReported := 0
      headAtStart := req.headAtStart
      dirtyAtStart := req.dirtyAtStart
      sandboxProfile := req.sandboxProfile
      outcomeSource := none
      createdAt := now
      updatedAt := now }
    let exec ← loadByID execID
    return (exec, true)

/-! ## Operations -/

def upsertByDispatchWithReport (newID : String) (req : NewExecution) (build : ReportBuilder) : Tx Tables StoreError (Execution × Bool) := do
  let (exec, created) ← upsertTx now newID req
  if created = false then return (exec, false)
  emitReport now exec build
  return (exec, created)

def insertRejectedWithReports (newID : String) (req : NewExecution) (buildAccepted buildFailed : ReportBuilder) :
    Tx Tables StoreError (Execution × Bool) := do
  let (exec, created) ← upsertTx now newID req
  if created = false then return (exec, false)
  emitReport now exec buildAccepted
  transitionTx now exec.executionID .failed (some .rejected)
  let exec ← loadByID exec.executionID
  emitReport now exec buildFailed
  return (exec, created)

def markLaunchedWithReport (execID sessionCode : String) (build : ReportBuilder) : Tx Tables StoreError Execution := do
  let found ← .query fun db => .ok (db.executions.any (·.executionID = execID))
  if found = false then Tx.abort .notFound
  else
    let n ← updateExecutions (fun r => r.executionID = execID ∧ r.launchState = .launching ∧ r.status = .accepted) fun r => { r with
      launchState := .launched
      status := .running
      sessionCode := if sessionCode = "" then none else some sessionCode
      updatedAt := now }
    if n = 0 then Tx.abort .illegalTransition
    else
      let exec ← loadByID execID
      emitReport now exec build
      return exec

def updateStatusWithReport (execID : String) (target : Status) (build : ReportBuilder) : Tx Tables StoreError Unit := do
  transitionTx now execID target none
  let exec ← loadByID execID
  emitReport now exec build

def markTerminalWithReport (execID : String) (target : Status) (source : OutcomeSource) (build : ReportBuilder) : Tx Tables StoreError Unit :=
  if ¬target.IsTerminal then .abort .illegalTransition
  else do
    transitionTx now execID target (some source)
    let exec ← loadByID execID
    emitReport now exec build

end Statements

/-! ## What the operations do -/

/-- The reports of an execution, in the order in which they were queued. -/
def Tables.reportsOf (db : Tables) (execID : String) : List (Nat × Status) :=
  (db.reportOutbox.filter (·.executionID = execID)).map fun r => (r.seq, r.status)

/-- The reports of one execution after one more was queued, unless its seq is taken. -/
def queued (reports : List (Nat × Status)) (report : Nat × Status) : List (Nat × Status) :=
  if report.1 ∈ reports.map Prod.fst then reports else reports ++ [report]

def ReportEnvelope.report (env : ReportEnvelope) : Nat × Status := (env.seq, env.status)

section Effects

variable {now : Int} {db : Tables} {execID : String} {exec : Execution}

theorem returns_loadByID : (loadByID execID).Returns db fun exec db' => db' = db ∧ db.executions.find? (·.executionID = execID) = some exec := by
  refine Tx.returns_query fun a h => ?_
  cases hfind : db.executions.find? (·.executionID = execID) with
  | none =>
    rw [hfind] at h
    cases h
  | some exec =>
    rw [hfind] at h
    cases h
    exact ⟨rfl, rfl⟩

theorem mem_seqs {seq : Nat} : seq ∈ (db.reportsOf execID).map Prod.fst ↔ ∃ r ∈ db.reportOutbox, r.executionID = execID ∧ r.seq = seq := by
  simp [Tables.reportsOf, and_assoc]

/-- The report of a transition is queued behind those of its execution, and those of others stay. -/
theorem returns_emitReport {build : ReportBuilder} : (emitReport now exec build).Returns db fun _ db' =>
    db'.executions = db.executions ∧ exec.executionID ≠ "" ∧ ∃ env, build exec = .ok env ∧
      ∀ id, db'.reportsOf id = if id = exec.executionID then queued (db.reportsOf id) env.report else db.reportsOf id := by
  refine Tx.returns_bind (Tx.returns_query fun env hbuild => Tx.returns_discard ?_)
  unfold enqueueReport
  split
  · exact Tx.returns_abort
  rename_i hvalid
  refine Tx.returns_statement fun inserted db' hrun => ?_
  have hid : exec.executionID ≠ "" := fun h => hvalid (.inl h)
  split at hrun
  · rename_i htaken
    obtain ⟨rfl, rfl⟩ := Prod.mk.inj (Except.ok.inj hrun)
    refine ⟨rfl, hid, env, hbuild, fun id => ?_⟩
    split
    · rename_i heq
      rw [queued, if_pos]
      rw [heq]
      exact mem_seqs.2 htaken
    · rfl
  · rename_i hfree
    obtain ⟨rfl, rfl⟩ := Prod.mk.inj (Except.ok.inj hrun)
    refine ⟨rfl, hid, env, hbuild, fun id => ?_⟩
    rw [Tables.reportsOf, List.filter_append, List.map_append]
    split
    · rename_i heq
      rw [queued, if_neg]
      · subst heq
        simp [Tables.reportsOf, ReportEnvelope.report]
      · rw [heq]
        exact fun hmem => hfree (mem_seqs.1 hmem)
    · rename_i hne
      simp [Tables.reportsOf, Ne.symm hne]

/-- The rows after a change of one of them. -/
def changeRow (execID : String) (change : Execution → Execution) (rows : List Execution) : List Execution :=
  rows.map fun r => if r.executionID = execID then change r else r

/-- A row after a transition. -/
def moved (now : Int) (target : Status) (source : Option OutcomeSource) (r : Execution) : Execution :=
  { r with status := target, outcomeSource := source.or r.outcomeSource, updatedAt := now }

theorem returns_transitionTx {target : Status} {source : Option OutcomeSource} :
    (transitionTx now execID target source).Returns db fun _ db' =>
      (∀ id, db'.reportsOf id = db.reportsOf id) ∧ db'.executions = changeRow execID (moved now target source) db.executions ∧
        ∃ r, db.executions.find? (·.executionID = execID) = some r ∧ canTransition r.status target = true := by
  refine Tx.returns_bind (Tx.returns_query fun cur hcur => ?_)
  cases hfind : db.executions.find? (·.executionID = execID) with
  | none =>
    rw [hfind] at hcur
    cases hcur
  | some r =>
    rw [hfind] at hcur
    obtain rfl := Except.ok.inj hcur
    split
    · exact Tx.returns_abort
    rename_i hlegal
    have hcan : canTransition r.status target = true := by simpa using hlegal
    cases source with
    | none =>
      refine Tx.returns_discard (Tx.returns_statement fun n db' hrun => ?_)
      obtain ⟨rfl, rfl⟩ := Prod.mk.inj (Except.ok.inj hrun)
      refine ⟨fun _ => rfl, List.map_congr_left fun x _ => ?_, r, rfl, hcan⟩
      by_cases hx : x.executionID = execID <;> simp [hx, moved]
    | some source =>
      refine Tx.returns_discard (Tx.returns_statement fun n db' hrun => ?_)
      obtain ⟨rfl, rfl⟩ := Prod.mk.inj (Except.ok.inj hrun)
      refine ⟨fun _ => rfl, List.map_congr_left fun x _ => ?_, r, rfl, hcan⟩
      by_cases hx : x.executionID = execID <;> simp [hx, moved]

theorem returns_insertExecution {row : Execution} : (insertExecution row).Returns db fun _ db' =>
    (∀ r ∈ db.executions, r.executionID ≠ row.executionID ∧ r.dispatchID ≠ row.dispatchID) ∧
      (∀ id, db'.reportsOf id = db.reportsOf id) ∧ db'.executions = db.executions ++ [row] := by
  refine Tx.returns_statement fun _ db' hrun => ?_
  split at hrun
  · cases hrun
  · rename_i hunique
    obtain ⟨_, rfl⟩ := Prod.mk.inj (Except.ok.inj hrun)
    exact ⟨fun r hr => ⟨fun heq => hunique ⟨r, hr, .inl heq⟩, fun heq => hunique ⟨r, hr, .inr heq⟩⟩, fun _ => rfl, rfl⟩

/-- A dispatch that has a row keeps it, and another gets a row that is accepted and launched no further than
the request says. -/
theorem returns_upsertTx {newID : String} {req : NewExecution} : (upsertTx now newID req).Returns db fun out db' =>
    (out.2 = false ∧ db' = db) ∨
    (out.2 = true ∧ (∀ r ∈ db.executions, r.executionID ≠ out.1.executionID ∧ r.dispatchID ≠ out.1.dispatchID) ∧
      (∀ id, db'.reportsOf id = db.reportsOf id) ∧ db'.executions = db.executions ++ [out.1] ∧
        out.1.dispatchID = req.dispatchID ∧ out.1.status = .accepted ∧ out.1.launchState = req.launchState.getD .none) := by
  refine Tx.returns_bind (Tx.returns_query fun existing hexisting => ?_)
  obtain rfl := Except.ok.inj hexisting
  split
  · refine Tx.returns_bind (returns_loadByID.mono fun exec db' h => Tx.returns_pure ?_)
    exact .inl ⟨rfl, h.1⟩
  · refine Tx.returns_bind (returns_insertExecution.mono fun _ db₁ h₁ => Tx.returns_bind (returns_loadByID.mono fun exec db' h => Tx.returns_pure ?_))
    obtain ⟨hfresh, hreports, hrows⟩ := h₁
    obtain ⟨rfl, hfind⟩ := h
    rw [hrows, List.find?_append, List.find?_eq_none.2 fun r hr => by simpa using (hfresh r hr).1] at hfind
    simp only [List.find?_singleton, decide_true, if_true, Option.none_or, Option.some.injEq] at hfind
    subst hfind
    exact .inr ⟨rfl, hfresh, hreports, hrows, rfl, rfl, rfl⟩

/-- A row after its launch. -/
def launched (now : Int) (sessionCode : String) (r : Execution) : Execution :=
  { r with launchState := .launched, status := .running, sessionCode := if sessionCode = "" then none else some sessionCode, updatedAt := now }

theorem returns_upsertByDispatch {newID : String} {req : NewExecution} {build : ReportBuilder} :
    (upsertByDispatchWithReport now newID req build).Returns db fun _ db' =>
      db' = db ∨ ∃ row env, (∀ r ∈ db.executions, r.executionID ≠ row.executionID ∧ r.dispatchID ≠ row.dispatchID) ∧
        row.executionID ≠ "" ∧ row.dispatchID = req.dispatchID ∧ row.status = .accepted ∧ row.launchState = req.launchState.getD .none ∧
          db'.executions = db.executions ++ [row] ∧ build row = .ok env ∧
            ∀ id, db'.reportsOf id = if id = row.executionID then queued (db.reportsOf id) env.report else db.reportsOf id := by
  refine Tx.returns_bind (returns_upsertTx.mono fun out db₁ h => ?_)
  obtain ⟨row, created⟩ := out
  rcases h with ⟨rfl, rfl⟩ | ⟨rfl, hfresh, hreports, hrows, hdispatch, hstatus, hlaunch⟩
  · exact Tx.returns_pure (.inl rfl)
  · refine Tx.returns_bind (returns_emitReport.mono fun _ db₂ h => Tx.returns_pure ?_)
    obtain ⟨hrows', hid, env, hbuild, hreports'⟩ := h
    refine .inr ⟨row, env, hfresh, hid, hdispatch, hstatus, hlaunch, hrows'.trans hrows, hbuild, fun id => ?_⟩
    rw [hreports', hreports]

theorem find?_changeRow {change : Execution → Execution} (hid : ∀ r, (change r).executionID = r.executionID) (rows : List Execution) :
    (changeRow execID change rows).find? (·.executionID = execID) = (rows.find? (·.executionID = execID)).map change := by
  induction rows with
  | nil => rfl
  | cons r rest ih =>
    rw [changeRow, List.map_cons, List.find?_cons, List.find?_cons]
    by_cases hr : r.executionID = execID
    · simp [hr, hid]
    · simp only [hr, if_false, decide_false]
      exact ih

/-- One row changed, and its report is queued. -/
def Reported (db db' : Tables) (execID : String) (change : Execution → Execution) (build : ReportBuilder) : Prop :=
  ∃ r env, db.executions.find? (·.executionID = execID) = some r ∧ db'.executions = changeRow execID change db.executions ∧
    build (change r) = .ok env ∧
      ∀ id, db'.reportsOf id = if id = execID then queued (db.reportsOf id) env.report else db.reportsOf id

/-- A report is rendered from the row as it looks after the change. -/
theorem returns_report {build : ReportBuilder} (change : Execution → Execution) (hid : ∀ r, (change r).executionID = r.executionID)
    {db₁ : Tables} (hreports : ∀ id, db₁.reportsOf id = db.reportsOf id) (hrows : db₁.executions = changeRow execID change db.executions) :
    (loadByID execID).Returns db₁ fun exec db₂ => (emitReport now exec build).Returns db₂ fun _ db' =>
      Reported db db' execID change build := by
  refine returns_loadByID.mono fun exec db₂ h => returns_emitReport.mono fun _ db₃ h' => ?_
  obtain ⟨rfl, hfind⟩ := h
  obtain ⟨hrows', _, env, hbuild, hreports'⟩ := h'
  rw [hrows, find?_changeRow hid] at hfind
  obtain ⟨r, hr, rfl⟩ := Option.map_eq_some_iff.1 hfind
  have hexec : (change r).executionID = execID := by
    rw [hid]
    simpa using List.find?_some hr
  refine ⟨r, env, hr, hrows'.trans hrows, hbuild, fun id => ?_⟩
  rw [hreports', hreports, hexec]

/-- The transition of a row, and its report. -/
def Moved (now : Int) (db db' : Tables) (execID : String) (target : Status) (source : Option OutcomeSource) (build : ReportBuilder) : Prop :=
  Reported db db' execID (moved now target source) build ∧
    ∀ r, db.executions.find? (·.executionID = execID) = some r → canTransition r.status target = true

theorem returns_transition {target : Status} {source : Option OutcomeSource} {build : ReportBuilder} :
    (transitionTx now execID target source).Returns db fun _ db₁ => (loadByID execID).Returns db₁ fun exec db₂ =>
      (emitReport now exec build).Returns db₂ fun _ db' => Moved now db db' execID target source build := by
  refine returns_transitionTx.mono fun _ db₁ h => ?_
  obtain ⟨hreports, hrows, r, hfind, hlegal⟩ := h
  refine (returns_report (moved now target source) (fun _ => rfl) hreports hrows).mono fun exec db₂ h => h.mono fun _ db' h => ⟨h, ?_⟩
  intro r' hfind'
  rw [hfind] at hfind'
  exact Option.some.inj hfind' ▸ hlegal

theorem returns_updateStatus {target : Status} {build : ReportBuilder} :
    (updateStatusWithReport now execID target build).Returns db fun _ db' => Moved now db db' execID target none build :=
  Tx.returns_bind (returns_transition.mono fun _ _ h => Tx.returns_bind h)

theorem returns_markTerminal {target : Status} {source : OutcomeSource} {build : ReportBuilder} :
    (markTerminalWithReport now execID target source build).Returns db fun _ db' =>
      target.IsTerminal ∧ Moved now db db' execID target (some source) build := by
  unfold markTerminalWithReport
  split
  · exact Tx.returns_abort
  · rename_i hterminal
    exact Tx.returns_bind (returns_transition.mono fun _ _ h => Tx.returns_bind (h.mono fun _ _ h => h.mono fun _ _ h => ⟨not_not.1 hterminal, h⟩))

theorem returns_markLaunched {sessionCode : String} {build : ReportBuilder} (hids : (db.executions.map (·.executionID)).Nodup) :
    (markLaunchedWithReport now execID sessionCode build).Returns db fun _ db' => Reported db db' execID (launched now sessionCode) build ∧
      ∀ r, db.executions.find? (·.executionID = execID) = some r → r.launchState = .launching ∧ r.status = .accepted := by
  refine Tx.returns_bind (Tx.returns_query fun found _ => ?_)
  split
  · exact Tx.returns_abort
  refine Tx.returns_bind (Tx.returns_statement fun n db₁ hrun => ?_)
  obtain ⟨hn, hdb⟩ := Prod.mk.inj (Except.ok.inj hrun)
  split
  · exact Tx.returns_abort
  rename_i hchanged
  obtain ⟨r, hr⟩ : ∃ r, r ∈ db.executions.filter fun r : Execution =>
      decide (r.executionID = execID ∧ r.launchState = .launching ∧ r.status = .accepted) := by
    refine List.exists_mem_of_ne_nil _ fun hnil => hchanged ?_
    rw [← hn, hnil]
    rfl
  obtain ⟨hmem, hr⟩ := List.mem_filter.1 hr
  obtain ⟨hid, hlaunching, haccepted⟩ := of_decide_eq_true hr
  -- the ids are unique, so that the fence looks at the one row that has the id
  have hunique : ∀ x ∈ db.executions, x.executionID = execID → x = r := fun x hx hxid =>
    List.inj_on_of_nodup_map hids hx hmem (hxid.trans hid.symm)
  have hrows : db₁.executions = changeRow execID (launched now sessionCode) db.executions := by
    rw [← hdb]
    refine List.map_congr_left fun x hx => ?_
    by_cases hxid : x.executionID = execID
    · obtain rfl := hunique x hx hxid
      simp [hxid, hlaunching, haccepted, launched]
    · simp [hxid]
  have hreports : ∀ id, db₁.reportsOf id = db.reportsOf id := fun id => by rw [← hdb]; rfl
  refine Tx.returns_bind ((returns_report (launched now sessionCode) (fun _ => rfl) hreports hrows).mono
    fun exec db₂ h => Tx.returns_bind (h.mono fun _ db' h => Tx.returns_pure ⟨h, ?_⟩))
  intro x hx
  obtain rfl := hunique x (List.mem_of_find?_eq_some hx) (by simpa using List.find?_some hx)
  exact ⟨hlaunching, haccepted⟩

/-- A row that is there from the start as it is rejected. -/
theorem returns_insertRejected {newID : String} {req : NewExecution} {buildAccepted buildFailed : ReportBuilder} :
    (insertRejectedWithReports now newID req buildAccepted buildFailed).Returns db fun _ db' =>
      db' = db ∨ ∃ row env env', (∀ r ∈ db.executions, r.executionID ≠ row.executionID ∧ r.dispatchID ≠ row.dispatchID) ∧
        row.dispatchID = req.dispatchID ∧ row.launchState = req.launchState.getD .none ∧
          db'.executions = db.executions ++ [moved now .failed (some .rejected) row] ∧ buildAccepted row = .ok env ∧
            buildFailed (moved now .failed (some .rejected) row) = .ok env' ∧
              ∀ id, db'.reportsOf id = if id = row.executionID then queued (queued (db.reportsOf id) env.report) env'.report else db.reportsOf id := by
  refine Tx.returns_bind (returns_upsertTx.mono fun out db₁ h => ?_)
  obtain ⟨row, created⟩ := out
  rcases h with ⟨rfl, rfl⟩ | ⟨rfl, hfresh, hreports, hrows, hdispatch, hstatus, hlaunch⟩
  · exact Tx.returns_pure (.inl rfl)
  refine Tx.returns_bind (returns_emitReport.mono fun _ db₂ h => ?_)
  obtain ⟨hrows₂, _, env, hbuild, hreports₂⟩ := h
  refine Tx.returns_bind (returns_transition.mono fun _ db₃ h => Tx.returns_bind (h.mono fun exec db₄ h =>
    Tx.returns_bind (h.mono fun _ db' h => Tx.returns_pure (.inr ?_))))
  obtain ⟨⟨r, env', hfind, hrows', hbuild', hreports'⟩, _⟩ := h
  rw [hrows₂, hrows, List.find?_append, List.find?_eq_none.2 fun r hr => by simpa using (hfresh r hr).1] at hfind
  simp only [List.find?_singleton, decide_true, if_true, Option.none_or, Option.some.injEq] at hfind
  subst hfind
  refine ⟨row, env, env', hfresh, hdispatch, hlaunch, ?_, hbuild, hbuild', fun id => ?_⟩
  · rw [hrows', hrows₂, hrows, changeRow, List.map_append, List.map_congr_left fun r hr => if_neg (hfresh r hr).1, List.map_id']
    simp
  · rw [hreports', hreports₂, hreports]
    split <;> rfl

end Effects

end Purdex.Dispatch
