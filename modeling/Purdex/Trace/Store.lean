/-
The trace store: chains and their ordered steps in two tables, with the payload that several steps
of a chain share kept once on the chain's row. The write path is one transaction.
-/
import Mathlib

namespace Purdex.Trace

/-! ## Records -/

/-- A payload as it is sent to SQL: its bytes. -/
abbrev Bytes := List UInt8

structure TraceChain where
  chainID : String
  startedAt : Int
  completedAt : Int
  terminalStatus : String
  terminalReason : String
  tmuxSession : String
  paneID : String
  rootAgentType : String
  rootEventName : String
  rootReason : String
  latestStepKind : String
  latestDecision : String
  latestStepReason : String
  stepCount : Nat
  deriving DecidableEq, Repr

structure TraceStep where
  stepID : String
  chainID : String
  parentStepID : String
  seq : Int
  kind : String
  tmuxSession : String
  paneID : String
  agentType : String
  frameID : String
  parentFrameID : String
  eventName : String
  decision : String
  reason : String
  payloadJSON : Bytes
  beforeJSON : Bytes
  afterJSON : Bytes
  createdAt : Int
  deriving DecidableEq, Repr

structure TraceRecord where
  chain : TraceChain
  steps : List TraceStep
  deriving DecidableEq, Repr

inductive TraceErr where
  | foreignStep (stepID chainID want : String)
  | missingParent (stepID parentStepID : String)
  | constraint
  deriving DecidableEq, Repr

/-- The order of the steps: `seq`, then the time, then the id. -/
structure SortKey where
  seq : Int
  createdAt : Int
  stepID : String
  deriving DecidableEq, Repr

def SortKey.le (a b : SortKey) : Prop :=
  a.seq < b.seq ∨ a.seq = b.seq ∧ (a.createdAt < b.createdAt ∨ a.createdAt = b.createdAt ∧ a.stepID ≤ b.stepID)

instance (a b : SortKey) : Decidable (a.le b) :=
  inferInstanceAs (Decidable (_ ∨ _ ∧ (_ ∨ _ ∧ _)))

def TraceStep.key (step : TraceStep) : SortKey :=
  ⟨step.seq, step.createdAt, step.stepID⟩

/-! ## The stored form of a payload -/

/-- The four bytes of `null`. -/
def nullText : Bytes := [110, 117, 108, 108]

def rawJSONText (raw : Bytes) : Bytes :=
  if raw.length = 0 then nullText else raw

/-- A step with its payloads in stored form. -/
def TraceStep.stored (step : TraceStep) : TraceStep :=
  { step with
    payloadJSON := rawJSONText step.payloadJSON
    beforeJSON := rawJSONText step.beforeJSON
    afterJSON := rawJSONText step.afterJSON }

/-- One payload as it will be written; that of a root step lives on the chain row. -/
structure StoredTracePayload where
  payload : Bytes
  isRoot : Bool
  deriving DecidableEq, Repr

structure TracePayloadPlan where
  rootPayload : Bytes
  steps : List StoredTracePayload
  deriving DecidableEq, Repr

/-- The payload of the first step is shared when another step has it too. -/
def planTraceRootDedup (steps : List TraceStep) : TracePayloadPlan :=
  let texts := steps.map fun step => rawJSONText step.payloadJSON
  match texts with
  | [] => ⟨nullText, []⟩
  | candidate :: _ =>
    if texts.countP (· == candidate) < 2 then ⟨nullText, texts.map (⟨·, false⟩)⟩
    else ⟨candidate, texts.map fun text => if text == candidate then ⟨[], true⟩ else ⟨text, false⟩⟩

/-! ## Normalization -/

/-- The ids and the clock readings that one normalization draws, by the index of the step. -/
structure Supply where
  chainID : String
  stepID : Nat → String
  now : Nat → Int

def orText (value default : String) : String :=
  if value = "" then default else value

def orInt (value default : Int) : Int :=
  if value = 0 then default else value

/-- The defaults of the step at index `i`; a chain without a session or pane takes the step's. -/
def fillStep (sup : Supply) (i : Nat) (chain : TraceChain) (step : TraceStep) : Except TraceErr (TraceChain × TraceStep) :=
  let step := { step with
    stepID := orText step.stepID (sup.stepID i)
    chainID := orText step.chainID chain.chainID }
  if step.chainID ≠ chain.chainID then .error (.foreignStep step.stepID step.chainID chain.chainID)
  else
    let step := { step with
      seq := orInt step.seq (i + 1)
      tmuxSession := orText step.tmuxSession chain.tmuxSession
      paneID := orText step.paneID chain.paneID
      agentType := orText step.agentType chain.rootAgentType
      eventName := orText step.eventName chain.rootEventName
      createdAt := orInt step.createdAt (sup.now i + i) }
    .ok ({ chain with
      tmuxSession := orText chain.tmuxSession step.tmuxSession
      paneID := orText chain.paneID step.paneID }, step)

def fillSteps (sup : Supply) : Nat → TraceChain → List TraceStep → Except TraceErr (TraceChain × List TraceStep)
  | _, chain, [] => .ok (chain, [])
  | i, chain, step :: steps => do
    let (chain, step) ← fillStep sup i chain step
    let (chain, steps) ← fillSteps sup (i + 1) chain steps
    return (chain, step :: steps)

/-- Every parent is a step before its child. -/
def checkParents : List String → List TraceStep → Except TraceErr Unit
  | _, [] => .ok ()
  | seen, step :: steps =>
    if step.parentStepID ≠ "" ∧ step.parentStepID ∉ seen then .error (.missingParent step.stepID step.parentStepID)
    else checkParents (step.stepID :: seen) steps

/-- The chain's summary of its sorted steps. -/
def summarize (sup : Supply) (chain : TraceChain) (steps : List TraceStep) : TraceChain :=
  let chain := match steps, steps.getLast? with
    | first :: _, some last => { chain with
        startedAt := orInt chain.startedAt first.createdAt
        completedAt := orInt chain.completedAt last.createdAt
        tmuxSession := orText chain.tmuxSession first.tmuxSession
        paneID := orText chain.paneID first.paneID
        rootAgentType := orText chain.rootAgentType first.agentType
        rootEventName := orText chain.rootEventName first.eventName
        rootReason := orText chain.rootReason first.reason
        latestStepKind := last.kind
        latestDecision := last.decision
        latestStepReason := last.reason }
    | _, _ =>
      let chain := { chain with startedAt := orInt chain.startedAt (sup.now 0) }
      { chain with completedAt := orInt chain.completedAt chain.startedAt }
  { chain with
    completedAt := orInt chain.completedAt chain.startedAt
    stepCount := steps.length }

def normalizeTraceRecord (sup : Supply) (record : TraceRecord) : Except TraceErr (TraceChain × List TraceStep) := do
  let chain := { record.chain with chainID := orText record.chain.chainID sup.chainID }
  let (chain, steps) ← fillSteps sup 0 chain record.steps
  let steps := steps.insertionSort fun a b => a.key.le b.key
  checkParents [] steps
  return (summarize sup chain steps, steps)

/-! ## The tables -/

/-- A row of `agent_trace_chains`. -/
structure ChainRow extends TraceChain where
  updatedAt : Int
  rootPayloadJSON : Bytes
  deriving DecidableEq, Repr

/-- A row of `agent_trace_steps`; a step without a parent has NULL there. -/
structure StepRow where
  stepID : String
  chainID : String
  parentStepID : Option String
  seq : Int
  kind : String
  tmuxSession : String
  paneID : String
  agentType : String
  frameID : String
  parentFrameID : String
  eventName : String
  decision : String
  reason : String
  payloadJSON : Bytes
  beforeJSON : Bytes
  afterJSON : Bytes
  createdAt : Int
  payloadIsRoot : Bool
  deriving DecidableEq, Repr

def StepRow.key (row : StepRow) : SortKey :=
  ⟨row.seq, row.createdAt, row.stepID⟩

/-- The two tables, with their primary keys and the reference of a step to its chain. -/
structure DB where
  chains : List ChainRow
  steps : List StepRow
  chainIDs : (chains.map (·.chainID)).Nodup
  stepIDs : (steps.map (·.stepID)).Nodup
  owned : ∀ row ∈ steps, row.chainID ∈ chains.map (·.chainID)

namespace DB

def empty : DB := ⟨[], [], by simp, by simp, by simp⟩

/-- The row of a chain. -/
def chainRow (db : DB) (chainID : String) : Option ChainRow :=
  db.chains.find? (·.chainID = chainID)

/-- The rows of a chain's steps. -/
def stepRows (db : DB) (chainID : String) : List StepRow :=
  db.steps.filter (·.chainID = chainID)

def deleteSteps (db : DB) (chainID : String) : DB where
  chains := db.chains
  steps := db.steps.filter (·.chainID ≠ chainID)
  chainIDs := db.chainIDs
  stepIDs := db.stepIDs.sublist (List.filter_sublist.map _)
  owned := fun row hrow => db.owned row (List.mem_filter.1 hrow).1

/-- INSERT … ON CONFLICT(chain_id) DO UPDATE: every other column is taken from the new row. -/
def upsertChain (db : DB) (row : ChainRow) : DB :=
  if h : row.chainID ∈ db.chains.map (·.chainID) then
    have hkeys : (db.chains.map fun r => if r.chainID = row.chainID then row else r).map (·.chainID) =
        db.chains.map (·.chainID) := by
      rw [List.map_map]
      refine List.map_congr_left fun r _ => ?_
      dsimp only [Function.comp]
      split
      · rename_i heq
        exact heq.symm
      · rfl
    { chains := db.chains.map fun r => if r.chainID = row.chainID then row else r
      steps := db.steps
      chainIDs := hkeys ▸ db.chainIDs
      stepIDs := db.stepIDs
      owned := fun r hr => hkeys ▸ db.owned r hr }
  else
    { chains := db.chains ++ [row]
      steps := db.steps
      chainIDs := by
        rw [List.map_append, List.nodup_append]
        exact ⟨db.chainIDs, by simp, fun a ha b hb hab => h (by simp_all)⟩
      stepIDs := db.stepIDs
      owned := fun r hr => by
        rw [List.map_append]
        exact List.mem_append_left _ (db.owned r hr) }

/-- The foreign key of a step to its parent: NULL, itself, or another step of its chain. -/
def parentOk (db : DB) (row : StepRow) : Bool :=
  match row.parentStepID with
  | none => true
  | some parent => row.stepID = parent || db.steps.any fun r => r.chainID = row.chainID && r.stepID = parent

def insertStep (db : DB) (row : StepRow) : Except TraceErr DB :=
  if h : row.stepID ∉ db.steps.map (·.stepID) ∧ row.chainID ∈ db.chains.map (·.chainID) then
    if db.parentOk row then
      .ok {
        chains := db.chains
        steps := db.steps ++ [row]
        chainIDs := db.chainIDs
        stepIDs := by
          rw [List.map_append, List.nodup_append]
          exact ⟨db.stepIDs, by simp, fun a ha b hb hab => h.1 (by simp_all)⟩
        owned := fun r hr => by
          rcases List.mem_append.1 hr with hr | hr
          · exact db.owned r hr
          · rw [List.mem_singleton.1 hr]
            exact h.2 }
    else .error .constraint
  else .error .constraint

/-- DELETE of chains; their steps go with them (ON DELETE CASCADE). -/
def deleteChains (db : DB) (chainIDs : List String) : DB where
  chains := db.chains.filter (·.chainID ∉ chainIDs)
  steps := db.steps.filter (·.chainID ∉ chainIDs)
  chainIDs := db.chainIDs.sublist (List.filter_sublist.map _)
  stepIDs := db.stepIDs.sublist (List.filter_sublist.map _)
  owned := fun row hrow => by
    obtain ⟨hm, hid⟩ := List.mem_filter.1 hrow
    obtain ⟨chain, hc, heq⟩ := List.mem_map.1 (db.owned row hm)
    exact List.mem_map.2 ⟨chain, List.mem_filter.2 ⟨hc, by rw [heq]; exact hid⟩, heq⟩

end DB

/-! ## The write path -/

def nullString (value : String) : Option String :=
  if value = "" then none else some value

/-- The INSERT of a step, its payload as planned. -/
def stepRow (step : TraceStep) (stored : StoredTracePayload) : StepRow where
  stepID := step.stepID
  chainID := step.chainID
  parentStepID := nullString step.parentStepID
  seq := step.seq
  kind := step.kind
  tmuxSession := step.tmuxSession
  paneID := step.paneID
  agentType := step.agentType
  frameID := step.frameID
  parentFrameID := step.parentFrameID
  eventName := step.eventName
  decision := step.decision
  reason := step.reason
  payloadJSON := stored.payload
  beforeJSON := rawJSONText step.beforeJSON
  afterJSON := rawJSONText step.afterJSON
  createdAt := step.createdAt
  payloadIsRoot := stored.isRoot

def insertSteps : DB → List StepRow → Except TraceErr DB
  | db, [] => .ok db
  | db, row :: rows => do insertSteps (← db.insertStep row) rows

structure TraceStore where
  maxChains : Int
  maxSteps : Int

def TraceStore.traceLimits (store : TraceStore) : Int × Int :=
  (if store.maxChains ≤ 0 then 10000 else store.maxChains, if store.maxSteps ≤ 0 then 100000 else store.maxSteps)

/-- The chains to evict, oldest first, until both totals are within their limits. -/
def evictOldest (maxChains maxSteps : Int) : Int → Int → List ChainRow → List String
  | _, _, [] => []
  | totalChains, totalSteps, chain :: chains =>
    if totalChains ≤ maxChains ∧ totalSteps ≤ maxSteps then []
    else chain.chainID :: evictOldest maxChains maxSteps (totalChains - 1) (totalSteps - chain.stepCount) chains

def pruneTraceChains (maxChains maxSteps : Int) (db : DB) : DB :=
  let stats := db.chains.insertionSort fun a b => a.startedAt < b.startedAt ∨ a.startedAt = b.startedAt ∧ a.chainID ≤ b.chainID
  db.deleteChains (evictOldest maxChains maxSteps stats.length ((stats.map fun chain => (chain.stepCount : Int)).sum) stats)

/-- One transaction: an error leaves the tables as they were. -/
def TraceStore.saveChain (store : TraceStore) (sup : Supply) (updatedAt : Int) (record : TraceRecord) (db : DB) :
    Except TraceErr DB := do
  let (chain, steps) ← normalizeTraceRecord sup record
  let plan := planTraceRootDedup steps
  let db := (db.deleteSteps chain.chainID).upsertChain ⟨chain, updatedAt, plan.rootPayload⟩
  let db ← insertSteps db (steps.zipWith stepRow plan.steps)
  let (maxChains, maxSteps) := store.traceLimits
  return pruneTraceChains maxChains maxSteps db

/-! ## The read path -/

/-- One row of the joined query: a root step reads the payload of its chain. -/
def scanStep (rootPayload : Bytes) (row : StepRow) : TraceStep where
  stepID := row.stepID
  chainID := row.chainID
  parentStepID := row.parentStepID.getD ""
  seq := row.seq
  kind := row.kind
  tmuxSession := row.tmuxSession
  paneID := row.paneID
  agentType := row.agentType
  frameID := row.frameID
  parentFrameID := row.parentFrameID
  eventName := row.eventName
  decision := row.decision
  reason := row.reason
  payloadJSON := if row.payloadIsRoot then rootPayload else row.payloadJSON
  beforeJSON := row.beforeJSON
  afterJSON := row.afterJSON
  createdAt := row.createdAt

def getChainRecord (db : DB) (chainID : String) : Option TraceRecord :=
  (db.chainRow chainID).map fun chain =>
    let rows := (db.stepRows chainID).insertionSort fun a b => a.key.le b.key
    { chain := { chain.toTraceChain with stepCount := rows.length }
      steps := rows.map (scanStep chain.rootPayloadJSON) }

end Purdex.Trace
