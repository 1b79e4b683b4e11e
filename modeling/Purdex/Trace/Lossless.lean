/-
The trace store loses nothing: what a transaction stored is read back as it was normalized, however
its payloads were shared, and stays so for as long as retention keeps the chain.
-/
import Purdex.Trace.Store

namespace Purdex.Trace

/-! ## The plan of the payloads -/

/-- Where a planned payload is read from. -/
def StoredTracePayload.read (rootPayload : Bytes) (stored : StoredTracePayload) : Bytes :=
  if stored.isRoot then rootPayload else stored.payload

/-- The plan gives every step a payload, and reading it gives back the stored form. -/
theorem plan_restores (steps : List TraceStep) :
    ∃ g, (planTraceRootDedup steps).steps = steps.map g ∧
      ∀ step, (g step).read (planTraceRootDedup steps).rootPayload = rawJSONText step.payloadJSON := by
  cases steps with
  | nil => exact ⟨fun step => ⟨rawJSONText step.payloadJSON, false⟩, rfl, fun step => rfl⟩
  | cons first rest =>
    simp only [planTraceRootDedup, List.map_cons]
    split
    · exact ⟨fun step => ⟨rawJSONText step.payloadJSON, false⟩, by simp, fun step => rfl⟩
    · refine ⟨fun step => if rawJSONText step.payloadJSON == rawJSONText first.payloadJSON then ⟨[], true⟩
        else ⟨rawJSONText step.payloadJSON, false⟩, by simp, fun step => ?_⟩
      by_cases heq : rawJSONText step.payloadJSON = rawJSONText first.payloadJSON
      · simp [heq, StoredTracePayload.read]
      · simp [heq, StoredTracePayload.read]

/-- The rows a transaction inserts for the steps of a chain. -/
def plannedRows (steps : List TraceStep) : List StepRow :=
  steps.zipWith stepRow (planTraceRootDedup steps).steps

theorem plannedRows_eq (steps : List TraceStep) : ∃ g : TraceStep → StoredTracePayload,
    plannedRows steps = steps.map (fun step => stepRow step (g step)) ∧
      ∀ step, (g step).read (planTraceRootDedup steps).rootPayload = rawJSONText step.payloadJSON := by
  obtain ⟨g, hg, hread⟩ := plan_restores steps
  refine ⟨g, ?_, hread⟩
  rw [plannedRows, hg, List.zipWith_map_right, List.zipWith_self]

theorem getD_nullString (value : String) : (nullString value).getD "" = value := by
  unfold nullString
  split
  · rename_i h
    exact h.symm
  · rfl

/-- A stored row reads back as the step in stored form. -/
theorem scanStep_stepRow {rootPayload : Bytes} {step : TraceStep} {stored : StoredTracePayload}
    (h : stored.read rootPayload = rawJSONText step.payloadJSON) :
    scanStep rootPayload (stepRow step stored) = step.stored := by
  rw [TraceStep.stored, ← h]
  simp only [scanStep, stepRow, getD_nullString]
  rfl

theorem scan_plannedRows (steps : List TraceStep) :
    (plannedRows steps).map (scanStep (planTraceRootDedup steps).rootPayload) = steps.map TraceStep.stored := by
  obtain ⟨g, hg, hread⟩ := plannedRows_eq steps
  rw [hg, List.map_map]
  exact List.map_congr_left fun step _ => scanStep_stepRow (hread step)

theorem plannedRows_keys (steps : List TraceStep) : (plannedRows steps).map StepRow.key = steps.map TraceStep.key := by
  obtain ⟨g, hg, _⟩ := plannedRows_eq steps
  rw [hg, List.map_map]
  rfl

theorem mem_plannedRows {steps : List TraceStep} {row : StepRow} (h : row ∈ plannedRows steps) :
    ∃ step ∈ steps, row.stepID = step.stepID ∧ row.chainID = step.chainID ∧ row.parentStepID = nullString step.parentStepID := by
  obtain ⟨g, hg, _⟩ := plannedRows_eq steps
  rw [hg] at h
  obtain ⟨step, hstep, rfl⟩ := List.mem_map.1 h
  exact ⟨step, hstep, rfl, rfl, rfl⟩

/-! ## Normalization -/

instance : Std.Total SortKey.le where
  total a b := by
    unfold SortKey.le
    have := le_total a.stepID b.stepID
    grind

instance : IsTrans SortKey SortKey.le where
  trans a b c hab hbc := by
    unfold SortKey.le at *
    have := @le_trans _ _ a.stepID b.stepID c.stepID
    grind

/-- What normalization fills in: an empty field takes a default, any other is kept. -/
structure Fills (step filled : TraceStep) : Prop where
  stepID : step.stepID ≠ "" → filled.stepID = step.stepID
  chainID : step.chainID ≠ "" → filled.chainID = step.chainID
  parentStepID : filled.parentStepID = step.parentStepID
  seq : step.seq ≠ 0 → filled.seq = step.seq
  kind : filled.kind = step.kind
  tmuxSession : step.tmuxSession ≠ "" → filled.tmuxSession = step.tmuxSession
  paneID : step.paneID ≠ "" → filled.paneID = step.paneID
  agentType : step.agentType ≠ "" → filled.agentType = step.agentType
  frameID : filled.frameID = step.frameID
  parentFrameID : filled.parentFrameID = step.parentFrameID
  eventName : step.eventName ≠ "" → filled.eventName = step.eventName
  decision : filled.decision = step.decision
  reason : filled.reason = step.reason
  payloads : filled.payloadJSON = step.payloadJSON ∧ filled.beforeJSON = step.beforeJSON ∧ filled.afterJSON = step.afterJSON
  createdAt : step.createdAt ≠ 0 → filled.createdAt = step.createdAt

theorem orText_of_ne {value default : String} (h : value ≠ "") : orText value default = value :=
  if_neg h

theorem orInt_of_ne {value default : Int} (h : value ≠ 0) : orInt value default = value :=
  if_neg h

theorem fillStep_ok {sup : Supply} {i : Nat} {chain chain' : TraceChain} {step step' : TraceStep}
    (h : fillStep sup i chain step = .ok (chain', step')) :
    Fills step step' ∧ step'.chainID = chain.chainID ∧ chain'.chainID = chain.chainID := by
  simp only [fillStep] at h
  split at h
  · cases h
  · rename_i hid
    cases h
    exact ⟨⟨orText_of_ne, orText_of_ne, rfl, orInt_of_ne, rfl, orText_of_ne, orText_of_ne, orText_of_ne, rfl, rfl,
      orText_of_ne, rfl, rfl, ⟨rfl, rfl, rfl⟩, orInt_of_ne⟩, not_not.1 hid, rfl⟩

theorem except_bind_ok {ε α β : Type} {x : Except ε α} {f : α → Except ε β} {b : β} (h : (x >>= f) = .ok b) :
    ∃ a, x = .ok a ∧ f a = .ok b := by
  cases x with
  | error e => cases h
  | ok a => exact ⟨a, rfl, h⟩

theorem fillSteps_ok {sup : Supply} : ∀ {i : Nat} {chain chain' : TraceChain} {steps steps' : List TraceStep},
    fillSteps sup i chain steps = .ok (chain', steps') →
      List.Forall₂ Fills steps steps' ∧ (∀ step ∈ steps', step.chainID = chain.chainID) ∧ chain'.chainID = chain.chainID
  | _, _, _, [], _, h => by
    cases h
    exact ⟨.nil, by simp, rfl⟩
  | i, chain, _, step :: steps, _, h => by
    obtain ⟨⟨c₁, s₁⟩, h₁, h⟩ := except_bind_ok h
    obtain ⟨⟨c₂, ss⟩, h₂, h⟩ := except_bind_ok h
    cases h
    obtain ⟨hf, hid, hc⟩ := fillStep_ok h₁
    obtain ⟨hfs, hids, hcs⟩ := fillSteps_ok h₂
    refine ⟨.cons hf hfs, ?_, hcs.trans hc⟩
    intro step hstep
    rcases List.mem_cons.1 hstep with rfl | hstep
    · exact hid
    · exact (hids step hstep).trans hc

/-- What normalization makes of a record. -/
structure Normalized (record : TraceRecord) (chain : TraceChain) (steps : List TraceStep) : Prop where
  filled : ∃ filled, List.Forall₂ Fills record.steps filled ∧ steps.Perm filled
  sorted : steps.Pairwise fun a b => a.key.le b.key
  parents : checkParents [] steps = .ok ()
  chainID : record.chain.chainID ≠ "" → chain.chainID = record.chain.chainID
  ownSteps : ∀ step ∈ steps, step.chainID = chain.chainID
  stepCount : chain.stepCount = steps.length

theorem summarize_chainID (sup : Supply) (chain : TraceChain) (steps : List TraceStep) :
    (summarize sup chain steps).chainID = chain.chainID := by
  unfold summarize
  dsimp only
  split <;> rfl

theorem normalizeTraceRecord_ok {sup : Supply} {record : TraceRecord} {chain : TraceChain} {steps : List TraceStep}
    (h : normalizeTraceRecord sup record = .ok (chain, steps)) : Normalized record chain steps := by
  obtain ⟨⟨c, filled⟩, hfill, h⟩ := except_bind_ok h
  obtain ⟨⟨⟩, hparents, h⟩ := except_bind_ok h
  cases h
  obtain ⟨hf, hids, hc⟩ := fillSteps_ok hfill
  have hid : (summarize sup c (filled.insertionSort fun a b => a.key.le b.key)).chainID =
      orText record.chain.chainID sup.chainID := (summarize_chainID sup c _).trans hc
  have htotal : Std.Total fun a b : TraceStep => a.key.le b.key := ⟨fun a b => Std.Total.total a.key b.key⟩
  have htrans : IsTrans TraceStep fun a b => a.key.le b.key := ⟨fun a b c => trans_of SortKey.le (a := a.key)⟩
  exact {
    filled := ⟨filled, hf, List.perm_insertionSort _ filled⟩
    sorted := List.pairwise_insertionSort _ filled
    parents := hparents
    chainID := fun hne => hid.trans (orText_of_ne hne)
    ownSteps := fun step hstep => (hids step ((List.mem_insertionSort _).1 hstep)).trans hid.symm
    stepCount := by unfold summarize; dsimp only }

/-! ## What the statements do to the rows of one chain -/

namespace DB

variable {db db' : DB} {id : String}

/-- The two tables agree on a chain: its row and the rows of its steps. -/
def Same (id : String) (db db' : DB) : Prop :=
  db'.chainRow id = db.chainRow id ∧ db'.stepRows id = db.stepRows id

theorem Same.trans {db₁ db₂ db₃ : DB} (h : Same id db₁ db₂) (h' : Same id db₂ db₃) : Same id db₁ db₃ :=
  ⟨h'.1.trans h.1, h'.2.trans h.2⟩

theorem stepRows_deleteSteps_self (db : DB) (id : String) : (db.deleteSteps id).stepRows id = [] := by
  simp [stepRows, deleteSteps]

theorem same_deleteSteps {other : String} (h : other ≠ id) (db : DB) : Same id db (db.deleteSteps other) := by
  refine ⟨rfl, ?_⟩
  simp only [stepRows, deleteSteps, List.filter_filter]
  refine List.filter_congr fun row _ => ?_
  by_cases hrow : row.chainID = id
  · simp [hrow, Ne.symm h]
  · simp [hrow]

@[simp] theorem upsertChain_steps (db : DB) (row : ChainRow) : (db.upsertChain row).steps = db.steps := by
  unfold upsertChain
  split <;> rfl

theorem chainRow_upsertChain_self (db : DB) (row : ChainRow) : (db.upsertChain row).chainRow row.chainID = some row := by
  unfold upsertChain chainRow
  split
  · rename_i hmem
    obtain ⟨r, hr, heq⟩ := List.mem_map.1 hmem
    rw [List.find?_map]
    cases hf : db.chains.find? ((fun x : ChainRow => decide (x.chainID = row.chainID)) ∘
        fun x => if x.chainID = row.chainID then row else x) with
    | none =>
      have := List.find?_eq_none.1 hf r hr
      simp [heq] at this
    | some r' =>
      have hr' := List.find?_some hf
      have hid : r'.chainID = row.chainID := by
        by_contra hne
        simp [hne] at hr'
      simp [hid]
  · rename_i hnot
    dsimp only
    rw [List.find?_append, List.find?_eq_none.2 fun r hr => ?_]
    · simp
    · simpa using fun heq => hnot (List.mem_map.2 ⟨r, hr, heq⟩)

theorem same_upsertChain {row : ChainRow} (h : row.chainID ≠ id) (db : DB) : Same id db (db.upsertChain row) := by
  refine ⟨?_, by simp [stepRows]⟩
  unfold upsertChain chainRow
  split
  · dsimp only
    rw [List.find?_map]
    have hcomp : ((fun x : ChainRow => decide (x.chainID = id)) ∘ fun x => if x.chainID = row.chainID then row else x) =
        fun x => decide (x.chainID = id) := by
      funext x
      dsimp only [Function.comp]
      split
      · rename_i heq
        rw [heq]
      · rfl
    rw [hcomp]
    cases hf : db.chains.find? (fun x => decide (x.chainID = id)) with
    | none => rfl
    | some r =>
      have hr : r.chainID = id := by simpa using List.find?_some hf
      simp [hr, Ne.symm h]
  · simp [List.find?_append, h]

theorem insertStep_ok {row : StepRow} (h : db.insertStep row = .ok db') :
    db'.chains = db.chains ∧ db'.steps = db.steps ++ [row] := by
  unfold insertStep at h
  split at h
  · split at h
    · cases h
      exact ⟨rfl, rfl⟩
    · cases h
  · cases h

theorem insertSteps_ok : ∀ {rows : List StepRow} {db : DB}, insertSteps db rows = .ok db' →
    db'.chains = db.chains ∧ db'.steps = db.steps ++ rows
  | [], db, h => by
    cases h
    simp
  | row :: rows, db, h => by
    obtain ⟨db₁, h₁, h₂⟩ := except_bind_ok h
    obtain ⟨hc, hs⟩ := insertStep_ok h₁
    obtain ⟨hc', hs'⟩ := insertSteps_ok h₂
    exact ⟨hc'.trans hc, by rw [hs', hs]; simp⟩

/-- The rows of the inserted steps' own chain come after those it had. -/
theorem stepRows_insertSteps {rows : List StepRow} (h : insertSteps db rows = .ok db')
    (hrows : ∀ row ∈ rows, row.chainID = id) : db'.stepRows id = db.stepRows id ++ rows := by
  have hown : rows.filter (·.chainID = id) = rows := List.filter_eq_self.2 (by simpa using hrows)
  rw [stepRows, (insertSteps_ok h).2, List.filter_append, hown]
  rfl

theorem same_insertSteps {rows : List StepRow} {other : String} (h : insertSteps db rows = .ok db')
    (hrows : ∀ row ∈ rows, row.chainID = other) (hne : other ≠ id) : Same id db db' := by
  refine ⟨by rw [chainRow, (insertSteps_ok h).1]; rfl, ?_⟩
  have hown : rows.filter (·.chainID = id) = [] :=
    List.filter_eq_nil_iff.2 fun row hrow => by simpa [hrows row hrow] using hne
  rw [stepRows, (insertSteps_ok h).2, List.filter_append, hown, List.append_nil]
  rfl

/-- Retention keeps a chain with all its steps, or drops it. -/
theorem same_deleteChains {ids : List String} (h : ((db.deleteChains ids).chainRow id).isSome) :
    Same id db (db.deleteChains ids) := by
  have hid : id ∉ ids := by
    obtain ⟨row, hrow⟩ := Option.isSome_iff_exists.1 h
    have hmem := List.mem_of_find?_eq_some hrow
    have heq : row.chainID = id := by simpa using List.find?_some hrow
    simpa [deleteChains, heq] using (List.mem_filter.1 hmem).2
  constructor
  · simp only [chainRow, deleteChains, List.find?_filter]
    congr 1
    funext row
    by_cases hrow : row.chainID = id
    · simp [hrow, hid]
    · simp [hrow]
  · simp only [stepRows, deleteChains, List.filter_filter]
    refine List.filter_congr fun row _ => ?_
    by_cases hrow : row.chainID = id
    · simp [hrow, hid]
    · simp [hrow]

end DB

/-! ## One transaction -/

section Save

variable {store : TraceStore} {sup : Supply} {updatedAt : Int} {record : TraceRecord} {db db' : DB} {id : String}

/-- The steps of an accepted transaction, in order. -/
theorem saveChain_steps (h : store.saveChain sup updatedAt record db = .ok db') :
    ∃ chain steps db₁, normalizeTraceRecord sup record = .ok (chain, steps) ∧
      insertSteps ((db.deleteSteps chain.chainID).upsertChain ⟨chain, updatedAt, (planTraceRootDedup steps).rootPayload⟩)
        (plannedRows steps) = .ok db₁ ∧
      ∃ ids, db' = db₁.deleteChains ids := by
  obtain ⟨⟨chain, steps⟩, hn, h⟩ := except_bind_ok h
  obtain ⟨db₁, hi, h⟩ := except_bind_ok h
  cases h
  exact ⟨chain, steps, db₁, hn, hi, _, rfl⟩

theorem plannedRows_chainID {chain : TraceChain} {steps : List TraceStep} (hn : Normalized record chain steps) :
    ∀ row ∈ plannedRows steps, row.chainID = chain.chainID := by
  intro row hrow
  obtain ⟨step, hstep, _, hid, _⟩ := mem_plannedRows hrow
  exact hid.trans (hn.ownSteps step hstep)

/-- What a chain that survives its own transaction consists of: nothing of an earlier record. -/
structure Holds (db : DB) (chain : TraceChain) (steps : List TraceStep) : Prop where
  chainRow : ∃ updatedAt, db.chainRow chain.chainID = some ⟨chain, updatedAt, (planTraceRootDedup steps).rootPayload⟩
  stepRows : db.stepRows chain.chainID = plannedRows steps

theorem Holds.same {chain : TraceChain} {steps : List TraceStep} (h : Holds db chain steps)
    (hs : DB.Same chain.chainID db db') : Holds db' chain steps :=
  ⟨h.chainRow.imp fun _ hrow => hs.1.trans hrow, hs.2.trans h.stepRows⟩

theorem saveChain_holds {chain : TraceChain} {steps : List TraceStep}
    (hn : normalizeTraceRecord sup record = .ok (chain, steps)) (h : store.saveChain sup updatedAt record db = .ok db')
    (hsurvives : (db'.chainRow chain.chainID).isSome) : Holds db' chain steps := by
  obtain ⟨chain', steps', db₁, hn', hi, ids, rfl⟩ := saveChain_steps h
  obtain ⟨rfl, rfl⟩ : chain' = chain ∧ steps' = steps := by simpa using hn'.symm.trans hn
  have hrows := plannedRows_chainID (normalizeTraceRecord_ok hn)
  refine Holds.same ⟨⟨updatedAt, ?_⟩, ?_⟩ (DB.same_deleteChains hsurvives)
  · have hc := (DB.insertSteps_ok hi).1
    rw [DB.chainRow, hc]
    exact DB.chainRow_upsertChain_self _ ⟨chain', updatedAt, _⟩
  · rw [DB.stepRows_insertSteps hi hrows, DB.stepRows, DB.upsertChain_steps]
    rw [show (db.deleteSteps chain'.chainID).steps.filter (·.chainID = chain'.chainID) = [] from
      DB.stepRows_deleteSteps_self db chain'.chainID, List.nil_append]

/-- A transaction of another chain leaves a chain alone, unless retention drops it. -/
theorem saveChain_same {chain : TraceChain} {steps : List TraceStep}
    (hn : normalizeTraceRecord sup record = .ok (chain, steps)) (hne : chain.chainID ≠ id)
    (h : store.saveChain sup updatedAt record db = .ok db') (hsurvives : (db'.chainRow id).isSome) : DB.Same id db db' := by
  obtain ⟨chain', steps', db₁, hn', hi, ids, rfl⟩ := saveChain_steps h
  obtain ⟨rfl, rfl⟩ : chain' = chain ∧ steps' = steps := by simpa using hn'.symm.trans hn
  have hrows := plannedRows_chainID (normalizeTraceRecord_ok hn)
  exact (((DB.same_deleteSteps hne db).trans (DB.same_upsertChain hne _)).trans
    (DB.same_insertSteps hi hrows hne)).trans (DB.same_deleteChains hsurvives)

end Save

/-! ## Reading back -/

/-- A run of later transactions, each of another chain; refused ones change nothing. -/
inductive Later (store : TraceStore) (id : String) : DB → DB → Prop where
  | refl (db) : Later store id db db
  | save {db db₁ db₂ sup updatedAt record chain steps} : Later store id db db₁ →
      normalizeTraceRecord sup record = .ok (chain, steps) → chain.chainID ≠ id →
      store.saveChain sup updatedAt record db₁ = .ok db₂ → Later store id db db₂

/-- A chain that is there at the end of such a run was there all along. -/
theorem Later.holds {store : TraceStore} {db db' : DB} {chain : TraceChain} {steps : List TraceStep}
    (hl : Later store chain.chainID db db') (hsurvives : (db'.chainRow chain.chainID).isSome)
    (h : (db.chainRow chain.chainID).isSome → Holds db chain steps) : Holds db' chain steps := by
  induction hl with
  | refl => exact h hsurvives
  | save _ hn hne hs ih =>
    have hsame := saveChain_same hn hne hs hsurvives
    exact (ih (hsame.1 ▸ hsurvives)).same hsame

theorem Holds.getChainRecord {db : DB} {chain : TraceChain} {steps : List TraceStep} (h : Holds db chain steps)
    (hsorted : steps.Pairwise fun a b => a.key.le b.key) (hcount : chain.stepCount = steps.length) :
    getChainRecord db chain.chainID = some ⟨chain, steps.map TraceStep.stored⟩ := by
  obtain ⟨updatedAt, hrow⟩ := h.chainRow
  have hkeys : (plannedRows steps).Pairwise fun a b => a.key.le b.key := by
    rw [← List.pairwise_map (f := StepRow.key) (R := SortKey.le), plannedRows_keys, List.pairwise_map]
    exact hsorted
  have hlen : (plannedRows steps).length = chain.stepCount := by
    rw [hcount, ← List.length_map (f := StepRow.key), plannedRows_keys, List.length_map]
  rw [Trace.getChainRecord, hrow, h.stepRows, hkeys.insertionSort_eq]
  simp only [Option.map_some, hlen, scan_plannedRows]

/-- What a transaction accepted is read back in order, every field as normalized and every payload
byte for byte in its stored form, and no step or payload of an earlier record of the chain is left,
for as long as retention keeps the chain. -/
theorem saveChain_lossless (store : TraceStore) (sup : Supply) (updatedAt : Int) (record : TraceRecord) (db db' db'' : DB)
    (chain : TraceChain) (steps : List TraceStep) (hn : normalizeTraceRecord sup record = .ok (chain, steps))
    (hs : store.saveChain sup updatedAt record db = .ok db') (hl : Later store chain.chainID db' db'')
    (hsurvives : (db''.chainRow chain.chainID).isSome) :
    Normalized record chain steps ∧ getChainRecord db'' chain.chainID = some ⟨chain, steps.map TraceStep.stored⟩ ∧
      (db''.stepRows chain.chainID).map (·.stepID) = steps.map (·.stepID) ∧
      (db''.chainRow chain.chainID).map (·.rootPayloadJSON) = some (planTraceRootDedup steps).rootPayload := by
  have hnorm := normalizeTraceRecord_ok hn
  have hholds := hl.holds hsurvives (saveChain_holds hn hs)
  refine ⟨hnorm, hholds.getChainRecord hnorm.sorted hnorm.stepCount, ?_, ?_⟩
  · rw [hholds.stepRows]
    have hkeys := congrArg (List.map SortKey.stepID) (plannedRows_keys steps)
    rw [List.map_map, List.map_map] at hkeys
    exact hkeys
  · obtain ⟨_, hrow⟩ := hholds.chainRow
    rw [hrow]
    rfl

/-- A chain of three steps, two of which share a sequence number and two a payload. -/
def sampleRecord : TraceRecord where
  chain := ⟨"c", 0, 0, "", "", "", "%1", "cc", "", "", "", "", "", 0⟩
  steps := [⟨"b", "", "a", 1, "frame", "", "", "", "", "", "", "", "", [123, 125], [], [], 7⟩,
    ⟨"a", "", "", 1, "request", "", "", "", "", "", "", "", "", [123, 125], [], [], 7⟩,
    ⟨"d", "", "b", 2, "status", "", "", "", "", "", "", "", "", [], [], [], 8⟩]

theorem saveChain_lossless_sample :
    ∃ chain steps db', getChainRecord db' "c" = some ⟨chain, steps⟩ ∧ steps.map (·.stepID) = ["a", "b", "d"] ∧
      steps.map (·.payloadJSON) = [[123, 125], [123, 125], nullText] := by
  have hsaved := saveChain_lossless ⟨0, 0⟩ ⟨"", fun _ => "", fun _ => 0⟩ 9 sampleRecord DB.empty _ _ _ _ rfl rfl (.refl _) rfl
  exact ⟨_, _, _, hsaved.2.1, rfl, rfl⟩

end Purdex.Trace
