/-
The sender of the queued reports: what its passes over the outbox post, in which order, and with what
it takes from the answers of the server.
-/
import Purdex.Dispatch.Reports
import Mathlib

namespace Purdex.Dispatch

open Conc

/-! ## The world of the sender -/

inductive ReportResult where
  | acked (ackSeq : Int)
  | acceptedRequired
  | unauthorized (err : String)
  | schemaIncompatible (err : String)
  | failed (err : String)
  deriving Repr, DecidableEq

/-- What the server answers to one POST, and how long it takes. -/
structure ServerTurn where
  result : ReportResult
  elapsed : Nat
  deriving Repr, DecidableEq

/-- A report that was posted, with the outbox and the cursor of its execution as they were. -/
structure Post where
  report : OutboxRecord
  outbox : List OutboxRecord
  cursor : Int
  result : ReportResult
  deriving Repr, DecidableEq

/-- The database with its cursors, the clock, and what was posted so far, newest first. -/
structure World where
  db : Tables
  cursors : String → Option Int
  now : Int
  posts : List Post

/-- Whether rows can be read, and the backoff in seconds. -/
structure Sender where
  reader : Bool
  backoff : Nat → Nat

/-- Exponential from one second, capped at five minutes. -/
def defaultReportBackoff (attempts : Nat) : Nat := min (2 ^ (attempts - 1)) 300

inductive SendOutcome where
  | ok
  | acceptedRequired
  | defer
  deriving Repr, DecidableEq

namespace World

variable (w : World)

def outbox : List OutboxRecord := w.db.reportOutbox

/-- 0 where nothing was acked. -/
def cursor (execID : String) : Int := (w.cursors execID).getD 0

def recordBySeq (execID : String) (seq : Nat) : Option OutboxRecord :=
  w.outbox.find? fun r => r.executionID = execID ∧ r.seq = seq

/-- Neither acked nor failed for good, in the order of their seqs. -/
def unackedRecords (execID : String) : List OutboxRecord :=
  (w.outbox.filter fun r => r.executionID = execID ∧ r.acked = false ∧ r.permanent = false).insertionSort (·.seq ≤ ·.seq)

def dueExecutions : List String :=
  ((w.outbox.filter fun r => r.acked = false ∧ r.permanent = false ∧ r.nextAttemptAt ≤ w.now).map (·.executionID)).dedup.insertionSort (· ≤ ·)

def updateRecord (id : Nat) (change : OutboxRecord → OutboxRecord) : World :=
  { w with db := { w.db with reportOutbox := w.db.reportOutbox.map fun r => if r.id = id then change r else r } }

def markAcked (id : Nat) : World := w.updateRecord id fun r => { r with acked := true, updatedAt := w.now }

def markAttempt (id : Nat) (nextAttemptAt : Int) (err : String) : World :=
  w.updateRecord id fun r => { r with attempts := r.attempts + 1, nextAttemptAt, lastError := err, updatedAt := w.now }

def markPermanent (id : Nat) (err : String) : World :=
  w.updateRecord id fun r => { r with permanent := true, attempts := r.attempts + 1, lastError := err, updatedAt := w.now }

/-- The larger of the two, where there is a cursor already. -/
def advanceCursor (execID : String) (ackSeq : Int) : World :=
  { w with cursors := fun id => if id = execID then some ((w.cursors execID).elim ackSeq (max · ackSeq)) else w.cursors id }

def enqueue (rec : OutboxRecord) : Except StoreError Bool × World :=
  match (enqueueReport w.now rec).run w.db with
  | .ok (inserted, db) => (.ok inserted, { w with db })
  | .error e => (.error e, w)

/-- The report goes out, and is answered. -/
def post (rec : OutboxRecord) (turn : ServerTurn) : World :=
  { w with now := w.now + turn.elapsed, posts := ⟨rec, w.outbox, w.cursor rec.executionID, turn.result⟩ :: w.posts }

end World

/-! ## A pass -/

section Pass

variable (s : Sender) (server : Nat → ServerTurn)

def sendOne (rec : OutboxRecord) (w : World) : (Int × SendOutcome) × World :=
  let turn := server w.posts.length
  let posted := w.post rec turn
  match turn.result with
  | .acked ackSeq =>
    let advanced := posted.advanceCursor rec.executionID ackSeq
    ((ackSeq, .ok), if rec.seq ≤ ackSeq then advanced.markAcked rec.id else advanced)
  | .acceptedRequired => ((0, .acceptedRequired), posted)
  | .unauthorized err | .schemaIncompatible err => ((0, .defer), posted.markPermanent rec.id err)
  | .failed err => ((0, .defer), posted.markAttempt rec.id (posted.now + s.backoff (rec.attempts + 1)) err)

/-- The accepted report, as it would have been queued with its row. -/
def reconstructAccepted (execID : String) (w : World) : Except StoreError (Option OutboxRecord) × World :=
  if s.reader = false then (.ok none, w)
  else match w.db.executions.find? (·.executionID = execID) with
    | none => (.ok none, w)
    | some row =>
      match w.enqueue {
        id := 0
        executionID := row.executionID
        dispatchID := row.dispatchID
        seq := 1
        status := .accepted
        payload := some (buildAcceptedPayload row)
        attempts := 0
        nextAttemptAt := 0
        acked := false
        permanent := false
        lastError := ""
        createdAt := 0
        updatedAt := 0 } with
      | (.error e, w) => (.error e, w)
      | (.ok _, w) => (.ok (w.recordBySeq execID 1), w)

/-- The accepted report of the outbox, or else of the row. -/
def acceptedRecord (execID : String) (w : World) : Except StoreError (Option OutboxRecord) × World :=
  match w.recordBySeq execID 1 with
  | some rec => (.ok (some rec), w)
  | none => reconstructAccepted s execID w

def ensureAccepted (execID : String) (force : Bool) (w : World) : Except StoreError Unit × World :=
  match acceptedRecord s execID w with
  | (.error e, w) => (.error e, w)
  | (.ok none, w) => (.ok (), w)
  | (.ok (some rec), w) =>
    if rec.permanent = true then (.ok (), w)
    else if rec.acked = true ∧ force = false then (.ok (), w)
    else if force = false ∧ w.now < rec.nextAttemptAt then (.ok (), w)
    else (.ok (), (sendOne s server rec w).2)

/-- The loop over the reports of one execution. -/
def sendRecords (execID : String) (now : Int) : List OutboxRecord → Int → World → Except StoreError Unit × World
  | [], _, w => (.ok (), w)
  | rec :: rest, ackSeq, w =>
    if rec.status = .accepted then sendRecords execID now rest ackSeq w
    else if rec.seq ≤ ackSeq then sendRecords execID now rest ackSeq (w.markAcked rec.id)
    else if now < rec.nextAttemptAt then sendRecords execID now rest ackSeq w
    else
      match sendOne s server rec w with
      | ((newAck, .ok), w) => sendRecords execID now rest (if ackSeq < newAck then newAck else ackSeq) w
      | ((_, .acceptedRequired), w) => ensureAccepted s server execID true w
      | ((_, .defer), w) => (.ok (), w)

/-- No lifecycle report goes out before the accepted one is acked. -/
def passGate (execID : String) (w : World) : Except StoreError Unit × World :=
  if w.cursor execID < 1 then ensureAccepted s server execID false w else (.ok (), w)

def flushExecution (execID : String) (w : World) : Except StoreError Unit × World :=
  match passGate s server execID w with
  | (.error e, w) => (.error e, w)
  | (.ok (), w) =>
    if w.cursor execID < 1 then (.ok (), w)
    else sendRecords s server execID w.now (w.unackedRecords execID) (w.cursor execID) w

def flushAll : List String → World → List StoreError × World
  | [], w => ([], w)
  | execID :: rest, w =>
    let (out, w) := flushExecution s server execID w
    let (errs, w) := flushAll rest w
    match out with
    | .error e => (e :: errs, w)
    | .ok () => (errs, w)

def flush (w : World) : List StoreError × World := flushAll s server w.dueExecutions w

end Pass

/-! ## Events -/

/-- A report to be queued; the accepted report is the first one of its execution. -/
structure QueuedReport where
  executionID : String
  dispatchID : String
  seq : Nat
  status : Status
  payload : Option ReportPayload
  anchored : status = .accepted ↔ seq = 1

inductive SenderEvent where
  | enqueue (report : QueuedReport)
  | flush (server : Nat → ServerTurn)
  | advance (seconds : Nat)
  | executions (rows : List Execution)

def SenderEvent.step (s : Sender) (ev : SenderEvent) (w : World) : List StoreError × World :=
  match ev with
  | enqueue report =>
    match w.enqueue {
      id := 0
      executionID := report.executionID
      dispatchID := report.dispatchID
      seq := report.seq
      status := report.status
      payload := report.payload
      attempts := 0
      nextAttemptAt := 0
      acked := false
      permanent := false
      lastError := ""
      createdAt := 0
      updatedAt := 0 } with
    | (.ok _, w) => ([], w)
    | (.error e, w) => ([e], w)
  | flush server => Dispatch.flush s server w
  | advance seconds => ([], { w with now := w.now + seconds })
  | executions rows => ([], { w with db := { w.db with executions := rows } })

abbrev SenderStep := Served World SenderEvent (List StoreError)

/-- Nothing was queued, acked or posted. -/
def Idle (w : World) : Prop := w.outbox = [] ∧ (∀ id, w.cursors id = none) ∧ w.posts = []

abbrev SenderRuns (s : Sender) (ok : World → SenderEvent → Prop) : World → List SenderStep → Prop := Serves (SenderEvent.step s) Idle ok

/-! ## Order -/

/-- The report is through, or will never be. -/
def OutboxRecord.Settled (r : OutboxRecord) (cursor : Int) : Prop := r.acked = true ∨ r.seq ≤ cursor ∨ r.permanent = true

/-- What holds of a POST, after those before it. -/
structure Ordered (p : Post) (earlier : List Post) : Prop where
  gated : p.report.status ≠ .accepted → 1 ≤ p.cursor
  inOrder : ∀ r ∈ p.outbox, r.executionID = p.report.executionID → r.seq < p.report.seq → r.Settled p.cursor
  once : (∃ r ∈ p.outbox, r.id = p.report.id ∧ r.acked = true) ∨ p.report.seq ≤ p.cursor →
    p.report.status = .accepted ∧ ∃ q ∈ earlier.head?, q.report.executionID = p.report.executionID ∧ q.result = .acceptedRequired
  permanent : ∀ r ∈ p.outbox, r.id = p.report.id → r.permanent = false
  forward : ∀ q ∈ earlier, q.report.executionID = p.report.executionID → q.cursor ≤ p.cursor

/-- Each POST in its order, and cursors that do not go back. -/
structure InOrder (s : Sender) (w : World) (t : List SenderStep) : Prop where
  posts : ∀ later p earlier, w.posts = later ++ p :: earlier → Ordered p earlier
  current : ∀ p ∈ w.posts, p.cursor ≤ w.cursor p.report.executionID
  cursors : ∀ e ∈ t, ∀ execID, e.pre.cursor execID ≤ ((e.request.step s e.pre).2).cursor execID

/-- None of the reports is due. -/
def NoneDue (now : Int) (recs : List OutboxRecord) : Prop := ∀ r ∈ recs, now < r.nextAttemptAt

/-- After a report that is passed over for its backoff, or that its ack does not reach, no other is due. -/
def Orderly (server : Nat → ServerTurn) (now : Int) : List OutboxRecord → Int → Nat → Prop
  | [], _, _ => True
  | rec :: rest, ackSeq, n =>
    if rec.status = .accepted then Orderly server now rest ackSeq n
    else if rec.seq ≤ ackSeq then Orderly server now rest ackSeq n
    else if now < rec.nextAttemptAt then NoneDue now rest
    else match (server n).result with
      | .acked newAck => if rec.seq ≤ newAck then Orderly server now rest (max ackSeq newAck) (n + 1) else NoneDue now rest
      | _ => True

/-- A first ack is not negative. -/
def FirstAckFits (row : Option Int) : ReportResult → Prop
  | .acked ackSeq => row = none → 0 ≤ ackSeq
  | _ => True

/-- The answer to the accepted report that the gate would send. -/
def GateFits (s : Sender) (server : Nat → ServerTurn) (execID : String) (w : World) : Prop :=
  ∀ rec ∈ (acceptedRecord s execID w).1.toOption.join, rec.permanent = false → rec.acked = false → rec.nextAttemptAt ≤ w.now →
    FirstAckFits (w.cursors execID) (server w.posts.length).result

/-- The loop over the reports, where the gate is open. -/
def LoopFits (server : Nat → ServerTurn) (execID : String) (w : World) : Prop :=
  1 ≤ w.cursor execID → Orderly server w.now (w.unackedRecords execID) (w.cursor execID) w.posts.length

def FlushFits (s : Sender) (server : Nat → ServerTurn) : List String → World → Prop
  | [], _ => True
  | execID :: rest, w =>
    (w.cursor execID < 1 → GateFits s server execID w) ∧ LoopFits server execID (passGate s server execID w).2 ∧
      FlushFits s server rest (flushExecution s server execID w).2

/-- What a pass of the sender must not meet. -/
def PassFits (s : Sender) (w : World) : SenderEvent → Prop
  | .flush server => FlushFits s server w.dueExecutions w
  | _ => True

section Decide

variable {s : Sender} {server : Nat → ServerTurn} {w : World} {execID : String} {now : Int}

instance {r : OutboxRecord} {cursor : Int} : Decidable (r.Settled cursor) := inferInstanceAs (Decidable (_ ∨ _ ∨ _))

instance {recs : List OutboxRecord} : Decidable (NoneDue now recs) := inferInstanceAs (Decidable (∀ r ∈ recs, _))

instance decidableOrderly : ∀ recs ackSeq n, Decidable (Orderly server now recs ackSeq n)
  | [], _, _ => inferInstanceAs (Decidable True)
  | rec :: rest, ackSeq, n =>
    have := fun ackSeq n => decidableOrderly rest ackSeq n
    have : ∀ result : ReportResult, Decidable (match result with
      | .acked newAck => if rec.seq ≤ newAck then Orderly server now rest (max ackSeq newAck) (n + 1) else NoneDue now rest
      | _ => True) := fun
      | .acked _ => inferInstanceAs (Decidable (ite _ _ _))
      | .acceptedRequired | .unauthorized _ | .schemaIncompatible _ | .failed _ => inferInstanceAs (Decidable True)
    inferInstanceAs (Decidable (ite _ _ (ite _ _ (ite _ _ _))))

instance {row : Option Int} : ∀ result, Decidable (FirstAckFits row result)
  | .acked _ => inferInstanceAs (Decidable (_ → _))
  | .acceptedRequired | .unauthorized _ | .schemaIncompatible _ | .failed _ => inferInstanceAs (Decidable True)

instance : Decidable (GateFits s server execID w) := inferInstanceAs (Decidable (∀ rec ∈ _, _ → _ → _ → _))

instance : Decidable (LoopFits server execID w) := inferInstanceAs (Decidable (_ → _))

instance decidableFlushFits : ∀ execIDs w, Decidable (FlushFits s server execIDs w)
  | [], _ => inferInstanceAs (Decidable True)
  | execID :: rest, w =>
    have := decidableFlushFits rest (flushExecution s server execID w).2
    inferInstanceAs (Decidable ((_ → _) ∧ _ ∧ _))

instance decidablePassFits : ∀ w ev, Decidable (PassFits s w ev)
  | _, .flush _ => inferInstanceAs (Decidable (FlushFits _ _ _ _))
  | _, .enqueue _ | _, .advance _ | _, .executions _ => inferInstanceAs (Decidable True)

end Decide

/-! ## What the operations keep -/

/-- The records have their own ids and seqs, and what is acked is below the cursor. -/
structure World.Sound (w : World) : Prop where
  ids : (w.outbox.map (·.id)).Nodup
  fresh : ∀ r ∈ w.outbox, r.id < w.db.nextID
  keys : ∀ r ∈ w.outbox, ∀ r' ∈ w.outbox, r.executionID = r'.executionID → r.seq = r'.seq → r = r'
  anchored : ∀ r ∈ w.outbox, 1 ≤ r.seq ∧ (r.status = .accepted ↔ r.seq = 1)
  acked : ∀ r ∈ w.outbox, r.acked = true → r.seq ≤ w.cursor r.executionID
  nonneg : ∀ execID, 0 ≤ w.cursor execID
  posts : ∀ later p earlier, w.posts = later ++ p :: earlier → Ordered p earlier
  current : ∀ p ∈ w.posts, p.cursor ≤ w.cursor p.report.executionID

/-- Nothing goes back: cursors, posts, and what became of the records. -/
structure Grows (w w' : World) : Prop where
  sound : w'.Sound
  cursors : ∀ execID, w.cursor execID ≤ w'.cursor execID

section Keeps

variable {s : Sender} {server : Nat → ServerTurn} {w : World} {execID : String} {rec : OutboxRecord}

theorem Grows.trans {w₁ w₂ : World} (h : Grows w w₁) (h' : Grows w₁ w₂) : Grows w w₂ :=
  ⟨h'.sound, fun execID => (h.cursors execID).trans (h'.cursors execID)⟩

theorem World.Sound.grows (h : w.Sound) : Grows w w := ⟨h, fun _ => le_rfl⟩

theorem World.Sound.eq_of_id (h : w.Sound) {r r' : OutboxRecord} (hr : r ∈ w.outbox) (hr' : r' ∈ w.outbox) (hid : r.id = r'.id) : r = r' :=
  List.inj_on_of_nodup_map h.ids hr hr' hid

theorem mem_updateRecord {id : Nat} {change : OutboxRecord → OutboxRecord} {r : OutboxRecord} :
    r ∈ (w.updateRecord id change).outbox ↔ ∃ r₀ ∈ w.outbox, (if r₀.id = id then change r₀ else r₀) = r :=
  List.mem_map

theorem mem_updateRecord_of_ne {id : Nat} {change : OutboxRecord → OutboxRecord} {r : OutboxRecord} (hr : r ∈ w.outbox) (hne : r.id ≠ id) :
    r ∈ (w.updateRecord id change).outbox :=
  mem_updateRecord.2 ⟨r, hr, if_neg hne⟩

/-- A change of one record that keeps what it is about. -/
theorem World.Sound.updateRecord (h : w.Sound) {id : Nat} {change : OutboxRecord → OutboxRecord}
    (hchange : ∀ r, (change r).id = r.id ∧ (change r).executionID = r.executionID ∧ (change r).seq = r.seq ∧ (change r).status = r.status)
    (hacked : ∀ r ∈ w.outbox, r.id = id → (change r).acked = true → r.seq ≤ w.cursor r.executionID) : (w.updateRecord id change).Sound := by
  have hkept : ∀ r : OutboxRecord, (if r.id = id then change r else r).id = r.id ∧
      (if r.id = id then change r else r).executionID = r.executionID ∧ (if r.id = id then change r else r).seq = r.seq ∧
        (if r.id = id then change r else r).status = r.status := by
    intro r
    split
    · exact hchange r
    · exact ⟨rfl, rfl, rfl, rfl⟩
  have hmem : ∀ r ∈ (w.updateRecord id change).outbox, ∃ r₀ ∈ w.outbox, r = if r₀.id = id then change r₀ else r₀ := by
    intro r hr
    obtain ⟨r₀, hr₀, heq⟩ := mem_updateRecord.1 hr
    exact ⟨r₀, hr₀, heq.symm⟩
  have hids : (w.updateRecord id change).outbox.map (·.id) = w.outbox.map (·.id) := by
    show (w.outbox.map _).map _ = _
    rw [List.map_map]
    exact List.map_congr_left fun r _ => (hkept r).1
  refine ⟨?_, fun r hr => ?_, fun r hr r' hr' hexec hseq => ?_, fun r hr => ?_, fun r hr hr_acked => ?_, h.nonneg, h.posts, h.current⟩
  · rw [hids]
    exact h.ids
  · obtain ⟨r₀, hr₀, rfl⟩ := hmem r hr
    rw [(hkept r₀).1]
    exact h.fresh r₀ hr₀
  · obtain ⟨r₀, hr₀, rfl⟩ := hmem r hr
    obtain ⟨r₁, hr₁, rfl⟩ := hmem r' hr'
    rw [(hkept r₀).2.1, (hkept r₁).2.1] at hexec
    rw [(hkept r₀).2.2.1, (hkept r₁).2.2.1] at hseq
    rw [h.keys r₀ hr₀ r₁ hr₁ hexec hseq]
  · obtain ⟨r₀, hr₀, rfl⟩ := hmem r hr
    rw [(hkept r₀).2.2.1, (hkept r₀).2.2.2]
    exact h.anchored r₀ hr₀
  · obtain ⟨r₀, hr₀, rfl⟩ := hmem r hr
    rw [(hkept r₀).2.1, (hkept r₀).2.2.1]
    show (r₀.seq : Int) ≤ w.cursor r₀.executionID
    by_cases hid : r₀.id = id
    · rw [if_pos hid] at hr_acked
      exact hacked r₀ hr₀ hid hr_acked
    · rw [if_neg hid] at hr_acked
      exact h.acked r₀ hr₀ hr_acked

theorem cursor_advance (w : World) (execID : String) (ackSeq : Int) (id : String) :
    (w.advanceCursor execID ackSeq).cursor id =
      if id = execID then (w.cursors execID).elim ackSeq (max · ackSeq) else w.cursor id := by
  unfold World.cursor World.advanceCursor
  dsimp only
  split <;> rfl

/-- The cursor goes up to what was acked, unless a first ack is negative. -/
theorem le_cursor_advance {ackSeq : Int} (hfirst : w.cursors execID = none → 0 ≤ ackSeq) (id : String) :
    w.cursor id ≤ (w.advanceCursor execID ackSeq).cursor id ∧ ackSeq ≤ (w.advanceCursor execID ackSeq).cursor execID := by
  rw [cursor_advance, cursor_advance, if_pos rfl]
  cases hrow : w.cursors execID with
  | none =>
    refine ⟨?_, le_rfl⟩
    split
    · rename_i heq
      rw [World.cursor, heq, hrow]
      exact hfirst hrow
    · exact le_rfl
  | some c =>
    refine ⟨?_, le_max_right _ _⟩
    split
    · rename_i heq
      rw [World.cursor, heq, hrow]
      exact le_max_left _ _
    · exact le_rfl

theorem World.Sound.advanceCursor (h : w.Sound) (execID : String) (ackSeq : Int) (hfirst : w.cursors execID = none → 0 ≤ ackSeq) :
    Grows w (w.advanceCursor execID ackSeq) := by
  have hle := fun id => (le_cursor_advance (w := w) hfirst id).1
  exact ⟨⟨h.ids, h.fresh, h.keys, h.anchored, fun r hr hacked => (h.acked r hr hacked).trans (hle _), fun id => (h.nonneg id).trans (hle id),
    h.posts, fun p hp => (h.current p hp).trans (hle _)⟩, hle⟩

theorem World.Sound.post (h : w.Sound) (turn : ServerTurn) (hordered : Ordered ⟨rec, w.outbox, w.cursor rec.executionID, turn.result⟩ w.posts) :
    (w.post rec turn).Sound := by
  refine ⟨h.ids, h.fresh, h.keys, h.anchored, h.acked, h.nonneg, ?_, ?_⟩
  · rintro (_ | ⟨_, later⟩) p earlier hposts
    · obtain ⟨rfl, rfl⟩ := List.cons.inj hposts
      exact hordered
    · obtain ⟨_, hposts⟩ := List.cons.inj hposts
      exact h.posts later p earlier hposts
  · rintro p (_ | ⟨_, hp⟩)
    · exact le_rfl
    · exact h.current p hp

/-- An acked record, or one that is behind its cursor, stays so. -/
theorem World.Sound.markAcked (h : w.Sound) {r : OutboxRecord} (hr : r ∈ w.outbox) (hcovered : r.seq ≤ w.cursor r.executionID) :
    (w.markAcked r.id).Sound := by
  refine h.updateRecord (fun _ => ⟨rfl, rfl, rfl, rfl⟩) fun r' hr' hid _ => ?_
  rw [h.eq_of_id hr' hr hid]
  exact hcovered

theorem World.Sound.markPermanent (h : w.Sound) (id : Nat) (err : String) : (w.markPermanent id err).Sound :=
  h.updateRecord (fun _ => ⟨rfl, rfl, rfl, rfl⟩) fun r hr _ hacked => h.acked r hr hacked

theorem World.Sound.markAttempt (h : w.Sound) (id : Nat) (next : Int) (err : String) : (w.markAttempt id next err).Sound :=
  h.updateRecord (fun _ => ⟨rfl, rfl, rfl, rfl⟩) fun r hr _ hacked => h.acked r hr hacked

/-- The order of a POST, but for what is said of the reports of its execution. -/
theorem World.Sound.ordered (h : w.Sound) {result : ReportResult} (hrec : rec ∈ w.outbox) (hpermanent : rec.permanent = false)
    (hgated : rec.status ≠ .accepted → 1 ≤ w.cursor rec.executionID)
    (hbelow : ∀ r ∈ w.outbox, r.executionID = rec.executionID → r.seq < rec.seq → r.Settled (w.cursor rec.executionID))
    (honce : rec.seq ≤ w.cursor rec.executionID →
      rec.status = .accepted ∧ ∃ q ∈ w.posts.head?, q.report.executionID = rec.executionID ∧ q.result = .acceptedRequired) :
    Ordered ⟨rec, w.outbox, w.cursor rec.executionID, result⟩ w.posts := by
  refine ⟨hgated, hbelow, ?_, ?_, ?_⟩
  · rintro (⟨r, hr, hid, hacked⟩ | hcovered)
    · obtain rfl := h.eq_of_id hr hrec hid
      exact honce (h.acked r hr hacked)
    · exact honce hcovered
  · intro r hr hid
    obtain rfl := h.eq_of_id hr hrec hid
    exact hpermanent
  · intro q hq hexec
    have hcurrent := h.current q hq
    rw [hexec] at hcurrent
    exact hcurrent

theorem sendOne_keeps (h : w.Sound) (hrec : rec ∈ w.outbox)
    (hordered : Ordered ⟨rec, w.outbox, w.cursor rec.executionID, (server w.posts.length).result⟩ w.posts)
    (hfirst : ∀ ackSeq, (server w.posts.length).result = .acked ackSeq → w.cursors rec.executionID = none → 0 ≤ ackSeq) :
    Grows w (sendOne s server rec w).2 := by
  have hposted := h.post (server w.posts.length) hordered
  unfold sendOne
  dsimp only
  cases hresult : (server w.posts.length).result with
  | acked ackSeq =>
    have hadvance := hposted.advanceCursor rec.executionID ackSeq (hfirst ackSeq hresult)
    have hcursors : Grows w ((w.post rec (server w.posts.length)).advanceCursor rec.executionID ackSeq) := ⟨hadvance.sound, hadvance.cursors⟩
    dsimp only
    split
    · rename_i hreached
      refine ⟨hadvance.sound.markAcked (r := rec) hrec ?_, hcursors.cursors⟩
      exact hreached.trans (le_cursor_advance (w := w.post rec (server w.posts.length)) (hfirst ackSeq hresult) rec.executionID).2
    · exact hcursors
  | acceptedRequired => exact ⟨hposted, fun _ => le_rfl⟩
  | unauthorized err => exact ⟨hposted.markPermanent rec.id err, fun _ => le_rfl⟩
  | schemaIncompatible err => exact ⟨hposted.markPermanent rec.id err, fun _ => le_rfl⟩
  | failed err => exact ⟨hposted.markAttempt rec.id _ err, fun _ => le_rfl⟩

/-! ### The accepted report -/

theorem enqueue_cases (w : World) (rec : OutboxRecord) : (∃ out, w.enqueue rec = (out, w)) ∨
    (1 ≤ rec.seq ∧ (∀ r ∈ w.outbox, r.executionID = rec.executionID → r.seq ≠ rec.seq) ∧
      ∃ added : OutboxRecord, (added.id = w.db.nextID ∧ added.executionID = rec.executionID ∧ added.seq = rec.seq ∧
          added.status = rec.status ∧ added.acked = false) ∧
        w.enqueue rec = (.ok true, { w with db := { w.db with reportOutbox := w.outbox ++ [added], nextID := w.db.nextID + 1 } })) := by
  unfold World.enqueue enqueueReport
  by_cases hvalid : rec.executionID = "" ∨ rec.dispatchID = "" ∨ rec.seq < 1 ∨ rec.payload = none
  · rw [if_pos hvalid, Tx.run_abort]
    exact .inl ⟨_, rfl⟩
  rw [if_neg hvalid, Tx.run_statement]
  by_cases htaken : ∃ r ∈ w.db.reportOutbox, r.executionID = rec.executionID ∧ r.seq = rec.seq
  · rw [if_pos htaken]
    exact .inl ⟨.ok false, rfl⟩
  · rw [if_neg htaken]
    exact .inr ⟨by omega, fun r hr hexec hseq => htaken ⟨r, hr, hexec, hseq⟩, _, by exact ⟨rfl, rfl, rfl, rfl, rfl⟩, rfl⟩

/-- A report of its own seq, with an id of its own. -/
theorem World.Sound.enqueue (h : w.Sound) (hanchored : rec.status = .accepted ↔ rec.seq = 1) : (w.enqueue rec).2.Sound := by
  rcases enqueue_cases w rec with ⟨out, heq⟩ | ⟨hseq, hfree, added, ⟨hid, hexec, hadded, hstatus, hunacked⟩, heq⟩
  · rw [heq]
    exact h
  rw [heq]
  have hfresh : ∀ r ∈ w.outbox, r.id ≠ added.id := fun r hr => hid ▸ (h.fresh r hr).ne
  refine ⟨?_, ?_, ?_, ?_, ?_, h.nonneg, h.posts, h.current⟩
  · show ((w.outbox ++ [added]).map (·.id)).Nodup
    rw [List.map_append, List.map_singleton]
    refine List.Nodup.append h.ids (List.nodup_singleton _) ?_
    rintro id hmem hid'
    obtain ⟨r, hr, rfl⟩ := List.mem_map.1 hmem
    exact hfresh r hr (List.mem_singleton.1 hid')
  · intro r hr
    show r.id < w.db.nextID + 1
    rcases List.mem_append.1 hr with hr | hr
    · exact (h.fresh r hr).trans (Nat.lt_succ_self _)
    · rw [List.mem_singleton.1 hr, hid]
      exact Nat.lt_succ_self _
  · intro r hr r' hr' hsame hseqs
    rcases List.mem_append.1 hr with hr | hr <;> rcases List.mem_append.1 hr' with hr' | hr'
    · exact h.keys r hr r' hr' hsame hseqs
    · rw [List.mem_singleton.1 hr', hexec] at hsame
      rw [List.mem_singleton.1 hr', hadded] at hseqs
      exact absurd hseqs (hfree r hr hsame)
    · rw [List.mem_singleton.1 hr, hexec] at hsame
      rw [List.mem_singleton.1 hr, hadded] at hseqs
      exact absurd hseqs.symm (hfree r' hr' hsame.symm)
    · rw [List.mem_singleton.1 hr, List.mem_singleton.1 hr']
  · intro r hr
    rcases List.mem_append.1 hr with hr | hr
    · exact h.anchored r hr
    · rw [List.mem_singleton.1 hr, hadded, hstatus]
      exact ⟨hseq, hanchored⟩
  · intro r hr hacked
    rcases List.mem_append.1 hr with hr | hr
    · exact h.acked r hr hacked
    · rw [List.mem_singleton.1 hr, hunacked] at hacked
      cases hacked

theorem enqueue_frame (w : World) (rec : OutboxRecord) :
    (w.enqueue rec).2.cursors = w.cursors ∧ (w.enqueue rec).2.now = w.now ∧ (w.enqueue rec).2.posts = w.posts := by
  rcases enqueue_cases w rec with ⟨out, heq⟩ | ⟨_, _, added, _, heq⟩ <;> rw [heq] <;> exact ⟨rfl, rfl, rfl⟩

theorem World.Sound.enqueue_grows (h : w.Sound) (hanchored : rec.status = .accepted ↔ rec.seq = 1) : Grows w (w.enqueue rec).2 :=
  ⟨h.enqueue hanchored, fun execID => by rw [World.cursor, World.cursor, (enqueue_frame w rec).1]⟩

theorem recordBySeq_some {seq : Nat} (hfound : w.recordBySeq execID seq = some rec) : rec ∈ w.outbox ∧ rec.executionID = execID ∧ rec.seq = seq := by
  refine ⟨List.mem_of_find?_eq_some hfound, ?_⟩
  have hsel := List.find?_some hfound
  exact of_decide_eq_true hsel

/-- What the accepted report is, and what stays as it is looked up. -/
structure Looked (execID : String) (w : World) (out : Except StoreError (Option OutboxRecord) × World) : Prop where
  sound : out.2.Sound
  cursors : out.2.cursors = w.cursors
  now : out.2.now = w.now
  posts : out.2.posts = w.posts
  found : ∀ rec, out.1 = .ok (some rec) → rec ∈ out.2.outbox ∧ rec.executionID = execID ∧ rec.seq = 1

theorem Looked.of_enqueue (h : w.Sound) (hanchored : rec.status = .accepted ↔ rec.seq = 1) :
    Looked execID w (match w.enqueue rec with
      | (.error e, w) => (.error e, w)
      | (.ok _, w) => (.ok (w.recordBySeq execID 1), w)) := by
  have hsound := h.enqueue hanchored
  obtain ⟨hcursors, hnow, hposts⟩ := enqueue_frame w rec
  generalize w.enqueue rec = queued at hsound hcursors hnow hposts ⊢
  obtain ⟨out, w'⟩ := queued
  cases out with
  | error e => exact ⟨hsound, hcursors, hnow, hposts, fun rec hrec => by cases hrec⟩
  | ok _ => exact ⟨hsound, hcursors, hnow, hposts, fun rec hrec => recordBySeq_some (Except.ok.inj hrec)⟩

theorem acceptedRecord_looked (h : w.Sound) : Looked execID w (acceptedRecord s execID w) := by
  have hnone : ∀ out, out = .ok none ∨ (∃ e, out = .error e) → Looked execID w (out, w) := by
    intro out hout
    refine ⟨h, rfl, rfl, rfl, fun rec hrec => ?_⟩
    rcases hout with rfl | ⟨e, rfl⟩ <;> cases hrec
  unfold acceptedRecord
  cases hfound : w.recordBySeq execID 1 with
  | some rec =>
    refine ⟨h, rfl, rfl, rfl, fun rec' hrec => ?_⟩
    cases hrec
    exact recordBySeq_some hfound
  | none =>
    dsimp only
    unfold reconstructAccepted
    split
    · exact hnone _ (.inl rfl)
    cases hrow : w.db.executions.find? (·.executionID = execID) with
    | none => exact hnone _ (.inl rfl)
    | some row => exact .of_enqueue h (by simp)

theorem ensureAccepted_keeps {force : Bool} (h : w.Sound) (hclosed : w.cursor execID < 1 → force = false ∧ GateFits s server execID w)
    (hopen : 1 ≤ w.cursor execID → ∃ q ∈ w.posts.head?, q.report.executionID = execID ∧ q.result = .acceptedRequired) :
    Grows w (ensureAccepted s server execID force w).2 := by
  have hlooked : Looked execID w (acceptedRecord s execID w) := acceptedRecord_looked h
  unfold GateFits at hclosed
  unfold ensureAccepted
  generalize acceptedRecord s execID w = looked at hlooked hclosed ⊢
  obtain ⟨out, w'⟩ := looked
  obtain ⟨hsound, hcursors, hnow, hposts, hfound⟩ := hlooked
  have hgrows : Grows w w' := by
    refine ⟨hsound, fun id => ?_⟩
    rw [World.cursor, World.cursor, hcursors]
  have hcursor : w'.cursor execID = w.cursor execID := by rw [World.cursor, World.cursor, hcursors]
  match out, hfound, hclosed with
  | .error e, _, _ => exact hgrows
  | .ok none, _, _ => exact hgrows
  | .ok (some rec), hfound, hclosed =>
    obtain ⟨hrec, hexec, hseq⟩ := hfound rec rfl
    have haccepted := (hsound.anchored rec hrec).2.2 hseq
    dsimp only
    split
    · exact hgrows
    rename_i hpermanent
    split
    · exact hgrows
    split
    · exact hgrows
    rename_i hunforced hwaiting
    refine hgrows.trans (sendOne_keeps hsound hrec ?_ ?_)
    · refine hsound.ordered hrec (by simpa using hpermanent) (fun hne => absurd haccepted hne) ?_ ?_
      · intro r hr _ hlt
        have hpos := (hsound.anchored r hr).1
        omega
      · intro hcovered
        rw [hexec, hcursor, hseq] at hcovered
        rw [hposts, hexec]
        exact ⟨haccepted, hopen hcovered⟩
    · intro ackSeq hresult hrow
      rw [hexec, hcursors] at hrow
      have hzero : w.cursor execID = 0 := by rw [World.cursor, hrow]; rfl
      obtain ⟨rfl, hfits⟩ := hclosed (by omega)
      have hdue : rec.nextAttemptAt ≤ w'.now := by simpa using hwaiting
      have hfirst := hfits rec rfl (by simpa using hpermanent) (by simpa using hunforced) (hnow ▸ hdue)
      rw [← hposts, hresult] at hfirst
      exact hfirst hrow

/-! ### The loop -/

/-- The reports that a pass still has to look at, behind a gate that is open. -/
structure Pending (w : World) (execID : String) (recs : List OutboxRecord) (ackSeq : Int) : Prop where
  sound : w.Sound
  opened : 1 ≤ ackSeq
  cursor : w.cursor execID = ackSeq
  queued : ∀ r ∈ recs, r ∈ w.outbox ∧ r.executionID = execID ∧ r.permanent = false
  sorted : recs.Pairwise (·.seq < ·.seq)

/-- What the pass does not look at anymore is settled. -/
def Caught (w : World) (execID : String) (recs : List OutboxRecord) (ackSeq : Int) : Prop :=
  ∀ r ∈ w.outbox, r.executionID = execID → r.Settled ackSeq ∨ r ∈ recs

section Loop

variable {recs rest : List OutboxRecord} {ackSeq now : Int}

theorem Pending.tail (h : Pending w execID (rec :: rest) ackSeq) : Pending w execID rest ackSeq :=
  ⟨h.sound, h.opened, h.cursor, fun r hr => h.queued r (List.mem_cons_of_mem _ hr), h.sorted.of_cons⟩

theorem Caught.tail (h : Caught w execID (rec :: rest) ackSeq) (hsettled : rec.Settled ackSeq) : Caught w execID rest ackSeq := by
  intro r hr hexec
  rcases h r hr hexec with h | h
  · exact .inl h
  · rcases List.mem_cons.1 h with rfl | h
    · exact .inl hsettled
    · exact .inr h

theorem Pending.settled_accepted (h : Pending w execID (rec :: rest) ackSeq) (haccepted : rec.status = .accepted) : rec.Settled ackSeq := by
  have hseq := (h.sound.anchored rec (h.queued rec List.mem_cons_self).1).2.1 haccepted
  have hopen := h.opened
  exact .inr (.inl (by omega))

/-- The others keep their ids from the one that is looked at. -/
theorem Pending.id_ne (h : Pending w execID (rec :: rest) ackSeq) {r : OutboxRecord} (hr : r ∈ rest) : r.id ≠ rec.id := by
  intro hid
  have hlt := (List.pairwise_cons.1 h.sorted).1 r hr
  rw [h.sound.eq_of_id (h.queued r (List.mem_cons_of_mem _ hr)).1 (h.queued rec List.mem_cons_self).1 hid] at hlt
  exact lt_irrefl _ hlt

/-- A step over one record that changes no other, up to the acks it got. -/
theorem Pending.next (h : Pending w execID (rec :: rest) ackSeq) {w' : World} {ackSeq' : Int} {id : Nat} {change : OutboxRecord → OutboxRecord}
    (hid : id = rec.id) (hsound : w'.Sound) (hgoes : ackSeq ≤ ackSeq') (hcursor : w'.cursor execID = ackSeq')
    (houtbox : w'.outbox = (w.updateRecord id change).outbox) : Pending w' execID rest ackSeq' := by
  refine ⟨hsound, h.opened.trans hgoes, hcursor, fun r hr => ?_, h.sorted.of_cons⟩
  obtain ⟨hmem, hsame⟩ := h.queued r (List.mem_cons_of_mem _ hr)
  refine ⟨?_, hsame⟩
  rw [houtbox]
  exact mem_updateRecord_of_ne hmem (hid ▸ h.id_ne hr)

theorem OutboxRecord.Settled.mono {r : OutboxRecord} {c c' : Int} (h : r.Settled c) (hle : c ≤ c') : r.Settled c' := by
  rcases h with h | h | h
  · exact .inl h
  · exact .inr (.inl (h.trans hle))
  · exact .inr (.inr h)

theorem Caught.acked (h : Caught w execID (rec :: rest) ackSeq) {w' : World} {ackSeq' : Int} {change : OutboxRecord → OutboxRecord}
    (hgoes : ackSeq ≤ ackSeq') (hacked : ∀ r, (change r).acked = true) (houtbox : w'.outbox = (w.updateRecord rec.id change).outbox) :
    Caught w' execID rest ackSeq' := by
  intro r hr hexec
  rw [houtbox] at hr
  obtain ⟨r₀, hr₀, heq⟩ := mem_updateRecord.1 hr
  split at heq
  · subst heq
    exact .inl (.inl (hacked r₀))
  · subst heq
    rename_i hne
    rcases h r₀ hr₀ hexec with h | h
    · exact .inl (h.mono hgoes)
    · rcases List.mem_cons.1 h with rfl | h
      · exact absurd rfl hne
      · exact .inr h

theorem Pending.markAcked (h : Pending w execID (rec :: rest) ackSeq) (hcovered : rec.seq ≤ ackSeq) :
    Grows w (w.markAcked rec.id) ∧ Pending (w.markAcked rec.id) execID rest ackSeq := by
  obtain ⟨hmem, hexec, _⟩ := h.queued rec List.mem_cons_self
  have hsound : (w.markAcked rec.id).Sound := h.sound.markAcked hmem (by rw [hexec, h.cursor]; exact hcovered)
  exact ⟨⟨hsound, fun _ => le_rfl⟩, h.next rfl hsound le_rfl h.cursor rfl⟩

/-- Where none is due, nothing is posted. -/
theorem sendRecords_noneDue (h : Pending w execID recs ackSeq) (hnone : NoneDue now recs) :
    Grows w (sendRecords s server execID now recs ackSeq w).2 := by
  induction recs generalizing w with
  | nil => exact h.sound.grows
  | cons rec rest ih =>
    have hnone' : NoneDue now rest := fun r hr => hnone r (List.mem_cons_of_mem _ hr)
    unfold sendRecords
    split
    · exact ih h.tail hnone'
    split
    · rename_i hcovered
      obtain ⟨hgrows, hpending⟩ := h.markAcked hcovered
      exact hgrows.trans (ih hpending hnone')
    · rw [if_pos (hnone rec List.mem_cons_self)]
      exact ih h.tail hnone'

/-- A report that is due goes out in its order. -/
theorem Pending.ordered (h : Pending w execID (rec :: rest) ackSeq) (hcaught : Caught w execID (rec :: rest) ackSeq)
    (huncovered : ackSeq < rec.seq) (result : ReportResult) : Ordered ⟨rec, w.outbox, w.cursor rec.executionID, result⟩ w.posts := by
  obtain ⟨hmem, hexec, hpermanent⟩ := h.queued rec List.mem_cons_self
  have hcursor : w.cursor rec.executionID = ackSeq := hexec ▸ h.cursor
  refine h.sound.ordered hmem hpermanent (fun _ => hcursor ▸ h.opened) ?_ ?_
  · intro r hr hsame hlt
    rw [hcursor]
    rcases hcaught r hr (hsame.trans hexec) with hsettled | hleft
    · exact hsettled
    · rcases List.mem_cons.1 hleft with rfl | hleft
      · exact absurd hlt (lt_irrefl _)
      · exact absurd hlt (List.pairwise_cons.1 h.sorted |>.1 r hleft).not_gt
  · intro hcovered
    rw [hcursor] at hcovered
    omega

theorem Pending.row (h : Pending w execID recs ackSeq) : ∃ c, w.cursors execID = some c ∧ c = ackSeq := by
  have hcursor := h.cursor
  have hopen := h.opened
  unfold World.cursor at hcursor
  cases hrow : w.cursors execID with
  | none =>
    rw [hrow] at hcursor
    exact absurd hcursor (by show ¬(0 : Int) = ackSeq; omega)
  | some c =>
    rw [hrow] at hcursor
    exact ⟨c, rfl, hcursor⟩

/-- The loop keeps the order where it stops behind what it could not get through. -/
theorem sendRecords_orderly (h : Pending w execID recs ackSeq) (hcaught : Caught w execID recs ackSeq)
    (horderly : Orderly server now recs ackSeq w.posts.length) : Grows w (sendRecords s server execID now recs ackSeq w).2 := by
  induction recs generalizing w ackSeq with
  | nil => exact h.sound.grows
  | cons rec rest ih =>
    unfold Orderly at horderly
    unfold sendRecords
    by_cases haccepted : rec.status = .accepted
    · rw [if_pos haccepted] at horderly ⊢
      exact ih h.tail (hcaught.tail (h.settled_accepted haccepted)) horderly
    rw [if_neg haccepted] at horderly ⊢
    by_cases hcovered : rec.seq ≤ ackSeq
    · rw [if_pos hcovered] at horderly ⊢
      obtain ⟨hgrows, hpending⟩ := h.markAcked hcovered
      exact hgrows.trans (ih hpending (hcaught.acked le_rfl (fun _ => rfl) rfl) horderly)
    rw [if_neg hcovered] at horderly ⊢
    by_cases hwaiting : now < rec.nextAttemptAt
    · rw [if_pos hwaiting] at horderly ⊢
      exact sendRecords_noneDue h.tail horderly
    rw [if_neg hwaiting] at horderly ⊢
    -- the report goes out, in its order
    obtain ⟨hmem, hexec, _⟩ := h.queued rec List.mem_cons_self
    obtain ⟨c, hrow, hc⟩ := h.row
    have hsent : Grows w (sendOne s server rec w).2 := by
      refine sendOne_keeps h.sound hmem (h.ordered hcaught (by omega) _) fun _ _ hnone => ?_
      rw [hexec, hrow] at hnone
      cases hnone
    unfold sendOne at hsent ⊢
    dsimp only at hsent ⊢
    cases hresult : (server w.posts.length).result with
    | acked newAck =>
      rw [hresult] at horderly hsent
      dsimp only at horderly hsent ⊢
      have hmax : (if ackSeq < newAck then newAck else ackSeq) = max ackSeq newAck := by
        split <;> omega
      rw [hmax]
      have hcursor : ((w.post rec (server w.posts.length)).advanceCursor rec.executionID newAck).cursor execID = max ackSeq newAck := by
        rw [cursor_advance, if_pos hexec.symm, hexec]
        show (w.cursors execID).elim newAck (max · newAck) = _
        rw [hrow, ← hc]
        rfl
      by_cases hreached : rec.seq ≤ newAck
      · rw [if_pos hreached] at horderly hsent ⊢
        have hgoes : ackSeq ≤ max ackSeq newAck := le_max_left _ _
        exact hsent.trans (ih (h.next rfl hsent.sound hgoes hcursor rfl) (hcaught.acked hgoes (fun _ => rfl) rfl) horderly)
      · rw [if_neg hreached] at horderly hsent ⊢
        refine hsent.trans (sendRecords_noneDue ⟨hsent.sound, h.opened.trans (le_max_left _ _), hcursor, ?_, h.sorted.of_cons⟩ horderly)
        exact fun r hr => h.queued r (List.mem_cons_of_mem _ hr)
    | acceptedRequired =>
      rw [hresult] at hsent
      dsimp only at hsent ⊢
      refine hsent.trans (ensureAccepted_keeps hsent.sound (fun hclosed => ?_) fun _ => ⟨_, rfl, hexec, hresult⟩)
      have hcursor : (w.post rec (server w.posts.length)).cursor execID = ackSeq := h.cursor
      have hopen := h.opened
      omega
    | unauthorized err => rw [hresult] at hsent; exact hsent
    | schemaIncompatible err => rw [hresult] at hsent; exact hsent
    | failed err => rw [hresult] at hsent; exact hsent

end Loop

/-! ### Passes -/

theorem mem_unackedRecords {r : OutboxRecord} :
    r ∈ w.unackedRecords execID ↔ r ∈ w.outbox ∧ r.executionID = execID ∧ r.acked = false ∧ r.permanent = false := by
  rw [World.unackedRecords, List.mem_insertionSort, List.mem_filter, decide_eq_true_iff]

/-- A pass begins with all that is not settled, in the order of the seqs. -/
theorem pending_unackedRecords (h : w.Sound) (hopen : 1 ≤ w.cursor execID) :
    Pending w execID (w.unackedRecords execID) (w.cursor execID) ∧ Caught w execID (w.unackedRecords execID) (w.cursor execID) := by
  have hnodup : (w.unackedRecords execID).Nodup := by
    rw [World.unackedRecords, (List.perm_insertionSort _ _).nodup_iff]
    exact (List.Nodup.of_map _ h.ids).filter _
  have hle : (w.unackedRecords execID).Pairwise fun r r' => r.seq ≤ r'.seq := List.pairwise_insertionSort _ _
  refine ⟨⟨h, hopen, rfl, fun r hr => ?_, ?_⟩, fun r hr hexec => ?_⟩
  · obtain ⟨hmem, hexec, _, hpermanent⟩ := mem_unackedRecords.1 hr
    exact ⟨hmem, hexec, hpermanent⟩
  · refine (hle.and hnodup).imp_of_mem fun {r r'} hr hr' hrel => hrel.1.lt_of_ne fun hseq => hrel.2 ?_
    obtain ⟨hmem, hexec, _⟩ := mem_unackedRecords.1 hr
    obtain ⟨hmem', hexec', _⟩ := mem_unackedRecords.1 hr'
    exact h.keys r hmem r' hmem' (hexec.trans hexec'.symm) hseq
  · by_cases hacked : r.acked = true
    · exact .inl (.inl hacked)
    by_cases hpermanent : r.permanent = true
    · exact .inl (.inr (.inr hpermanent))
    · exact .inr (mem_unackedRecords.2 ⟨hr, hexec, by simpa using hacked, by simpa using hpermanent⟩)

theorem passGate_keeps (h : w.Sound) (hfits : w.cursor execID < 1 → GateFits s server execID w) : Grows w (passGate s server execID w).2 := by
  unfold passGate
  split
  · rename_i hclosed
    exact ensureAccepted_keeps h (fun _ => ⟨rfl, hfits hclosed⟩) fun hopen => absurd hopen (by omega)
  · exact h.grows

theorem flushExecution_keeps (h : w.Sound) (hgate : w.cursor execID < 1 → GateFits s server execID w)
    (hloop : LoopFits server execID (passGate s server execID w).2) : Grows w (flushExecution s server execID w).2 := by
  have hkept := passGate_keeps h hgate
  unfold flushExecution
  generalize passGate s server execID w = gate at hkept hloop ⊢
  obtain ⟨out, w'⟩ := gate
  cases out with
  | error e => exact hkept
  | ok =>
    dsimp only at hkept hloop ⊢
    split
    · exact hkept
    · rename_i hopen
      obtain ⟨hpending, hcaught⟩ := pending_unackedRecords hkept.sound (show 1 ≤ w'.cursor execID by omega)
      exact hkept.trans (sendRecords_orderly hpending hcaught (hloop (by omega)))

theorem flushAll_keeps {execIDs : List String} (h : w.Sound) (hfits : FlushFits s server execIDs w) : Grows w (flushAll s server execIDs w).2 := by
  induction execIDs generalizing w with
  | nil => exact h.grows
  | cons execID rest ih =>
    obtain ⟨hgate, hloop, hrest⟩ := hfits
    have hfirst := flushExecution_keeps h hgate hloop
    have hlater := hfirst.trans (ih hfirst.sound hrest)
    unfold flushAll
    dsimp only
    split <;> exact hlater

theorem step_keeps {ev : SenderEvent} (h : w.Sound) (hfits : PassFits s w ev) : Grows w (ev.step s w).2 := by
  cases ev with
  | enqueue report =>
    have hkept : Grows w (w.enqueue ⟨0, report.executionID, report.dispatchID, report.seq, report.status, report.payload, 0, 0, false, false, "", 0, 0⟩).2 :=
      h.enqueue_grows report.anchored
    unfold SenderEvent.step
    dsimp only
    split <;> rename_i heq <;> rw [heq] at hkept <;> exact hkept
  | flush server => exact flushAll_keeps h hfits
  | advance seconds => exact ⟨⟨h.ids, h.fresh, h.keys, h.anchored, h.acked, h.nonneg, h.posts, h.current⟩, fun _ => le_rfl⟩
  | executions rows => exact ⟨⟨h.ids, h.fresh, h.keys, h.anchored, h.acked, h.nonneg, h.posts, h.current⟩, fun _ => le_rfl⟩

end Keeps

theorem Idle.sound {w : World} (h : Idle w) : w.Sound := by
  obtain ⟨houtbox, hcursors, hposts⟩ := h
  refine ⟨by rw [houtbox]; exact List.nodup_nil, ?_, ?_, ?_, ?_, fun execID => ?_, fun later p earlier heq => ?_, ?_⟩
  · rw [houtbox]; exact fun r hr => absurd hr List.not_mem_nil
  · rw [houtbox]; exact fun r hr => absurd hr List.not_mem_nil
  · rw [houtbox]; exact fun r hr => absurd hr List.not_mem_nil
  · rw [houtbox]; exact fun r hr => absurd hr List.not_mem_nil
  · rw [World.cursor, hcursors]
    exact le_rfl
  · rw [hposts] at heq
    exact absurd heq.symm (by simp)
  · rw [hposts]; exact fun p hp => absurd hp List.not_mem_nil

/-- Reports go out in their order in every run in which no pass sends a report behind one that it could not get
through, and no first ack is negative. -/
theorem posts_in_order {s : Sender} {w : World} {t : List SenderStep} (h : SenderRuns s (PassFits s) w t) : InOrder s w t := by
  have hrun : w.Sound ∧ ∀ e ∈ t, ∀ execID, e.pre.cursor execID ≤ ((e.request.step s e.pre).2).cursor execID := by
    induction h with
    | init hidle => exact ⟨hidle.sound, fun e he => absurd he List.not_mem_nil⟩
    | step _ hfits ih =>
      have hkept := step_keeps ih.1 hfits
      refine ⟨hkept.sound, ?_⟩
      rintro e (_ | ⟨_, he⟩)
      · exact hkept.cursors
      · exact ih.2 e he
  exact ⟨hrun.1.posts, hrun.1.current, hrun.2⟩

/-! ## Runs of one execution -/

def reportSender : Sender := ⟨true, defaultReportBackoff⟩

/-- A server that gives the answers in their order, and fails after the last. -/
def answering (answers : List ReportResult) (n : Nat) : ServerTurn := ⟨answers.getD n (.failed "closed"), 0⟩

def queuedAccepted : SenderEvent := .enqueue ⟨"exc_1", "d1", 1, .accepted, some (.running "exc_1" 1), by decide⟩

def queuedRunning : SenderEvent := .enqueue ⟨"exc_1", "d1", 2, .running, some (.running "exc_1" 2), by decide⟩

def queuedCompleted : SenderEvent := .enqueue ⟨"exc_1", "d1", 3, .completed, some (.terminal "exc_1" 3 .completed [] none), by decide⟩

def idleWorld : World := ⟨noTables, fun _ => none, 100, []⟩

/-- The running report fails once, and goes out again after its backoff. -/
def retriedRun : List SenderEvent :=
  let server := answering [.acked 1, .failed "503", .acked 2, .acked 3]
  [queuedAccepted, queuedRunning, .flush server, .advance 1, queuedCompleted, .flush server]

theorem posts_in_order_retriedRun :
    InOrder reportSender (serveAll (SenderEvent.step reportSender) retriedRun idleWorld []).1 (serveAll (SenderEvent.step reportSender) retriedRun idleWorld []).2 := by
  have hinit : SenderRuns reportSender (PassFits reportSender) idleWorld [] := .init ⟨rfl, fun _ => rfl, rfl⟩
  have hfits : AllOk (SenderEvent.step reportSender) (PassFits reportSender) retriedRun idleWorld := by decide
  exact posts_in_order (hinit.all hfits)

/-- The running report fails once, and the pass after that posts the next report over it. -/
def overtakenRun : List SenderEvent :=
  let server := answering [.acked 1, .failed "503", .acked 1]
  [queuedAccepted, queuedRunning, queuedCompleted, .flush server, .flush server]

theorem overtakenRun_out_of_order : ¬∀ w t, SenderRuns reportSender (fun _ _ => True) w t → InOrder reportSender w t := by
  intro h
  have hinit : SenderRuns reportSender (fun _ _ => True) idleWorld [] := .init ⟨rfl, fun _ => rfl, rfl⟩
  have hrun := (h _ _ (hinit.all (allOk_true _ overtakenRun _))).posts
  have hovertaken : ∃ p ∈ (serveAll (SenderEvent.step reportSender) overtakenRun idleWorld []).1.posts.head?,
      ∃ r ∈ p.outbox, r.executionID = p.report.executionID ∧ r.seq < p.report.seq ∧ ¬r.Settled p.cursor := by
    decide
  obtain ⟨p, hp, r, hr, hexec, hlt, hunsettled⟩ := hovertaken
  obtain ⟨earlier, hposts⟩ := List.head?_eq_some_iff.1 hp
  exact hunsettled ((hrun [] p earlier hposts).inOrder r hr hexec hlt)

end Purdex.Dispatch
