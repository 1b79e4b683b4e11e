/-
The `agent_frames` table: frames, rows, the two unique keys as part of the type, and one
function for each SQL statement the frames store runs.
-/
import Purdex.Agent.Subagent
import Mathlib.Data.List.Sort
import Mathlib.Data.List.Nodup
import Mathlib.Tactic.Tauto

namespace Purdex.Store

open Purdex.Agent

/-! ## Frames and rows -/

/-- The process a frame belongs to: the unique key of the table beside the frame id. -/
structure Ident where
  paneID : String
  pid : Int
  processStartTime : String
  deriving DecidableEq, Repr

/-- A frame as the store hands it out; an empty `parentFrameID` is SQL's NULL. -/
structure Frame where
  frameID : String
  paneID : String
  agentType : String
  pid : Int
  ppid : Int
  processStartTime : String
  parentFrameID : String
  subagents : List SubagentRef
  status : Status
  startedAt : Int
  lastSeenAt : Int
  verified : Bool
  sessionID : String
  cwd : String
  deriving DecidableEq, Repr

def Frame.ident (f : Frame) : Ident :=
  ⟨f.paneID, f.pid, f.processStartTime⟩

/-- A row: a frame and the version of its session identity. -/
structure Row extends Frame where
  identitySeq : Int
  deriving DecidableEq, Repr

/-- The error texts the frames store and its callers tell apart. -/
inductive Err where
  | noRows
  | identityOutOfOrder
  | frameIDRequired
  | constraint
  | processInfo
  | exceeded (text : String)
  | driver (text : String)
  deriving DecidableEq, Repr

def Row.clearParent (r : Row) : Row :=
  { r with parentFrameID := "" }

@[simp] theorem Row.clearParent_frameID (r : Row) : r.clearParent.frameID = r.frameID := rfl

@[simp] theorem Row.clearParent_ident (r : Row) : r.clearParent.ident = r.ident := rfl

/-- The table, with its primary key and its unique index on the process. -/
structure Table where
  rows : List Row
  ids : (rows.map (·.frameID)).Nodup
  idents : (rows.map (·.ident)).Nodup

namespace Table

def empty : Table := ⟨[], by simp, by simp⟩

/-- The row of a frame. -/
def rowOf (t : Table) (frameID : String) : Option Row :=
  t.rows.find? (·.frameID = frameID)

/-- The row of a process. -/
def rowAt (t : Table) (i : Ident) : Option Row :=
  t.rows.find? (·.ident = i)

/-- Apply a change that keeps both keys to the rows that satisfy `p`. -/
def update (t : Table) (p : Row → Bool) (f : Row → Row) (hid : ∀ r, (f r).frameID = r.frameID)
    (hident : ∀ r, (f r).ident = r.ident) : Table where
  rows := t.rows.map fun r => if p r then f r else r
  ids := by
    rw [List.map_map, List.map_congr_left (g := (·.frameID))]
    · exact t.ids
    · intro r _
      dsimp only [Function.comp]
      split
      · exact hid r
      · rfl
  idents := by
    rw [List.map_map, List.map_congr_left (g := (·.ident))]
    · exact t.idents
    · intro r _
      dsimp only [Function.comp]
      split
      · exact hident r
      · rfl

/-- Delete rows; a row whose parent is deleted forgets it (ON DELETE SET NULL). -/
def remove (t : Table) (p : Row → Bool) : Table :=
  let kept : Table := ⟨t.rows.filter (!p ·), t.ids.sublist (List.filter_sublist.map _),
    t.idents.sublist (List.filter_sublist.map _)⟩
  kept.update (fun r => (t.rows.filter p).any (·.frameID = r.parentFrameID)) Row.clearParent
    Row.clearParent_frameID Row.clearParent_ident

/-- Append a row with new keys. -/
def push (t : Table) (r : Row) (hid : r.frameID ∉ t.rows.map (·.frameID))
    (hident : r.ident ∉ t.rows.map (·.ident)) : Table where
  rows := t.rows ++ [r]
  ids := by
    rw [List.map_append, List.nodup_append]
    exact ⟨t.ids, by simp, fun a ha b hb hab => hid (by simp_all)⟩
  idents := by
    rw [List.map_append, List.nodup_append]
    exact ⟨t.idents, by simp, fun a ha b hb hab => hident (by simp_all)⟩

/-- The foreign key: a parent is NULL or the id of a row. -/
def parentOk (t : Table) (parentFrameID : String) : Bool :=
  parentFrameID = "" || t.rows.any (·.frameID = parentFrameID)

end Table

/-! ## The columns each UPDATE sets -/

/-- The columns of `UpsertIfUnchanged` and of the conflict branch of `Upsert`. -/
def Row.setFrame (r : Row) (frame : Frame) : Row :=
  { r with
    agentType := frame.agentType
    ppid := frame.ppid
    parentFrameID := frame.parentFrameID
    subagents := frame.subagents
    status := frame.status
    startedAt := frame.startedAt
    lastSeenAt := frame.lastSeenAt
    verified := frame.verified }

/-- The columns of `UpdateHookPath`. -/
def Row.setHookPath (r : Row) (frame : Frame) : Row :=
  { r with
    agentType := frame.agentType
    ppid := frame.ppid
    parentFrameID := frame.parentFrameID
    status := frame.status
    lastSeenAt := frame.lastSeenAt
    verified := frame.verified }

def Row.setStatusAndLastSeen (r : Row) (status : Status) (lastSeenAt : Int) : Row :=
  { r with status := status, lastSeenAt := lastSeenAt }

/-- The columns of `UpdateSessionIdentity`: those with a non-empty argument, and the version. -/
def Row.setIdentity (r : Row) (sessionID cwd : String) (seq : Int) : Row :=
  { r with
    sessionID := if sessionID = "" then r.sessionID else sessionID
    cwd := if cwd = "" then r.cwd else cwd
    identitySeq := seq }

@[simp] theorem Row.setFrame_frameID (r : Row) (f : Frame) : (r.setFrame f).frameID = r.frameID := rfl

@[simp] theorem Row.setFrame_ident (r : Row) (f : Frame) : (r.setFrame f).ident = r.ident := rfl

@[simp] theorem Row.setHookPath_frameID (r : Row) (f : Frame) : (r.setHookPath f).frameID = r.frameID := rfl

@[simp] theorem Row.setHookPath_ident (r : Row) (f : Frame) : (r.setHookPath f).ident = r.ident := rfl

@[simp] theorem Row.setStatusAndLastSeen_frameID (r : Row) (s : Status) (ts : Int) :
    (r.setStatusAndLastSeen s ts).frameID = r.frameID := rfl

@[simp] theorem Row.setStatusAndLastSeen_ident (r : Row) (s : Status) (ts : Int) :
    (r.setStatusAndLastSeen s ts).ident = r.ident := rfl

@[simp] theorem Row.setIdentity_frameID (r : Row) (s c : String) (q : Int) :
    (r.setIdentity s c q).frameID = r.frameID := rfl

@[simp] theorem Row.setIdentity_ident (r : Row) (s c : String) (q : Int) :
    (r.setIdentity s c q).ident = r.ident := rfl

/-! ## The statements -/

/-- The answer of a statement and the table it leaves. -/
abbrev Stmt (α : Type) := Except Err α × Table

def selectByIdentity (t : Table) (i : Ident) : Option Frame :=
  (t.rowAt i).map Row.toFrame

/-- `ORDER BY started_at DESC LIMIT 1`. -/
def selectByPanePID (t : Table) (paneID : String) (pid : Int) : Option Frame :=
  (((t.rows.filter fun r => r.paneID = paneID ∧ r.pid = pid).insertionSort
    fun a b => b.startedAt ≤ a.startedAt).head?).map Row.toFrame

/-- `ORDER BY started_at ASC`. -/
def selectByPane (t : Table) (paneID : String) : List Frame :=
  ((t.rows.filter (·.paneID = paneID)).insertionSort fun a b => a.startedAt ≤ b.startedAt).map Row.toFrame

/-- `ORDER BY pane_id ASC, started_at ASC`. -/
def selectAll (t : Table) : List Frame :=
  (t.rows.insertionSort fun a b => a.paneID < b.paneID ∨ a.paneID = b.paneID ∧ a.startedAt ≤ b.startedAt).map
    Row.toFrame

/-- The INSERT of `Upsert`: an existing row of the process keeps its id, its identity columns and
their version, and takes the rest of the frame. -/
def insertOnConflict (t : Table) (frame : Frame) : Stmt Unit :=
  if (t.rowAt frame.ident).isSome then
    if t.parentOk frame.parentFrameID then
      (.ok (), t.update (·.ident = frame.ident) (·.setFrame frame) (·.setFrame_frameID frame) (·.setFrame_ident frame))
    else (.error .constraint, t)
  else if h : frame.frameID ∉ t.rows.map (·.frameID) ∧ frame.ident ∉ t.rows.map (·.ident) then
    if t.parentOk frame.parentFrameID || frame.parentFrameID = frame.frameID then
      (.ok (), t.push { toFrame := frame, identitySeq := 0 } h.1 h.2)
    else (.error .constraint, t)
  else (.error .constraint, t)

/-- The UPDATE of `UpsertIfUnchanged`; the answer is whether a row was affected. -/
def updateIfUnchanged (t : Table) (frame : Frame) (expectedLastSeenAt : Int) : Stmt Bool :=
  let hit : Row → Bool := fun r => r.frameID = frame.frameID ∧ r.lastSeenAt = expectedLastSeenAt
  if t.rows.any hit then
    if t.parentOk frame.parentFrameID then
      (.ok true, t.update hit (·.setFrame frame) (·.setFrame_frameID frame) (·.setFrame_ident frame))
    else (.error .constraint, t)
  else (.ok false, t)

def deleteFrame (t : Table) (frameID : String) : Stmt Unit :=
  (.ok (), t.remove (·.frameID = frameID))

def deleteIfUnchanged (t : Table) (frameID : String) (lastSeenAt : Int) : Stmt Bool :=
  let hit : Row → Bool := fun r => r.frameID = frameID ∧ r.lastSeenAt = lastSeenAt
  (.ok (t.rows.any hit), t.remove hit)

def updateStatusAndLastSeen (t : Table) (frameID : String) (status : Status) (lastSeenAt : Int) : Stmt Unit :=
  if (t.rowOf frameID).isSome then
    (.ok (), t.update (·.frameID = frameID) (·.setStatusAndLastSeen status lastSeenAt)
      (·.setStatusAndLastSeen_frameID status lastSeenAt) (·.setStatusAndLastSeen_ident status lastSeenAt))
  else (.error .noRows, t)

def updateHookPath (t : Table) (frame : Frame) : Stmt Unit :=
  if (t.rowOf frame.frameID).isSome then
    if t.parentOk frame.parentFrameID then
      (.ok (), t.update (·.frameID = frame.frameID) (·.setHookPath frame) (·.setHookPath_frameID frame)
        (·.setHookPath_ident frame))
    else (.error .constraint, t)
  else (.error .noRows, t)

/-- The guarded UPDATE of `UpdateSessionIdentity`, and the read that tells its two misses apart. -/
def updateSessionIdentity (t : Table) (frameID sessionID cwd : String) (seq : Int) : Stmt Unit :=
  if sessionID = "" ∧ cwd = "" then (.ok (), t)
  else match t.rowOf frameID with
    | none => (.error .noRows, t)
    | some r =>
      if r.identitySeq ≤ seq then
        (.ok (), t.update (·.frameID = frameID) (·.setIdentity sessionID cwd seq)
          (·.setIdentity_frameID sessionID cwd seq) (·.setIdentity_ident sessionID cwd seq))
      else (.error .identityOutOfOrder, t)

/-! ## Reading rows back -/

namespace Table

variable {t : Table} {r : Row}

theorem rowOf_some {id : String} : t.rowOf id = some r ↔ r ∈ t.rows ∧ r.frameID = id := by
  constructor
  · intro h
    exact ⟨List.mem_of_find?_eq_some h, by simpa using List.find?_some h⟩
  · rintro ⟨hm, rfl⟩
    cases hf : t.rowOf r.frameID with
    | none => simpa using List.find?_eq_none.1 hf r hm
    | some r' =>
      have hid : r'.frameID = r.frameID := by simpa using List.find?_some hf
      exact congrArg _ (List.inj_on_of_nodup_map t.ids (List.mem_of_find?_eq_some hf) hm hid)

theorem rowOf_none {id : String} : t.rowOf id = none ↔ ∀ r ∈ t.rows, r.frameID ≠ id := by
  simp [rowOf, List.find?_eq_none]

theorem rowAt_some {i : Ident} : t.rowAt i = some r ↔ r ∈ t.rows ∧ r.ident = i := by
  constructor
  · intro h
    exact ⟨List.mem_of_find?_eq_some h, by simpa using List.find?_some h⟩
  · rintro ⟨hm, rfl⟩
    cases hf : t.rowAt r.ident with
    | none => simpa using List.find?_eq_none.1 hf r hm
    | some r' =>
      have hid : r'.ident = r.ident := by simpa using List.find?_some hf
      exact congrArg _ (List.inj_on_of_nodup_map t.idents (List.mem_of_find?_eq_some hf) hm hid)

theorem ext_ident {r r' : Row} (h : r ∈ t.rows) (h' : r' ∈ t.rows) (hi : r.ident = r'.ident) : r = r' :=
  List.inj_on_of_nodup_map t.idents h h' hi

theorem mem_update {p : Row → Bool} {f : Row → Row} {hid hident} :
    r ∈ (t.update p f hid hident).rows ↔ ∃ r₀ ∈ t.rows, (p r₀ = true ∧ r = f r₀) ∨ (p r₀ = false ∧ r = r₀) := by
  simp only [update, List.mem_map]
  refine exists_congr fun r₀ => and_congr_right fun _ => ?_
  cases p r₀ <;> simp [eq_comm]

theorem rowOf_update {p : Row → Bool} {f : Row → Row} {hid hident} (id : String) :
    (t.update p f hid hident).rowOf id = (t.rowOf id).map fun r => if p r then f r else r := by
  cases h : t.rowOf id with
  | none =>
    refine rowOf_none.2 fun r hr => ?_
    obtain ⟨r₀, hm, ⟨_, rfl⟩ | ⟨_, rfl⟩⟩ := mem_update.1 hr
    · rw [hid]; exact rowOf_none.1 h r₀ hm
    · exact rowOf_none.1 h r hm
  | some r =>
    obtain ⟨hm, rfl⟩ := rowOf_some.1 h
    refine rowOf_some.2 ⟨mem_update.2 ⟨r, hm, ?_⟩, ?_⟩
    · by_cases hp : p r = true <;> simp [hp]
    · dsimp only
      split
      · exact hid r
      · rfl

/-- A row that is left after a deletion was there, up to a forgotten parent. -/
theorem mem_remove {p : Row → Bool} : r ∈ (t.remove p).rows ↔ ∃ r₀ ∈ t.rows, p r₀ = false ∧
    r = if (t.rows.filter p).any (·.frameID = r₀.parentFrameID) then r₀.clearParent else r₀ := by
  simp only [remove, update, List.mem_map, List.mem_filter, Bool.not_eq_true', and_assoc]
  exact exists_congr fun r₀ => and_congr_right fun _ => and_congr_right fun _ => eq_comm

end Table

section Select

variable {t : Table} {paneID : String} {pid : Int}

theorem selectByIdentity_some {i : Ident} {f : Frame} (h : selectByIdentity t i = some f) :
    ∃ r ∈ t.rows, r.ident = i ∧ r.toFrame = f := by
  obtain ⟨r, hr, rfl⟩ := Option.map_eq_some_iff.1 h
  exact ⟨r, (Table.rowAt_some.1 hr).1, (Table.rowAt_some.1 hr).2, rfl⟩

theorem mem_selectByPane {f : Frame} :
    f ∈ selectByPane t paneID ↔ ∃ r ∈ t.rows, r.paneID = paneID ∧ r.toFrame = f := by
  simp [selectByPane, and_assoc]

theorem selectByPanePID_some {f : Frame} (h : selectByPanePID t paneID pid = some f) :
    f ∈ selectByPane t paneID ∧ f.pid = pid := by
  obtain ⟨r, hr, rfl⟩ := Option.map_eq_some_iff.1 h
  have hmem := List.mem_of_head? hr
  simp only [List.mem_insertionSort, List.mem_filter, decide_eq_true_eq] at hmem
  exact ⟨mem_selectByPane.2 ⟨r, hmem.1, hmem.2.1, rfl⟩, hmem.2.2⟩

theorem selectByPanePID_none (h : selectByPanePID t paneID pid = none) :
    ∀ f ∈ selectByPane t paneID, f.pid ≠ pid := by
  rintro f hf rfl
  obtain ⟨r, hr, hp, rfl⟩ := mem_selectByPane.1 hf
  have hnil := List.head?_eq_none_iff.1 (Option.map_eq_none_iff.1 h)
  have : r ∈ (t.rows.filter fun r' => r'.paneID = paneID ∧ r'.pid = r.pid).insertionSort
      fun a b => b.startedAt ≤ a.startedAt := by simp [hr, hp]
  rw [hnil] at this
  exact List.not_mem_nil this

/-- A listing names every frame once. -/
theorem selectByPane_ids (t : Table) (paneID : String) : ((selectByPane t paneID).map (·.frameID)).Nodup := by
  have hperm := (List.perm_insertionSort (fun a b : Row => a.startedAt ≤ b.startedAt)
    (t.rows.filter (·.paneID = paneID))).map (·.frameID)
  rw [selectByPane, List.map_map]
  exact hperm.nodup_iff.2 (t.ids.sublist (List.filter_sublist.map _))

end Select

end Purdex.Store
