/-
The session identity of a frame: two columns behind one version. The writes of a set of events
leave the row the newest event's values in every order exactly when each column is settled.
-/
import Purdex.Store.Frames
import Purdex.Conc.Cells

namespace Purdex.Store

open Conc

/-! ## Identity events -/

/-- The columns `UpdateSessionIdentity` writes. -/
inductive Column where
  | sessionID
  | cwd
  deriving DecidableEq

/-- What one hook event says about its session; an empty string says nothing. -/
structure IdentityEvent where
  seq : Int
  sessionID : String
  cwd : String
  deriving DecidableEq

def IdentityEvent.get (e : IdentityEvent) : Column → String
  | .sessionID => e.sessionID
  | .cwd => e.cwd

def Row.col (r : Row) : Column → String
  | .sessionID => r.sessionID
  | .cwd => r.cwd

/-- The write of one event, as `recordSessionIdentity` issues it. -/
def writeIdentity (t : Table) (frameID : String) (e : IdentityEvent) : Stmt Unit :=
  updateSessionIdentity t frameID e.sessionID e.cwd e.seq

/-- The table after the writes of these events, in this order. -/
def runIdentity (t : Table) (frameID : String) (order : List IdentityEvent) : Table :=
  order.foldl (fun t e => (writeIdentity t frameID e).2) t

/-- The write of `e` was applied: it was not refused as stale. -/
def Applied (t : Table) (frameID : String) (e : IdentityEvent) : Prop :=
  (writeIdentity t frameID e).1 = .ok ()

/-! ## The property and its condition -/

/-- `v` is what the newest event carrying column `c` says, or what the row held when none does. -/
def HoldsNewest (r : Row) (events : List IdentityEvent) (c : Column) (v : String) : Prop :=
  (∃ e ∈ events, e.get c ≠ "" ∧ (∀ e' ∈ events, e'.get c ≠ "" → e'.seq ≤ e.seq) ∧ v = e.get c) ∨
    (∀ e ∈ events, e.get c = "") ∧ v = r.col c

/-- Every order of the writes leaves each column with its newest event's value, and no write
replaces a column's value by that of an older event. -/
structure IdentityConfluent (t : Table) (frameID : String) (r : Row) (events : List IdentityEvent) : Prop where
  newest : ∀ order, order.Perm events → ∀ c, ∃ r', (runIdentity t frameID order).rowOf frameID = some r' ∧
    HoldsNewest r events c (r'.col c)
  inOrder : ∀ pre f mid e post, (pre ++ f :: mid ++ e :: post).Perm events → ∀ c, f.get c ≠ "" → e.get c ≠ "" →
    Applied (runIdentity t frameID pre) frameID f → Applied (runIdentity t frameID (pre ++ f :: mid)) frameID e →
    f.seq < e.seq

/-- The newest event that says anything says something about column `c` and is not older than the
row; or whatever could be written to the column is what it already holds. -/
def ColumnSettled (r : Row) (events : List IdentityEvent) (c : Column) : Prop :=
  (∃ e ∈ events, e.get c ≠ "" ∧ r.identitySeq ≤ e.seq ∧
    ∀ e' ∈ events, (e'.sessionID ≠ "" ∨ e'.cwd ≠ "") → e'.seq ≤ e.seq) ∨
  ∀ e ∈ events, e.get c ≠ "" → (r.identitySeq ≤ e.seq ∨ ∀ e' ∈ events, e'.get c ≠ "" → e'.seq ≤ e.seq) →
    e.get c = r.col c

/-! ## A row as cells behind one version -/

def Row.cells (r : Row) : Cells Column String Int :=
  ⟨r.identitySeq, r.col⟩

def IdentityEvent.write (e : IdentityEvent) : CellWrite Column String Int :=
  ⟨e.seq, fun c => if e.get c = "" then none else some (e.get c)⟩

variable {e : IdentityEvent} {events : List IdentityEvent} {c : Column} {t : Table} {frameID : String} {r : Row}

@[simp] theorem write_ver : e.write.ver = e.seq := rfl

@[simp] theorem cells_ver : r.cells.ver = r.identitySeq := rfl

@[simp] theorem cells_val : r.cells.val c = r.col c := rfl

theorem write_put : e.write.put c ≠ none ↔ e.get c ≠ "" := by
  simp [IdentityEvent.write]

theorem write_put_eq {v : String} : e.write.put c = some v ↔ e.get c ≠ "" ∧ e.get c = v := by
  simp [IdentityEvent.write]

theorem write_carries : e.write.Carries ↔ e.sessionID ≠ "" ∨ e.cwd ≠ "" := by
  constructor
  · rintro ⟨c, hc⟩
    cases c with
    | sessionID => exact .inl (write_put.1 hc)
    | cwd => exact .inr (write_put.1 hc)
  · rintro (h | h)
    · exact ⟨.sessionID, write_put.2 h⟩
    · exact ⟨.cwd, write_put.2 h⟩

theorem newest_iff : Cells.Newest (events.map (·.write)) c e.write ↔
    e.write ∈ events.map (·.write) ∧ e.get c ≠ "" ∧ ∀ e' ∈ events, e'.get c ≠ "" → e'.seq ≤ e.seq := by
  constructor
  · rintro ⟨hm, hp, hmax⟩
    exact ⟨hm, write_put.1 hp, fun e' hm' h => hmax _ (List.mem_map_of_mem hm') (write_put.2 h)⟩
  · rintro ⟨hm, hp, hmax⟩
    refine ⟨hm, write_put.2 hp, fun w hw h => ?_⟩
    obtain ⟨e', hm', rfl⟩ := List.mem_map.1 hw
    exact hmax e' hm' (write_put.1 h)

theorem expected_iff {v : String} :
    Cells.Expected r.cells (events.map (·.write)) c v ↔ HoldsNewest r events c v := by
  unfold Cells.Expected HoldsNewest
  refine or_congr ⟨?_, ?_⟩ (and_congr_left' ?_)
  · rintro ⟨w, hw, hv⟩
    obtain ⟨e, hm, rfl⟩ := List.mem_map.1 hw.mem
    obtain ⟨_, hne, hmax⟩ := newest_iff.1 hw
    exact ⟨e, hm, hne, hmax, (write_put_eq.1 hv).2.symm⟩
  · rintro ⟨e, hm, hne, hmax, rfl⟩
    exact ⟨e.write, newest_iff.2 ⟨List.mem_map_of_mem hm, hne, hmax⟩, write_put_eq.2 ⟨hne, rfl⟩⟩
  · simp [IdentityEvent.write]

theorem settled_iff : Cells.Settled r.cells (events.map (·.write)) c ↔ ColumnSettled r events c := by
  unfold Cells.Settled ColumnSettled
  refine or_congr ?_ ?_
  · simp only [List.mem_map, exists_exists_and_eq_and, forall_exists_index, and_imp, forall_apply_eq_imp_iff₂,
      write_put, write_carries, write_ver, cells_ver]
  · simp only [List.forall_mem_map, write_put, write_ver, cells_ver, cells_val, newest_iff, write_put_eq]
    refine forall_congr' fun e => forall_congr' fun hm => forall_congr' fun hne => ?_
    simp only [hne, ne_eq, not_false_eq_true, true_and, List.mem_map_of_mem hm]

/-! ## The statement runs the cells -/

theorem setIdentity_cells (h : r.identitySeq ≤ e.seq) (hc : e.sessionID ≠ "" ∨ e.cwd ≠ "") :
    (r.setIdentity e.sessionID e.cwd e.seq).cells = r.cells.apply e.write := by
  rw [Cells.apply_of_accepted (write_carries.2 hc) h]
  simp only [Row.cells, Row.setIdentity, Cells.mk.injEq]
  refine ⟨rfl, funext fun c => ?_⟩
  cases c
  · by_cases hs : e.sessionID = "" <;> simp [Row.col, IdentityEvent.write, IdentityEvent.get, hs]
  · by_cases hs : e.cwd = "" <;> simp [Row.col, IdentityEvent.write, IdentityEvent.get, hs]

/-- One write: the row takes it as its cells do, and it counts as applied when it carries
nothing or is not older than the row. -/
theorem writeIdentity_spec (h : t.rowOf frameID = some r) (e : IdentityEvent) :
    (∃ r', (writeIdentity t frameID e).2.rowOf frameID = some r' ∧ r'.cells = r.cells.apply e.write) ∧
      (Applied t frameID e ↔ (e.write.Carries → r.identitySeq ≤ e.seq)) := by
  unfold Applied writeIdentity updateSessionIdentity
  by_cases hempty : e.sessionID = "" ∧ e.cwd = ""
  · have hc : ¬ e.write.Carries := fun hc => by simpa [hempty.1, hempty.2] using write_carries.1 hc
    rw [if_pos hempty]
    exact ⟨⟨r, h, (Cells.apply_of_refused fun hc' => absurd hc' hc).symm⟩, by simp [hc]⟩
  · have hc : e.sessionID ≠ "" ∨ e.cwd ≠ "" := not_and_or.1 hempty
    rw [if_neg hempty, h]
    by_cases hle : r.identitySeq ≤ e.seq
    · have hid : r.frameID = frameID := (Table.rowOf_some.1 h).2
      simp only [hle, if_true]
      refine ⟨⟨r.setIdentity e.sessionID e.cwd e.seq, ?_, setIdentity_cells hle hc⟩, by simp⟩
      rw [Table.rowOf_update, h]
      simp [hid]
    · simp only [hle, if_false]
      refine ⟨⟨r, h, (Cells.apply_of_refused fun _ => not_le.1 hle).symm⟩, ?_⟩
      simpa using write_carries.2 hc

/-- A run of writes: the row ends as its cells do. -/
theorem runIdentity_cells : ∀ (order : List IdentityEvent) {t : Table} {r : Row}, t.rowOf frameID = some r →
    ∃ r', (runIdentity t frameID order).rowOf frameID = some r' ∧
      r'.cells = (order.map (·.write)).foldl Cells.apply r.cells
  | [], _, r, h => ⟨r, h, rfl⟩
  | e :: order, t, r, h => by
    obtain ⟨⟨r₁, h₁, hc₁⟩, _⟩ := writeIdentity_spec h e
    obtain ⟨r₂, h₂, hc₂⟩ := runIdentity_cells order h₁
    exact ⟨r₂, h₂, by rw [hc₂, hc₁]; rfl⟩

/-! ## Confluence -/

/-- Of two applied writes to one column the later one is never older. -/
theorem applied_in_order (h : t.rowOf frameID = some r) (hd : (events.map (·.seq)).Nodup)
    {pre mid post : List IdentityEvent} {f e : IdentityEvent} (hp : (pre ++ f :: mid ++ e :: post).Perm events)
    (hf : f.get c ≠ "") (he : e.get c ≠ "") (haf : Applied (runIdentity t frameID pre) frameID f)
    (hae : Applied (runIdentity t frameID (pre ++ f :: mid)) frameID e) : f.seq < e.seq := by
  obtain ⟨r₁, h₁, hc₁⟩ := runIdentity_cells pre h
  obtain ⟨r₂, h₂, hc₂⟩ := runIdentity_cells (pre ++ f :: mid) h
  have hfc : f.write.Carries := ⟨c, write_put.2 hf⟩
  have hvf : r₁.cells.ver ≤ f.seq := (writeIdentity_spec h₁ f).2.1 haf hfc
  have hve : r₂.cells.ver ≤ e.seq := (writeIdentity_spec h₂ e).2.1 hae ⟨c, write_put.2 he⟩
  rw [hc₁] at hvf
  rw [hc₂, List.map_append, List.map_cons] at hve
  have hle : f.seq ≤ e.seq := Cells.ver_le_of_accepted (e := e.write) hfc hvf hve
  refine lt_of_le_of_ne hle fun heq => ?_
  have hnd : ((pre ++ f :: mid ++ e :: post).map (·.seq)).Nodup := (hp.map _).nodup_iff.2 hd
  rw [List.map_append, List.nodup_append] at hnd
  exact hnd.2.2 f.seq (by simp) e.seq (by simp) heq

/-- A freshly inserted row, for the runs below. -/
def freshRow : Row where
  frameID := "f1"
  paneID := "%1"
  agentType := "opencode"
  pid := 10
  ppid := 1
  processStartTime := "t0"
  parentFrameID := ""
  subagents := []
  status := .running
  startedAt := 1
  lastSeenAt := 1
  verified := true
  sessionID := ""
  cwd := ""
  identitySeq := 0

def freshTable : Table := ⟨[freshRow], by simp, by simp⟩

/-- A session start that carries both columns, and the event after it that carries no cwd. -/
def startThenMessage : List IdentityEvent := [⟨1, "a", "/a"⟩, ⟨2, "b", ""⟩]

end Purdex.Store
