/-
What the processes of a session take: a walk from its panes down the process table, with what it passes added up and the greatest of it kept.
-/
import Purdex.Lists.Worklist
import Mathlib.Algebra.BigOperators.Group.List.Basic
import Mathlib.Data.List.Induction
import Mathlib.Data.List.Sort
import Mathlib.Data.Prod.Lex
import Mathlib.Data.Rat.Cast.Order
import Mathlib.Logic.Relation

namespace Purdex.Monitor

open Worklist

/-- The percentage is exact. -/
structure Process where
  pid : Int
  ppid : Int
  command : String
  cpuPercent : ℚ
  memoryBytes : UInt64
  deriving DecidableEq

structure PaneProcessAggregate where
  cpuPercent : ℚ := 0
  memoryBytes : UInt64 := 0
  processCount : Nat := 0
  topProcesses : List Process := []
  deriving DecidableEq

structure TmuxPane where
  tmuxSessionID : String
  panePID : Int
  deriving DecidableEq

/-! ## The table -/

/-- `processByPID` and `childrenByPPID`. -/
structure ProcessTable where
  processByPID : Int → Option Process := fun _ => none
  childrenByPPID : Int → List Int := fun _ => []

/-- The first process with a pid keeps it. -/
def ProcessTable.add (t : ProcessTable) (process : Process) : ProcessTable :=
  if process.pid ≤ 0 then t
  else
    { processByPID := fun pid =>
        if pid = process.pid ∧ t.processByPID process.pid = none then some process else t.processByPID pid
      childrenByPPID := fun ppid =>
        if ppid = process.ppid ∧ 0 < process.ppid then t.childrenByPPID ppid ++ [process.pid] else t.childrenByPPID ppid }

def processTable (processes : List Process) : ProcessTable := processes.foldl ProcessTable.add {}

theorem processTable_concat (processes : List Process) (p : Process) : processTable (processes ++ [p]) = (processTable processes).add p := by
  rw [processTable, List.foldl_append]
  rfl

theorem processByPID_some {processes : List Process} {pid : Int} {p : Process} (h : (processTable processes).processByPID pid = some p) :
    p ∈ processes ∧ p.pid = pid := by
  induction processes using List.reverseRecOn with
  | nil => cases h
  | append_singleton processes q ih =>
    rw [processTable_concat, ProcessTable.add] at h
    split at h
    · exact ⟨List.mem_append_left _ (ih h).1, (ih h).2⟩
    · simp only at h
      split at h
      · rename_i hq
        cases h
        exact ⟨by simp, hq.1.symm⟩
      · exact ⟨List.mem_append_left _ (ih h).1, (ih h).2⟩

theorem processByPID_isSome {processes : List Process} {p : Process} (hp : p ∈ processes) (hpos : 0 < p.pid) :
    ((processTable processes).processByPID p.pid).isSome := by
  induction processes using List.reverseRecOn with
  | nil => cases hp
  | append_singleton processes q ih =>
    rw [processTable_concat, ProcessTable.add]
    rcases List.mem_append.1 hp with hp | hp
    · split
      · exact ih hp
      · simp only
        split
        · rfl
        · exact ih hp
    · rw [← List.mem_singleton.1 hp, if_neg (by omega)]
      simp only [true_and]
      split
      · rfl
      · exact Option.isSome_iff_ne_none.2 ‹_›

/-- In a table of distinct positive pids every process is under its own. -/
theorem processByPID_eq_some_iff {processes : List Process} (hdistinct : (processes.map Process.pid).Nodup)
    (hpos : ∀ p ∈ processes, 0 < p.pid) {pid : Int} {p : Process} :
    (processTable processes).processByPID pid = some p ↔ p ∈ processes ∧ p.pid = pid := by
  refine ⟨processByPID_some, ?_⟩
  rintro ⟨hp, rfl⟩
  obtain ⟨q, hq⟩ := Option.isSome_iff_exists.1 (processByPID_isSome hp (hpos p hp))
  obtain ⟨hmem, hpid⟩ := processByPID_some hq
  rw [hq, List.inj_on_of_nodup_map hdistinct hmem hp hpid]

theorem mem_childrenByPPID {processes : List Process} (hpos : ∀ p ∈ processes, 0 < p.pid) {ppid pid : Int} (hppid : 0 < ppid) :
    pid ∈ (processTable processes).childrenByPPID ppid ↔ ∃ q ∈ processes, q.ppid = ppid ∧ q.pid = pid := by
  induction processes using List.reverseRecOn with
  | nil => exact ⟨nofun, nofun⟩
  | append_singleton processes p ih =>
    have ih := ih fun q hq => hpos q (List.mem_append_left _ hq)
    have hp : ¬p.pid ≤ 0 := not_le.2 (hpos p (by simp))
    simp only [processTable_concat, ProcessTable.add, if_neg hp, List.mem_append, List.mem_singleton, or_and_right, exists_or, exists_eq_left]
    rw [← ih]
    split
    · rename_i h
      simp only [List.mem_append, List.mem_singleton, h.1, true_and]
      rw [eq_comm (a := pid)]
    · rename_i h
      have : p.ppid ≠ ppid := fun heq => h ⟨heq.symm, by omega⟩
      simp [this]

def walk (processes : List Process) : Table Int Process where
  keys := processes.map Process.pid
  look := (processTable processes).processByPID
  next := (processTable processes).childrenByPPID
  key := Process.pid
  mem_keys := fun h => List.mem_map.2 ⟨_, processByPID_some h⟩
  key_look := fun h => (processByPID_some h).2

/-! ## Adding up -/

def PaneProcessAggregate.add (aggregate : PaneProcessAggregate) (process : Process) : PaneProcessAggregate :=
  { aggregate with
    cpuPercent := aggregate.cpuPercent + process.cpuPercent
    memoryBytes := aggregate.memoryBytes + process.memoryBytes
    processCount := aggregate.processCount + 1 }

def aggregatePaneDescendants (panePID : Int) (processes : List Process) : PaneProcessAggregate :=
  if panePID ≤ 0 then {} else run (walk processes) PaneProcessAggregate.add [panePID] [] {}

/-- By percentage, then memory, then pid. -/
def before (p q : Process) : Prop :=
  if p.cpuPercent ≠ q.cpuPercent then q.cpuPercent < p.cpuPercent
  else if p.memoryBytes ≠ q.memoryBytes then q.memoryBytes < p.memoryBytes
  else p.pid < q.pid

instance (p q : Process) : Decidable (before p q) := by
  unfold before
  infer_instance

def selectTopProcesses (processes : List Process) (limit : Int) : List Process :=
  if limit ≤ 0 ∨ processes = [] then []
  else
    let sorted := processes.insertionSort fun p q => ¬before q p
    if limit < sorted.length then sorted.take limit.toNat else sorted

def sessionRoots (tmuxSessionID : String) (panes : List TmuxPane) : List Int :=
  (panes.filter fun pane => pane.tmuxSessionID = tmuxSessionID ∧ 0 < pane.panePID).map TmuxPane.panePID

def aggregateSessionProcesses (tmuxSessionID : String) (panes : List TmuxPane) (processes : List Process) (topLimit : Int) :
    PaneProcessAggregate :=
  if tmuxSessionID = "" then {}
  else
    let (aggregate, included) := run (walk processes) (fun (aggregate, included) process => (aggregate.add process, included ++ [process]))
      (sessionRoots tmuxSessionID panes) [] (({} : PaneProcessAggregate), ([] : List Process))
    { aggregate with topProcesses := selectTopProcesses included topLimit }

/-! ## What was found -/

section Found

variable (processes : List Process) (roots : List Int)

theorem run_session (aggregate : PaneProcessAggregate) :
    run (walk processes) (fun (aggregate, included) process => (PaneProcessAggregate.add aggregate process, included ++ [process])) roots []
      (aggregate, []) = ((found (walk processes) roots).foldl PaneProcessAggregate.add aggregate, found (walk processes) roots) := by
  have hpair : ∀ (l included : List Process) (aggregate : PaneProcessAggregate),
      l.foldl (fun (aggregate, included) process => (PaneProcessAggregate.add aggregate process, included ++ [process])) (aggregate, included) =
        (l.foldl PaneProcessAggregate.add aggregate, included ++ l) := by
    intro l
    induction l with
    | nil => simp
    | cons p l ih =>
      intro included aggregate
      rw [List.foldl_cons, ih, List.foldl_cons, List.append_assoc, List.singleton_append]
  rw [run_eq, hpair, List.nil_append]

end Found

theorem aggregateSessionProcesses_eq {tmuxSessionID : String} (hsession : tmuxSessionID ≠ "") (panes : List TmuxPane)
    (processes : List Process) (topLimit : Int) :
    aggregateSessionProcesses tmuxSessionID panes processes topLimit =
      { (found (walk processes) (sessionRoots tmuxSessionID panes)).foldl PaneProcessAggregate.add {} with
        topProcesses := selectTopProcesses (found (walk processes) (sessionRoots tmuxSessionID panes)) topLimit } := by
  rw [aggregateSessionProcesses, if_neg hsession, run_session]

section Sums

variable (l : List Process) (aggregate : PaneProcessAggregate)

theorem foldl_add_processCount : (l.foldl PaneProcessAggregate.add aggregate).processCount = aggregate.processCount + l.length := by
  induction l generalizing aggregate with
  | nil => rfl
  | cons p l ih =>
    rw [List.foldl_cons, ih, List.length_cons, PaneProcessAggregate.add]
    dsimp only
    omega

theorem foldl_add_cpuPercent :
    (l.foldl PaneProcessAggregate.add aggregate).cpuPercent = aggregate.cpuPercent + (l.map Process.cpuPercent).sum := by
  induction l generalizing aggregate with
  | nil => simp
  | cons p l ih => rw [List.foldl_cons, ih, List.map_cons, List.sum_cons, PaneProcessAggregate.add, add_assoc]

/-- The bytes wrap as a word does. -/
theorem foldl_add_memoryBytes : (l.foldl PaneProcessAggregate.add aggregate).memoryBytes.toNat =
    (aggregate.memoryBytes.toNat + (l.map fun p => p.memoryBytes.toNat).sum) % 2 ^ 64 := by
  induction l generalizing aggregate with
  | nil => exact (Nat.mod_eq_of_lt aggregate.memoryBytes.toNat_lt).symm
  | cons p l ih =>
    rw [List.foldl_cons, ih, List.map_cons, List.sum_cons, PaneProcessAggregate.add, UInt64.toNat_add, Nat.mod_add_mod, Nat.add_assoc]

end Sums

/-! ## The order of the greatest -/

/-- A process by its place in that order. -/
def rank (p : Process) : ℚᵒᵈ ×ₗ ℕᵒᵈ ×ₗ ℤ := toLex (OrderDual.toDual p.cpuPercent, toLex (OrderDual.toDual p.memoryBytes.toNat, p.pid))

theorem before_iff (p q : Process) : before p q ↔ rank p < rank q := by
  unfold before rank
  rw [Prod.Lex.toLex_lt_toLex, Prod.Lex.toLex_lt_toLex]
  simp only [OrderDual.toDual_lt_toDual, OrderDual.toDual_inj, ne_eq, ite_not, UInt64.toNat_inj, ← UInt64.lt_iff_toNat_lt]
  split
  · rename_i hcpu
    split
    · rename_i hmemory
      simp [hcpu, hmemory]
    · rename_i hmemory
      simp [hcpu, hmemory]
  · rename_i hcpu
    simp [hcpu]

theorem not_before_iff (p q : Process) : ¬before q p ↔ rank p ≤ rank q := by rw [before_iff, not_lt]

instance : Std.Total fun p q : Process => ¬before q p where
  total p q := by
    rw [not_before_iff, not_before_iff]
    exact le_total _ _

instance : IsTrans Process fun p q => ¬before q p where
  trans p q r := by
    rw [not_before_iff, not_before_iff, not_before_iff]
    exact le_trans

/-- Where pids tell the processes apart, the sort leaves no two of them in doubt. -/
theorem sorted_before {l : List Process} (hdistinct : (l.map Process.pid).Nodup) :
    (l.insertionSort fun p q => ¬before q p).Pairwise before := by
  have hperm := List.perm_insertionSort (fun p q : Process => ¬before q p) l
  have hpids : (l.insertionSort fun p q => ¬before q p).Pairwise fun p q => p.pid ≠ q.pid :=
    List.pairwise_map.1 ((hperm.map Process.pid).nodup_iff.2 hdistinct)
  refine ((List.pairwise_insertionSort _ l).and hpids).imp fun {p q} h => ?_
  rw [before_iff]
  refine lt_of_le_of_ne ((not_before_iff p q).1 h.1) fun heq => h.2 ?_
  simp only [rank, EmbeddingLike.apply_eq_iff_eq, Prod.mk.injEq] at heq
  exact heq.2.2

theorem selectTopProcesses_eq (l : List Process) (limit : Int) :
    selectTopProcesses l limit = (l.insertionSort fun p q => ¬before q p).take limit.toNat := by
  unfold selectTopProcesses
  split
  · rename_i h
    rcases h with hlimit | rfl
    · rw [Int.toNat_of_nonpos hlimit, List.take_zero]
    · simp
  · dsimp only
    split
    · rfl
    · rename_i hshort
      rw [List.take_of_length_le]
      omega

/-! ## Descendants -/

/-- A process of the table has the one pid and the other for its parent. -/
def Child (processes : List Process) (ppid pid : Int) : Prop := ∃ q ∈ processes, q.ppid = ppid ∧ q.pid = pid

def Descends (processes : List Process) : Int → Int → Prop := Relation.ReflTransGen (Child processes)

def InTable (processes : List Process) (pid : Int) : Prop := ∃ q ∈ processes, q.pid = pid

/-- A process below a pane of the session. -/
def OfSession (tmuxSessionID : String) (panes : List TmuxPane) (processes : List Process) (p : Process) : Prop :=
  p ∈ processes ∧ ∃ pane ∈ panes, pane.tmuxSessionID = tmuxSessionID ∧ Descends processes pane.panePID p.pid

/-- A process below a pane of the session whose own process is in the table. -/
def OfLivePane (tmuxSessionID : String) (panes : List TmuxPane) (processes : List Process) (p : Process) : Prop :=
  p ∈ processes ∧
    ∃ pane ∈ panes, pane.tmuxSessionID = tmuxSessionID ∧ InTable processes pane.panePID ∧ Descends processes pane.panePID p.pid

/-- The totals are those of just these processes, each once, and the greatest of them are kept. -/
def Totals (counted : Process → Prop) (topLimit : Int) (aggregate : PaneProcessAggregate) : Prop :=
  ∃ order : List Process, order.Pairwise before ∧ (∀ p, p ∈ order ↔ counted p) ∧
    aggregate.processCount = order.length ∧ aggregate.cpuPercent = (order.map Process.cpuPercent).sum ∧
    aggregate.memoryBytes.toNat = (order.map fun p => p.memoryBytes.toNat).sum % 2 ^ 64 ∧
    aggregate.topProcesses = order.take topLimit.toNat

section Below

variable {processes : List Process} {roots : List Int} {pid : Int}

theorem inTable_of_descends {root : Int} (hroot : InTable processes root) (h : Descends processes root pid) : InTable processes pid := by
  cases h with
  | refl => exact hroot
  | tail _ hchild =>
    obtain ⟨q, hq, -, hpid⟩ := hchild
    exact ⟨q, hq, hpid⟩

variable (hpos : ∀ p ∈ processes, 0 < p.pid)
include hpos

theorem descends_of_reached (h : Reached (walk processes) roots pid) (hpid : InTable processes pid) :
    ∃ root ∈ roots, InTable processes root ∧ Descends processes root pid := by
  induction h with
  | root hroot => exact ⟨_, hroot, hpid, .refl⟩
  | next _ hb hc ih =>
    obtain ⟨hmem, heq⟩ := processByPID_some hb
    obtain ⟨root, hroot, htable, hdescends⟩ := ih ⟨_, hmem, heq⟩
    exact ⟨root, hroot, htable, hdescends.tail ((mem_childrenByPPID hpos (heq ▸ hpos _ hmem)).1 hc)⟩

theorem reached_of_descends (hdistinct : (processes.map Process.pid).Nodup) {root : Int} (hroot : root ∈ roots)
    (htable : InTable processes root) (h : Descends processes root pid) : Reached (walk processes) roots pid := by
  induction h with
  | refl => exact .root hroot
  | tail hbelow hchild ih =>
    obtain ⟨q, hq, heq⟩ := inTable_of_descends htable hbelow
    exact .next ih ((processByPID_eq_some_iff hdistinct hpos).2 ⟨hq, heq⟩) ((mem_childrenByPPID hpos (heq ▸ hpos q hq)).2 hchild)

/-- The walk finds the processes below the roots that are in the table. -/
theorem mem_found_iff (hdistinct : (processes.map Process.pid).Nodup) {p : Process} : p ∈ found (walk processes) roots ↔
    p ∈ processes ∧ ∃ root ∈ roots, InTable processes root ∧ Descends processes root p.pid := by
  rw [mem_found]
  constructor
  · rintro ⟨pid, hreached, hlook⟩
    obtain ⟨hmem, rfl⟩ := processByPID_some hlook
    exact ⟨hmem, descends_of_reached hpos hreached ⟨p, hmem, rfl⟩⟩
  · rintro ⟨hmem, root, hroot, htable, hdescends⟩
    exact ⟨p.pid, reached_of_descends hpos hdistinct hroot htable hdescends, (processByPID_eq_some_iff hdistinct hpos).2 ⟨hmem, rfl⟩⟩

theorem mem_found_session (hdistinct : (processes.map Process.pid).Nodup) (tmuxSessionID : String) (panes : List TmuxPane) (p : Process) :
    p ∈ found (walk processes) (sessionRoots tmuxSessionID panes) ↔ OfLivePane tmuxSessionID panes processes p := by
  rw [mem_found_iff hpos hdistinct, OfLivePane]
  refine and_congr_right fun _ => ?_
  simp only [sessionRoots, List.mem_map, List.mem_filter, decide_eq_true_eq]
  constructor
  · rintro ⟨_, ⟨pane, ⟨hpane, hsession, -⟩, rfl⟩, htable, hdescends⟩
    exact ⟨pane, hpane, hsession, htable, hdescends⟩
  · rintro ⟨pane, hpane, hsession, ⟨q, hq, heq⟩, hdescends⟩
    exact ⟨pane.panePID, ⟨pane, ⟨hpane, hsession, heq ▸ hpos q hq⟩, rfl⟩, ⟨q, hq, heq⟩, hdescends⟩

end Below

/-- A session of one pane takes what that pane takes. -/
theorem session_of_one_pane {tmuxSessionID : String} (hsession : tmuxSessionID ≠ "") {panes : List TmuxPane} {pane : TmuxPane}
    (hone : (panes.filter fun pane => pane.tmuxSessionID = tmuxSessionID) = [pane]) (processes : List Process) (topLimit : Int) :
    { aggregateSessionProcesses tmuxSessionID panes processes topLimit with topProcesses := [] } = aggregatePaneDescendants pane.panePID processes := by
  have hroots : sessionRoots tmuxSessionID panes = if 0 < pane.panePID then [pane.panePID] else [] := by
    have hsplit : (panes.filter fun pane => pane.tmuxSessionID = tmuxSessionID ∧ 0 < pane.panePID) = [pane].filter fun pane => 0 < pane.panePID := by
      rw [← hone, List.filter_filter]
      simp [Bool.and_comm]
    rw [sessionRoots, hsplit]
    split <;> simp_all
  have htop : ∀ (l : List Process) (aggregate : PaneProcessAggregate),
      (l.foldl PaneProcessAggregate.add aggregate).topProcesses = aggregate.topProcesses := by
    intro l
    induction l with
    | nil => exact fun _ => rfl
    | cons p l ih => exact fun aggregate => ih (aggregate.add p)
  rw [aggregateSessionProcesses_eq hsession, hroots, aggregatePaneDescendants]
  by_cases hpane : 0 < pane.panePID
  · rw [if_pos hpane, if_neg (not_le.2 hpane), run_eq]
    have hkept := htop (found (walk processes) [pane.panePID]) {}
    generalize (found (walk processes) [pane.panePID]).foldl PaneProcessAggregate.add {} = aggregate at hkept ⊢
    cases aggregate
    cases hkept
    rfl
  · rw [if_neg hpane, if_pos (not_lt.1 hpane)]
    rw [found, run_nil]
    rfl

/-- Every session but the one without a name takes what is below those of its panes that are in the table. -/
theorem session_totals {processes : List Process} (hdistinct : (processes.map Process.pid).Nodup) (hpos : ∀ p ∈ processes, 0 < p.pid)
    (tmuxSessionID : String) (panes : List TmuxPane) (topLimit : Int) :
    (tmuxSessionID = "" → aggregateSessionProcesses tmuxSessionID panes processes topLimit = {}) ∧
      (tmuxSessionID ≠ "" → Totals (OfLivePane tmuxSessionID panes processes) topLimit
          (aggregateSessionProcesses tmuxSessionID panes processes topLimit) ∧
        ∀ pane, (panes.filter fun pane => pane.tmuxSessionID = tmuxSessionID) = [pane] →
          { aggregateSessionProcesses tmuxSessionID panes processes topLimit with topProcesses := [] } =
            aggregatePaneDescendants pane.panePID processes) := by
  refine ⟨fun h => if_pos h, fun hsession => ⟨?_, fun pane hone => session_of_one_pane hsession hone processes topLimit⟩⟩
  have hnodup := found_nodup (walk processes) (sessionRoots tmuxSessionID panes)
  have hperm := List.perm_insertionSort (fun p q : Process => ¬before q p) (found (walk processes) (sessionRoots tmuxSessionID panes))
  refine ⟨_, sorted_before hnodup, fun p => ?_, ?_⟩
  · rw [hperm.mem_iff]
    exact mem_found_session hpos hdistinct tmuxSessionID panes p
  · rw [aggregateSessionProcesses_eq hsession]
    dsimp only
    rw [foldl_add_processCount, foldl_add_cpuPercent, foldl_add_memoryBytes, selectTopProcesses_eq, hperm.length_eq,
      (hperm.map Process.cpuPercent).sum_eq, (hperm.map fun p => p.memoryBytes.toNat).sum_eq]
    exact ⟨Nat.zero_add _, zero_add _, by simp, rfl⟩

/-- A pane within the tree of another, and processes that are each other's parents. -/
def nested : List Process := [⟨101, 301, "sh", 1, 100⟩, ⟨201, 101, "sh", 2, 200⟩, ⟨301, 201, "node", 3, 300⟩, ⟨901, 901, "x", 90, 9000⟩]

def nestedPanes : List TmuxPane := [⟨"$1", 101⟩, ⟨"$1", 201⟩, ⟨"$2", 901⟩]

theorem session_totals_nested : Totals (OfLivePane "$1" nestedPanes nested) 2 (aggregateSessionProcesses "$1" nestedPanes nested 2) :=
  ((@session_totals nested (by decide) (by decide) "$1" nestedPanes 2).2 (by decide)).1

/-- A process whose parent was the one of the pane and is gone. -/
def orphan : Process := ⟨5, 3, "sh", 1, 1024⟩

theorem orphan_total : (aggregateSessionProcesses "$0" [⟨"$0", 3⟩] [orphan] 10).processCount = 0 := by
  have hlook : (walk [orphan]).look 3 = none := rfl
  have hfound : found (walk [orphan]) (sessionRoots "$0" [⟨"$0", 3⟩]) = [] := by
    rw [show sessionRoots "$0" [⟨"$0", 3⟩] = [3] from rfl, found, run_none _ _ List.not_mem_nil hlook, run_nil]
  rw [aggregateSessionProcesses_eq (by decide), foldl_add_processCount, hfound]
  rfl

/-- Neither what is below a pane whose process is gone nor the session without a name is counted. -/
theorem session_uncounted :
    ¬Totals (OfSession "$0" [⟨"$0", 3⟩] [orphan]) 10 (aggregateSessionProcesses "$0" [⟨"$0", 3⟩] [orphan] 10) ∧
      ¬Totals (OfSession "" [⟨"", 5⟩] [orphan]) 10 (aggregateSessionProcesses "" [⟨"", 5⟩] [orphan] 10) := by
  have hnone : ∀ {counted : Process → Prop} {aggregate : PaneProcessAggregate}, counted orphan → aggregate.processCount = 0 →
      ¬Totals counted 10 aggregate := by
    rintro counted aggregate horphan hzero ⟨order, -, hmem, hcount, -⟩
    have hin := (hmem orphan).2 horphan
    rw [hzero, eq_comm, List.length_eq_zero_iff] at hcount
    rw [hcount] at hin
    cases hin
  constructor
  · exact hnone ⟨List.mem_singleton_self _, ⟨"$0", 3⟩, by simp, rfl, .single ⟨orphan, by simp, rfl, rfl⟩⟩ orphan_total
  · exact hnone ⟨List.mem_singleton_self _, ⟨"", 5⟩, by simp, rfl, .refl⟩ rfl

end Purdex.Monitor
