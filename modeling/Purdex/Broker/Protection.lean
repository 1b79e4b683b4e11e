/-
Which brokers a sweep hands to a kill sequence, by what its evaluation of the broker read: the
thread list, the state file, the results, the registry and the clock.
-/
import Purdex.Broker.KillSafety
import Purdex.Broker.Sweep

namespace Purdex.Broker

open Conc

/-! ## What an evaluation found -/

/-- What was read since the latest evaluation began. -/
def evaluation : History → History
  | [] => []
  | ev :: h => match ev.op with
    | .evalFn _ => []
    | _ => ev :: evaluation h

/-- The clock reading an evaluation begins with. -/
def idleClock (h : History) : Option Int :=
  match (evaluation h).getLast? with
  | some ⟨.now, now⟩ => some now
  | _ => none

/-- A running job was found abandoned: long without an update, or without its worker in the
process table. -/
def FoundStale (seg : History) (job : StateJobLite) : Prop :=
  match job.pid with
  | none => ∃ now, (⟨.now, now⟩ : Event iface) ∈ seg ∧ defaultStaleRunningThreshold < Time.sub now job.updatedAt
  | some pid => ∃ rows, (⟨.list staleDeadline, rows⟩ : Event iface) ∈ seg ∧ staleIn pid rows = true

/-- The broker was asked for its threads and none was active; its state file was read and had no
queued job and no running one that was not found stale. -/
structure NoPredicateA (record : BrokerRecord) (dialer : Bool) (seg : History) : Prop where
  asked : ∀ addr, dialer = true → record.endpoint ≠ "" → unixAddr record.endpoint = some addr →
    ∃ answer, (⟨.threadList addr, answer⟩ : Event iface) ∈ seg
  threads : ∀ addr threads, (⟨.threadList addr, .ok threads⟩ : Event iface) ∈ seg →
    ∀ thread ∈ threads, isActiveStatus thread.status = false
  opened : record.stateDir ≠ "" → ∃ answer, (⟨.openState record.stateDir, answer⟩ : Event iface) ∈ seg
  jobs : ∀ dir jobs, (⟨.openState dir, .decoded jobs⟩ : Event iface) ∈ seg →
    ∀ job ∈ jobs, job.status ≠ "queued" ∧ (job.status = "running" → FoundStale seg job)

/-- Every completed job of the state file was too old, or its result could not be read. -/
def NoPredicateB (record : BrokerRecord) (window : Int) (seg : History) : Prop :=
  ∀ dir jobs, (⟨.openState dir, .decoded jobs⟩ : Event iface) ∈ seg → ∀ job ∈ jobs, job.status = "completed" →
    ∀ completedAt, job.completedAt = some completedAt →
      (∃ now, (⟨.now, now⟩ : Event iface) ∈ seg ∧ window < Time.sub now completedAt) ∨
      ∃ answer, (⟨.openJobResult record.stateDir job.id, answer⟩ : Event iface) ∈ seg ∧ readable answer = false

/-- The working directory is gone, or the registry has no pane for the broker that was seen alive. -/
def NoPredicateC (record : BrokerRecord) (opts : DecisionOpts) (seg : History) : Prop :=
  recordHasAnomaly record .cwdMissing = true ∨ (⟨.stat record.cwd, .enoent⟩ : Event iface) ∈ seg ∨
    ∀ entry, (opts.registry.bind fun registry => registry.lookup record.key) = some entry →
      entry.tmuxPane = "" ∨ opts.panes = false ∨
      ∃ alive, (⟨.paneAlive entry.tmuxPane, alive⟩ : Event iface) ∈ seg ∧ alive ≠ some true

/-! ## The predicates' runs -/

def IsListing : Op → Prop
  | .list deadline => deadline ≠ verifyDeadline
  | _ => False

def IsA : Op → Prop
  | .list deadline => deadline ≠ verifyDeadline
  | .now | .threadList _ => True
  | _ => False

def IsB : Op → Prop
  | .now | .openJobResult _ _ => True
  | _ => False

def IsC : Op → Prop
  | .stat _ | .paneAlive _ => True
  | _ => False

theorem tryThreadList_only (record : BrokerRecord) (dialer : Bool) : (tryThreadList record dialer).Only IsA := by
  unfold tryThreadList
  split
  · trivial
  · split
    · trivial
    · refine only_bind (only_call trivial) fun answer => ?_
      split
      · trivial
      · trivial
      · split <;> trivial

theorem isStaleRunning_only (job : StateJobLite) (threshold now : Int) : (isStaleRunning job threshold now).Only IsListing := by
  unfold isStaleRunning
  split
  · trivial
  · split
    · trivial
    · exact only_bind (only_call (by decide : staleDeadline ≠ verifyDeadline)) fun _ => trivial

theorem busyJob_only (now : Int) : ∀ jobs, (busyJob now jobs).Only IsListing
  | [] => trivial
  | job :: jobs => by
    unfold busyJob
    split
    · trivial
    · split
      · refine only_bind (isStaleRunning_only _ _ _) fun stale => ?_
        split
        · exact busyJob_only now jobs
        · trivial
      · exact busyJob_only now jobs

theorem evalPredicateA_only (record : BrokerRecord) (jobs : List StateJobLite) (dialer : Bool) :
    (evalPredicateA record jobs dialer).Only IsA := by
  refine only_bind (tryThreadList_only _ _) fun (_, sawActive, _) => ?_
  cases sawActive with
  | true => trivial
  | false =>
    have hlisting : ∀ o, IsListing o → IsA o := fun o ho => by cases o <;> first | exact ho | trivial
    refine only_bind (only_call trivial) fun now => only_bind ((busyJob_only now jobs).mono hlisting) fun found => ?_
    cases found <;> trivial

theorem deliveredJob_only (record : BrokerRecord) (window now : Int) : ∀ jobs, (deliveredJob record window now jobs).Only IsB
  | [] => trivial
  | job :: jobs => by
    unfold deliveredJob
    split
    · split
      · exact deliveredJob_only record window now jobs
      · refine only_bind (only_call trivial) fun answer => ?_
        split
        · trivial
        · exact deliveredJob_only record window now jobs
    · exact deliveredJob_only record window now jobs

theorem evalPredicateB_only (record : BrokerRecord) (jobs : List StateJobLite) (window : Int) :
    (evalPredicateB record jobs window).Only IsB := by
  unfold evalPredicateB
  split
  · trivial
  · refine only_bind (only_call trivial) fun now => only_bind (deliveredJob_only record window now jobs) fun found => ?_
    split <;> trivial

theorem evalPredicateC_only (record : BrokerRecord) (opts : DecisionOpts) : (evalPredicateC record opts).Only IsC := by
  have hgone : (cwdGone record).Only IsC := by
    unfold cwdGone
    split
    · refine only_bind (only_call trivial) fun answer => ?_
      split <;> trivial
    · trivial
  unfold evalPredicateC
  split
  · trivial
  · refine only_bind hgone fun gone => ?_
    split
    · trivial
    · split
      · trivial
      · split
        · trivial
        · split
          · trivial
          · split
            · trivial
            · refine only_bind (only_call trivial) fun alive => ?_
              split <;> trivial

/-! ## What the predicates' runs read -/

theorem tryThreadList_run {record : BrokerRecord} {dialer ok : Bool} {detail : String} {l : History}
    (hr : Run (tryThreadList record dialer) l (ok, false, detail)) :
    (∀ addr, dialer = true → record.endpoint ≠ "" → unixAddr record.endpoint = some addr →
      ∃ answer, (⟨.threadList addr, answer⟩ : Event iface) ∈ l) ∧
    ∀ addr threads, (⟨.threadList addr, .ok threads⟩ : Event iface) ∈ l →
      ∀ thread ∈ threads, isActiveStatus thread.status = false := by
  unfold tryThreadList at hr
  split at hr
  · rename_i hoff
    obtain ⟨rfl, _⟩ := run_pure.1 hr
    refine ⟨fun addr hd he _ => ?_, by simp⟩
    simp [hd, he] at hoff
  split at hr
  · rename_i hnone
    obtain ⟨rfl, _⟩ := run_pure.1 hr
    exact ⟨fun addr _ _ ha => by simp [hnone] at ha, by simp⟩
  rename_i addr haddr
  obtain ⟨answer, l₂, hrest, rfl⟩ := run_call_bind.1 hr
  have hl₂ : l₂ = [] ∧ ∀ threads, answer = .ok threads → ∀ thread ∈ threads, isActiveStatus thread.status = false := by
    split at hrest
    · obtain ⟨rfl, _⟩ := run_pure.1 hrest
      exact ⟨rfl, by simp⟩
    · obtain ⟨rfl, _⟩ := run_pure.1 hrest
      refine ⟨rfl, ?_⟩
      rintro _ ⟨⟩ thread ⟨⟩
    · split at hrest
      · obtain ⟨_, h⟩ := run_pure.1 hrest
        simp at h
      · rename_i hfind
        obtain ⟨rfl, _⟩ := run_pure.1 hrest
        refine ⟨rfl, ?_⟩
        rintro _ ⟨⟩ thread hmem
        simpa using List.find?_eq_none.1 hfind thread hmem
  obtain ⟨rfl, hquiet⟩ := hl₂
  refine ⟨fun addr' _ _ ha => ?_, fun addr' threads hmem => ?_⟩
  · obtain rfl := Option.some.inj (haddr.symm.trans ha)
    exact ⟨answer, by simp⟩
  · have hev := List.mem_singleton.1 hmem
    cases hev
    exact hquiet threads rfl

theorem isStaleRunning_run {job : StateJobLite} {now : Int} {l : History} (hrunning : job.status = "running")
    (hr : Run (isStaleRunning job defaultStaleRunningThreshold now) l true) (seg : History) (hl : l ⊆ seg)
    (hnow : (⟨.now, now⟩ : Event iface) ∈ seg) : FoundStale seg job := by
  unfold isStaleRunning at hr
  rw [if_neg (by simp [hrunning])] at hr
  unfold FoundStale
  cases hpid : job.pid with
  | none =>
    rw [hpid] at hr
    obtain ⟨_, hstale⟩ := run_pure.1 hr
    exact ⟨now, hnow, by simpa using hstale⟩
  | some pid =>
    rw [hpid] at hr
    obtain ⟨rows, l₂, hrest, rfl⟩ := run_call_bind.1 hr
    obtain ⟨rfl, hstale⟩ := run_pure.1 hrest
    exact ⟨rows, hl (by simp), hstale.symm⟩

theorem busyJob_run {now : Int} (seg : History) (hnow : (⟨.now, now⟩ : Event iface) ∈ seg) :
    ∀ {jobs : List StateJobLite} {l : History}, Run (busyJob now jobs) l none → l ⊆ seg →
      ∀ job ∈ jobs, job.status ≠ "queued" ∧ (job.status = "running" → FoundStale seg job)
  | [], _, _, _ => by simp
  | job :: jobs, l, hr, hl => by
    unfold busyJob at hr
    split at hr
    · obtain ⟨_, h⟩ := run_pure.1 hr
      cases h
    rename_i hqueued
    split at hr
    · rename_i hrunning
      obtain ⟨l₁, stale, l₂, hstale, hrest, rfl⟩ := run_bind.1 hr
      split at hrest
      · rename_i hs
        subst hs
        have hjob := isStaleRunning_run hrunning hstale seg (List.Subset.trans (List.subset_append_right _ _) hl) hnow
        have htail := busyJob_run seg hnow hrest (List.Subset.trans (List.subset_append_left _ _) hl)
        exact List.forall_mem_cons.2 ⟨⟨hqueued, fun _ => hjob⟩, htail⟩
      · obtain ⟨_, h⟩ := run_pure.1 hrest
        cases h
    · rename_i hrunning
      exact List.forall_mem_cons.2 ⟨⟨hqueued, fun h => absurd h hrunning⟩, busyJob_run seg hnow hr hl⟩

theorem evalPredicateA_run {record : BrokerRecord} {jobs : List StateJobLite} {dialer : Bool} {detail : String}
    {l : History} (hr : Run (evalPredicateA record jobs dialer) l (false, detail)) :
    (∀ addr, dialer = true → record.endpoint ≠ "" → unixAddr record.endpoint = some addr →
      ∃ answer, (⟨.threadList addr, answer⟩ : Event iface) ∈ l) ∧
    (∀ addr threads, (⟨.threadList addr, .ok threads⟩ : Event iface) ∈ l →
      ∀ thread ∈ threads, isActiveStatus thread.status = false) ∧
    ∀ seg, l ⊆ seg → ∀ job ∈ jobs, job.status ≠ "queued" ∧ (job.status = "running" → FoundStale seg job) := by
  obtain ⟨l₁, ⟨ok, sawActive, detail'⟩, l₂, hthreads, hrest, rfl⟩ := run_bind.1 hr
  cases sawActive with
  | true =>
    obtain ⟨_, h⟩ := run_pure.1 hrest
    cases h
  | false =>
    obtain ⟨hasked, hquiet⟩ := tryThreadList_run hthreads
    obtain ⟨now, l₃, hjobs, rfl⟩ := run_call_bind.1 hrest
    obtain ⟨l₄, found, l₅, hbusy, hend, rfl⟩ := run_bind.1 hjobs
    cases found with
    | some detail =>
      obtain ⟨_, h⟩ := run_pure.1 hend
      cases h
    | none =>
      obtain ⟨rfl, _⟩ := run_pure.1 hend
      refine ⟨fun addr hd he ha => ?_, fun addr threads hmem => ?_, fun seg hl => ?_⟩
      · obtain ⟨answer, hmem⟩ := hasked addr hd he ha
        exact ⟨answer, by simp [hmem]⟩
      · -- the listings of the jobs come after the thread list
        rcases List.mem_append.1 hmem with hmem | hmem
        · rcases List.mem_append.1 hmem with hmem | hmem
          · exact (hbusy.only (busyJob_only now jobs) _ hmem).elim
          · cases List.mem_singleton.1 hmem
        · exact hquiet addr threads hmem
      · exact busyJob_run seg (hl (by simp)) hbusy fun ev hev => hl (by simp [hev])

theorem deliveredJob_run {record : BrokerRecord} {window now : Int} (seg : History)
    (hnow : (⟨.now, now⟩ : Event iface) ∈ seg) : ∀ {jobs : List StateJobLite} {l : History},
    Run (deliveredJob record window now jobs) l none → l ⊆ seg → ∀ job ∈ jobs, job.status = "completed" →
      ∀ completedAt, job.completedAt = some completedAt →
        (∃ now, (⟨.now, now⟩ : Event iface) ∈ seg ∧ window < Time.sub now completedAt) ∨
        ∃ answer, (⟨.openJobResult record.stateDir job.id, answer⟩ : Event iface) ∈ seg ∧ readable answer = false
  | [], _, _, _ => by simp
  | job :: jobs, l, hr, hl => by
    unfold deliveredJob at hr
    split at hr
    · rename_i completedAt _ hat
      split at hr
      · rename_i hold
        refine List.forall_mem_cons.2 ⟨fun _ t ht => .inl ⟨now, hnow, ?_⟩, deliveredJob_run seg hnow hr hl⟩
        obtain rfl := Option.some.inj (hat.symm.trans ht)
        exact hold
      · obtain ⟨answer, l₂, hrest, rfl⟩ := run_call_bind.1 hr
        split at hrest
        · obtain ⟨_, h⟩ := run_pure.1 hrest
          cases h
        · rename_i hread
          have htail := deliveredJob_run seg hnow hrest (List.Subset.trans (List.subset_append_left _ _) hl)
          exact List.forall_mem_cons.2 ⟨fun _ _ _ => .inr ⟨answer, hl (by simp), by simpa using hread⟩, htail⟩
    · rename_i hother
      refine List.forall_mem_cons.2 ⟨fun hs t ht => ?_, deliveredJob_run seg hnow hr hl⟩
      exact (hother t (by simp [hs]) ht).elim

theorem evalPredicateB_run {record : BrokerRecord} {jobs : List StateJobLite} {window : Int} {detail : String}
    {l : History} (hr : Run (evalPredicateB record jobs window) l (false, detail)) (hdir : record.stateDir ≠ "")
    (seg : History) (hl : l ⊆ seg) : ∀ job ∈ jobs, job.status = "completed" →
      ∀ completedAt, job.completedAt = some completedAt →
        (∃ now, (⟨.now, now⟩ : Event iface) ∈ seg ∧ window < Time.sub now completedAt) ∨
        ∃ answer, (⟨.openJobResult record.stateDir job.id, answer⟩ : Event iface) ∈ seg ∧ readable answer = false := by
  unfold evalPredicateB at hr
  rw [if_neg hdir] at hr
  obtain ⟨now, l₂, hrest, rfl⟩ := run_call_bind.1 hr
  obtain ⟨l₃, found, l₄, hjobs, hend, rfl⟩ := run_bind.1 hrest
  cases found with
  | some detail =>
    obtain ⟨_, h⟩ := run_pure.1 hend
    cases h
  | none => exact deliveredJob_run seg (hl (by simp)) hjobs fun ev hev => hl (by simp [hev])

theorem evalPredicateC_run {record : BrokerRecord} {opts : DecisionOpts} {detail : String} {l : History}
    (hr : Run (evalPredicateC record opts) l (false, detail)) (seg : History) (hl : l ⊆ seg) :
    NoPredicateC record opts seg := by
  unfold evalPredicateC at hr
  split at hr
  · rename_i hmissing
    exact .inl hmissing
  obtain ⟨l₁, gone, l₂, hgone, hrest, rfl⟩ := run_bind.1 hr
  cases gone with
  | true =>
    refine .inr (.inl (hl (List.mem_append_right _ ?_)))
    unfold cwdGone at hgone
    split at hgone
    · obtain ⟨answer, l₃, hstat, rfl⟩ := run_call_bind.1 hgone
      cases answer with
      | enoent => simp
      | ok => cases (run_pure.1 hstat).2
      | transient => cases (run_pure.1 hstat).2
    · cases (run_pure.1 hgone).2
  | false =>
    refine .inr (.inr fun entry hentry => ?_)
    simp only [Bool.false_eq_true, if_false] at hrest
    cases hreg : opts.registry with
    | none => simp [hreg] at hentry
    | some registry =>
      simp only [hreg, Option.bind_some] at hentry hrest
      simp only [hentry] at hrest
      split at hrest
      · rename_i hpane
        exact .inl hpane
      split at hrest
      · rename_i hoff
        exact .inr (.inl (by simpa using hoff))
      · obtain ⟨alive, l₃, hend, rfl⟩ := run_call_bind.1 hrest
        refine .inr (.inr ⟨alive, hl (by simp), ?_⟩)
        rintro rfl
        cases (run_pure.1 hend).2

/-! ## The decision's run -/

/-- Events of an evaluation: nothing that begins another one, kills or quarantines. -/
def Evaluates : Op → Prop
  | .list deadline => deadline ≠ verifyDeadline
  | .now | .threadList _ | .openState _ | .openJobResult _ _ | .stat _ | .paneAlive _ => True
  | _ => False

theorem readStateJobs_only (stateDir : String) : (readStateJobs stateDir).Only Evaluates := by
  unfold readStateJobs
  split
  · trivial
  · exact only_bind (only_call trivial) fun _ => trivial

theorem evalDecision_only (record : BrokerRecord) (opts : DecisionOpts) (tracker : Option E1Tracker) :
    (evalDecision record opts tracker).Only Evaluates := by
  have ha : ∀ o, IsA o → Evaluates o := fun o ho => by cases o <;> first | exact ho | trivial
  have hb : ∀ o, IsB o → Evaluates o := fun o ho => by cases o <;> trivial
  have hc : ∀ o, IsC o → Evaluates o := fun o ho => by cases o <;> trivial
  refine only_bind (only_call trivial) fun now => only_bind (readStateJobs_only _) fun (jobs, _) => ?_
  refine only_bind ((evalPredicateA_only _ _ _).mono ha) fun _ => ?_
  refine only_bind ((evalPredicateB_only _ _ _).mono hb) fun _ => ?_
  exact only_bind ((evalPredicateC_only _ _).mono hc) fun _ => trivial

theorem readStateJobs_run {stateDir : String} {jobs : List StateJobLite} {failed : Bool} {l : History}
    (hr : Run (readStateJobs stateDir) l (jobs, failed)) :
    (stateDir ≠ "" → ∃ answer, (⟨.openState stateDir, answer⟩ : Event iface) ∈ l) ∧
    (∀ dir read, (⟨.openState dir, .decoded read⟩ : Event iface) ∈ l → stateDir ≠ "" ∧ read = jobs) ∧
    ∀ addr answer, (⟨.threadList addr, answer⟩ : Event iface) ∉ l := by
  unfold readStateJobs at hr
  split at hr
  · rename_i hdir
    obtain ⟨rfl, _⟩ := run_pure.1 hr
    exact ⟨fun h => absurd hdir h, by simp, by simp⟩
  · rename_i hdir
    obtain ⟨answer, l₂, hrest, rfl⟩ := run_call_bind.1 hr
    obtain ⟨rfl, hjobs⟩ := run_pure.1 hrest
    refine ⟨fun _ => ⟨answer, by simp⟩, fun dir read hmem => ?_, fun addr answer hmem => ?_⟩
    · cases List.mem_singleton.1 hmem
      exact ⟨hdir, (congrArg Prod.fst hjobs).symm⟩
    · cases List.mem_singleton.1 hmem

/-- What is known of a record whose verdict is to kill it. -/
structure Killable (record : BrokerRecord) (opts : DecisionOpts) (now : Int) (seg : History) : Prop where
  noA : NoPredicateA record opts.dialer seg
  noB : NoPredicateB record (orDefault opts.resultWindow defaultRecentResultWindow) seg
  noC : NoPredicateC record opts seg
  expired : idleExpired (orDefault opts.idleTimeout defaultIdleTimeout) (idleSeconds record now) = true

theorem evalDecision_run {record : BrokerRecord} {opts : DecisionOpts} {tracker tracker' : Option E1Tracker}
    {decision : DecisionResult} {l : History} (hr : Run (evalDecision record opts tracker) l (decision, tracker')) :
    ∃ now, l.getLast? = some ⟨.now, now⟩ ∧ (decision.kill = true → Killable record opts now l) ∧
      (decision.reason ≠ "foreign_quarantine" → isForeign opts.registry record.key = false) := by
  obtain ⟨now, l₁, hr₁, rfl⟩ := run_call_bind.1 hr
  obtain ⟨lj, ⟨jobs, failed⟩, l₂, hj, hr₂, rfl⟩ := run_bind.1 hr₁
  obtain ⟨la, ⟨a, aDetail⟩, l₃, ha, hr₃, rfl⟩ := run_bind.1 hr₂
  obtain ⟨lb, ⟨b, bDetail⟩, l₄, hb, hr₄, rfl⟩ := run_bind.1 hr₃
  obtain ⟨lc, ⟨c, cDetail⟩, l₅, hc, hr₅, rfl⟩ := run_bind.1 hr₄
  obtain ⟨rfl, hd⟩ := run_pure.1 hr₅
  obtain ⟨rfl, rfl⟩ := Prod.mk.inj hd
  refine ⟨now, by simp, fun hkill => ?_, fun hreason => ?_⟩
  · simp only [Bool.and_eq_true, Bool.not_eq_true'] at hkill
    obtain ⟨⟨⟨rfl, rfl⟩, rfl⟩, hexpired⟩ := hkill
    obtain ⟨hopened, hread, hnothread⟩ := readStateJobs_run hj
    obtain ⟨hasked, hquiet, hjobs⟩ := evalPredicateA_run ha
    -- each file and thread list was read in one place only
    have hstate : ∀ dir read, (⟨.openState dir, .decoded read⟩ : Event iface) ∈
        (([] ++ lc ++ lb) ++ la ++ lj) ++ [⟨.now, now⟩] → record.stateDir ≠ "" ∧ read = jobs := by
      intro dir read hmem
      simp only [List.nil_append, List.mem_append, List.mem_singleton] at hmem
      rcases hmem with (((hmem | hmem) | hmem) | hmem) | hmem
      · exact (hc.only (evalPredicateC_only _ _) _ hmem).elim
      · exact (hb.only (evalPredicateB_only _ _ _) _ hmem).elim
      · exact (ha.only (evalPredicateA_only _ _ _) _ hmem).elim
      · exact hread dir read hmem
      · cases hmem
    have hthread : ∀ addr answer, (⟨.threadList addr, answer⟩ : Event iface) ∈
        (([] ++ lc ++ lb) ++ la ++ lj) ++ [⟨.now, now⟩] → (⟨.threadList addr, answer⟩ : Event iface) ∈ la := by
      intro addr answer hmem
      simp only [List.nil_append, List.mem_append, List.mem_singleton] at hmem
      rcases hmem with (((hmem | hmem) | hmem) | hmem) | hmem
      · exact (hc.only (evalPredicateC_only _ _) _ hmem).elim
      · exact (hb.only (evalPredicateB_only _ _ _) _ hmem).elim
      · exact hmem
      · exact absurd hmem (hnothread addr answer)
      · cases hmem
    refine ⟨⟨fun addr hd he hu => ?_, fun addr threads hmem => ?_, fun hdir => ?_, fun dir read hmem => ?_⟩,
      fun dir read hmem => ?_, evalPredicateC_run hc _ (by simp), hexpired⟩
    · obtain ⟨answer, hmem⟩ := hasked addr hd he hu
      exact ⟨answer, by simp [hmem]⟩
    · exact hquiet addr threads (hthread addr _ hmem)
    · obtain ⟨answer, hmem⟩ := hopened hdir
      exact ⟨answer, by simp [hmem]⟩
    · obtain ⟨_, rfl⟩ := hstate dir read hmem
      exact hjobs _ fun ev hev => by simp [hev]
    · obtain ⟨hdir, rfl⟩ := hstate dir read hmem
      exact evalPredicateB_run hb hdir _ fun ev hev => by simp [hev]
  · by_contra hforeign
    simp only [Bool.not_eq_false] at hforeign
    simp [hforeign] at hreason

/-! ## The idle rule -/

theorem orDefault_pos {d fallback : Int} (h : 0 < fallback) : 0 < orDefault d fallback := by
  unfold orDefault
  split <;> omega

/-- An expired idle time is one that has run out, unless the last update lies a second or more ahead
of the clock: the seconds since then are negative, and so stand for a record without updates. -/
theorem idle_old_iff {record : BrokerRecord} {timeout now updatedAt : Int} (htimeout : 0 < timeout)
    (hat : record.lastJobUpdatedAt = some updatedAt) (h : idleExpired timeout (idleSeconds record now) = true) :
    timeout ≤ now - updatedAt ↔ ¬ second ≤ updatedAt - now := by
  have hsub : Time.sub now updatedAt = max minDuration (min maxDuration (now - updatedAt)) := rfl
  simp only [idleExpired, idleSeconds, hat, Duration.wholeSeconds, Bool.or_eq_true, decide_eq_true_eq] at h
  generalize Time.sub now updatedAt = d at *
  simp only [second, minDuration, maxDuration] at *
  constructor
  · omega
  · intro hahead
    rcases Int.lt_or_le d 0 with hneg | hpos
    · have hzero : Int.tdiv d (10 ^ 9) = 0 := by
        rw [← Int.neg_neg d, Int.neg_tdiv, Int.tdiv_eq_zero_of_lt (by omega) (by omega), Int.neg_zero]
      rw [hzero] at h
      omega
    · rw [Int.tdiv_eq_ediv_of_nonneg hpos] at h
      omega

/-! ## The sweep -/

/-- The key is in the quarantine file the sweep began with, or was added since. -/
def QuarantinedAt (st : SweepState) (h : History) (key : String) : Prop :=
  isQuarantined st.quarantine key = true ∨
    ∃ entry, (⟨.addEntry entry, ()⟩ : Event iface) ∈ h ∧ entry.brokerKey = key

def Registered (handler : SweepHandler) (key : String) : Prop :=
  ∃ registry entry, handler.decisionOpts.registry = some registry ∧ registry.lookup key = some entry

/-- What protects a broker when the killer is invoked for it, next to the idle rule. -/
structure KillAllowed (handler : SweepHandler) (req : SweepRequest) (st : SweepState) (h : History)
    (record : BrokerRecord) : Prop where
  mode : req.mode = "apply"
  noA : NoPredicateA record handler.opts.dialer (evaluation h)
  noB : NoPredicateB record (orDefault handler.opts.resultWindow defaultRecentResultWindow) (evaluation h)
  noC : NoPredicateC record handler.decisionOpts (evaluation h)
  unquarantined : ¬ QuarantinedAt st h record.key
  owned : Registered handler record.key ∨ req.brokerKey ≠ "" ∧ req.brokerKey = record.key

/-- The record's last job update is unknown or at least the idle timeout old. -/
def IdleLongEnough (handler : SweepHandler) (h : History) (record : BrokerRecord) : Prop :=
  ∀ updatedAt, record.lastJobUpdatedAt = some updatedAt →
    ∃ now, idleClock h = some now ∧ orDefault handler.opts.idleTimeout defaultIdleTimeout ≤ now - updatedAt

/-- The record's last job update lies a second or more ahead of the clock. -/
def UpdatedAhead (h : History) (record : BrokerRecord) : Prop :=
  ∃ now updatedAt, idleClock h = some now ∧ record.lastJobUpdatedAt = some updatedAt ∧ second ≤ updatedAt - now

def SweepGuard (handler : SweepHandler) (req : SweepRequest) (st : SweepState) (h : History) : Op → Prop
  | .killerRun record => KillAllowed handler req st h record ∧ (IdleLongEnough handler h record ↔ ¬ UpdatedAhead h record)
  | _ => True

/-- The file the sweep passes along is the one it began with and what it added. -/
def Tracks (st₀ : SweepState) (h : History) (st : SweepState) : Prop :=
  ∀ key, isQuarantined st.quarantine key = true ↔ QuarantinedAt st₀ h key

theorem replaceFirst_any (entry : QuarantineEntry) (key : String) : ∀ entries : List QuarantineEntry,
    (∃ existing ∈ entries, existing.brokerKey = entry.brokerKey) →
    ((addEntry.replaceFirst entry entries).any fun e => e.brokerKey == key) = entries.any fun e => e.brokerKey == key
  | [], ⟨_, hmem, _⟩ => absurd hmem (by simp)
  | existing :: rest, ⟨found, hmem, hkey⟩ => by
    unfold addEntry.replaceFirst
    split
    · rename_i heq
      simp [heq]
    · rename_i hne
      have htail : ∃ e ∈ rest, e.brokerKey = entry.brokerKey := by
        rcases List.mem_cons.1 hmem with rfl | hmem
        · exact absurd hkey hne
        · exact ⟨found, hmem, hkey⟩
      rw [List.any_cons, List.any_cons, replaceFirst_any entry key rest htail]

theorem isQuarantined_addEntry (file : Option QuarantineFile) (entry : QuarantineEntry) (key : String) :
    isQuarantined (some (addEntry file entry)) key = true ↔
      isQuarantined file key = true ∨ entry.brokerKey = key := by
  have hfile : isQuarantined file key = (file.getD ⟨1, []⟩).entries.any fun e => e.brokerKey == key := by
    cases file <;> rfl
  rw [hfile]
  unfold addEntry isQuarantined
  generalize file.getD ⟨1, []⟩ = file
  simp only
  split
  · rename_i hany
    obtain ⟨existing, hmem, hkey⟩ := List.any_eq_true.1 hany
    rw [replaceFirst_any entry key _ ⟨existing, hmem, by simpa using hkey⟩]
    constructor
    · exact .inl
    · rintro (h | rfl)
      · exact h
      · exact hany
  · simp [or_comm]

/-! ### One record -/

/-- What a kill sequence and the quarantine of its record may issue. -/
def Quiet : Op → Prop
  | .evalFn _ | .killerRun _ | .addEntry _ => False
  | _ => True

theorem Watches.quiet : ∀ {o : Op}, Watches o → Quiet o := by
  intro o ho
  cases o <;> trivial

theorem verifyIdentity_only (record : BrokerRecord) (lister : Bool) : (verifyIdentity record lister).Only Quiet := by
  unfold verifyIdentity
  split
  · trivial
  · exact only_bind (only_call trivial) fun _ => trivial

theorem signalAndWait_only (ks : KillSequence) (sig : Signal) (budget : Int) : (signalAndWait ks sig budget).Only Quiet := by
  unfold signalAndWait
  split
  · trivial
  refine only_bind (verifyIdentity_only _ _) fun (ok, _) => ?_
  cases ok with
  | false => trivial
  | true =>
    refine only_bind (only_call trivial) fun answer => ?_
    split
    · trivial
    · split
      · trivial
      · refine only_bind (only_call trivial) fun sent => ?_
        split
        · exact only_bind ((waitForExit_only ks budget).mono fun _ => Watches.quiet) fun _ => trivial
        · trivial

theorem finish_only (ks : KillSequence) (verifier : Bool) (path : String) (res : KillResult) :
    (finish ks verifier path res).Only Quiet := by
  have hverify : (stepVerifyGone ks).Only Quiet := by
    unfold stepVerifyGone
    split
    · exact only_bind (only_call trivial) fun _ => trivial
    · trivial
  have hheld : (socketHeld ks verifier).Only Quiet := by
    unfold socketHeld
    split
    · trivial
    · exact only_bind (only_call trivial) fun _ => trivial
  have hclean : (stepCleanup ks verifier).Only Quiet := by
    unfold stepCleanup
    split
    · trivial
    · refine only_bind hheld fun held => ?_
      split
      · trivial
      · exact only_call trivial
  exact only_bind hverify fun _ => only_bind hclean fun _ => only_bind (only_call trivial) fun _ => trivial

theorem run_only (ks : KillSequence) (decision : DecisionResult) (verifier : Bool) :
    (ks.run decision verifier).Only Quiet := by
  have hsignals : (signals ks).Only Quiet := by
    refine only_bind (signalAndWait_only _ _ _) fun r => ?_
    rcases r with _ | _ | _
    · trivial
    · refine only_bind (signalAndWait_only _ _ _) fun r => ?_
      rcases r with _ | _ <;> trivial
    · trivial
  refine only_bind (verifyIdentity_only _ _) fun (ok, _) => ?_
  cases ok with
  | false => trivial
  | true =>
    refine only_bind (only_call trivial) fun written => ?_
    rcases written with _ | path
    · trivial
    refine only_bind ((stepGraceful_only ks).mono fun _ => Watches.quiet) fun gone => ?_
    split
    · exact finish_only _ _ _ _
    · refine only_bind hsignals fun r => ?_
      rcases r with _ | res
      · trivial
      · exact finish_only _ _ _ _

section Sweep

variable {handler : SweepHandler} {req : SweepRequest} {st₀ st : SweepState} {h : History}

/-- What leaves the quarantine file alone. -/
def KeepsFile : Op → Prop
  | .addEntry _ => False
  | _ => True

theorem Quiet.keepsFile : ∀ {o : Op}, Quiet o → KeepsFile o := by
  intro o ho
  cases o <;> trivial

theorem Tracks.grew {h' : History} (ht : Tracks st₀ h st) : Grew (fun ev => KeepsFile ev.op) h h' → Tracks st₀ h' st
  | ⟨l, hl, hkeeps⟩ => fun key => by
    rw [ht key, hl]
    refine or_congr_right (exists_congr fun entry => and_congr_left' ?_)
    rw [List.mem_append]
    exact ⟨.inr, fun hmem => hmem.resolve_left fun hmem => hkeeps _ hmem⟩

theorem Tracks.quiet {h' : History} (ht : Tracks st₀ h st) (hg : Grew (fun ev => Quiet ev.op) h h') : Tracks st₀ h' st :=
  ht.grew (hg.mono fun _ => Quiet.keepsFile)

theorem Tracks.cons (ht : Tracks st₀ h st) {ev : Event iface} (hev : KeepsFile ev.op) : Tracks st₀ (ev :: h) st :=
  ht.grew (.cons hev (.refl h))

theorem Tracks.added (ht : Tracks st₀ h st) (entry : QuarantineEntry) :
    Tracks st₀ ((⟨.addEntry entry, ()⟩ : Event iface) :: h) { st with quarantine := some (addEntry st.quarantine entry) } := by
  intro key
  rw [isQuarantined_addEntry, ht key]
  unfold QuarantinedAt
  constructor
  · rintro ((h | ⟨e, hmem, hkey⟩) | hkey)
    · exact .inl h
    · exact .inr ⟨e, List.mem_cons_of_mem _ hmem, hkey⟩
    · exact .inr ⟨entry, List.mem_cons_self, hkey⟩
  · rintro (h | ⟨e, hmem, hkey⟩)
    · exact .inl (.inl h)
    · rcases List.mem_cons.1 hmem with heq | hmem
      · cases heq
        exact .inr hkey
      · exact .inl (.inr ⟨e, hmem, hkey⟩)

/-- The sweep under its guard, whatever is answered. -/
abbrev sweepSpec (handler : SweepHandler) (req : SweepRequest) (st₀ : SweepState) : Spec iface :=
  anyAnswer (SweepGuard handler req st₀)

theorem quiet_allowed (h : History) (o : Op) (ho : Quiet o) : (sweepSpec handler req st₀).ok h o := by
  cases o <;> trivial

theorem snapshotFingerprint_only (record : BrokerRecord) : (snapshotFingerprint handler record).Only Quiet := by
  unfold snapshotFingerprint
  split
  · trivial
  · refine only_bind (only_call trivial) fun answer => ?_
    split
    · trivial
    · split <;> trivial

theorem recordQuarantine_spec (ht : Tracks st₀ h st) (record : BrokerRecord) :
    wp (sweepSpec handler req st₀) (recordQuarantine handler st.quarantine record)
      (fun h' r => Tracks st₀ h' { st with quarantine := some r.1 }) h := by
  refine wp_seq (wp_of_only quiet_allowed (snapshotFingerprint_only record) fun h₁ _ hg => ht.quiet hg) fun h₁ fp _ ht₁ => ?_
  refine wp_call_seq trivial fun (now : Int) _ => wp_call_seq trivial fun added _ => ?_
  have hnow : KeepsFile (Event.op (I := iface) ⟨Op.now, now⟩) := trivial
  have hadded := (ht₁.cons hnow).added
    ⟨record.key, record.pid, record.lstart, now, "pid_reuse_suspicion", fp, now + handler.retentionDays * day⟩
  split
  · exact hadded
  · refine wp_call_seq trivial fun saved _ => ?_
    have hkeeps : KeepsFile (Event.op (I := iface) ⟨Op.saveQuarantine, saved⟩) := trivial
    split <;> exact hadded.cons hkeeps

theorem killOne_spec (ht : Tracks st₀ h st) {record : BrokerRecord} (decision : DecisionResult) (resp : SweepResponse)
    (hok : SweepGuard handler req st₀ h (.killerRun record)) :
    wp (sweepSpec handler req st₀) (killOne handler record decision st resp) (fun h' r => Tracks st₀ h' r.1) h := by
  refine wp_call_seq hok fun started _ => ?_
  have hstarted : Tracks st₀ (⟨.killerRun record, started⟩ :: h) st := ht.grew (.cons trivial (.refl h))
  refine wp_seq (wp_of_only quiet_allowed (run_only _ _ _) fun h₁ _ hg => hstarted.quiet hg) fun h₁ r _ ht₁ => ?_
  rcases r with e | res
  · simp only
    split
    · refine wp_seq (recordQuarantine_spec ht₁ record) fun h₂ (file, saveErr) _ ht₂ => ?_
      cases saveErr <;> exact ht₂
    · exact ht₁
  · exact ht₁

/-- The evaluation of a record begins where its `EvalFn` was called. -/
theorem evaluation_append {l : History} (hl : ∀ ev ∈ l, Evaluates ev.op) (record : BrokerRecord) :
    evaluation (l ++ (⟨.evalFn record, ()⟩ : Event iface) :: h) = l := by
  induction l with
  | nil => rfl
  | cons ev l ih =>
    have hev := hl ev (by simp)
    have htail := ih fun e he => hl e (by simp [he])
    obtain ⟨o, r⟩ := ev
    cases o <;> first | exact congrArg _ htail | exact hev.elim

theorem Evaluates.keepsFile : ∀ {o : Op}, Evaluates o → KeepsFile o := by
  intro o ho
  cases o <;> trivial

theorem shouldKill_cases {mode brokerKey : String} {decision : DecisionResult} {reason : String}
    (h : shouldKill mode brokerKey decision = (true, reason)) :
    mode = "apply" ∧ decision.kill = true ∧ (decision.reason = "foreign_quarantine" → brokerKey ≠ "") := by
  unfold shouldKill at h
  by_cases hm : mode = "apply"
  · cases hk : decision.kill with
    | false => simp [hm, hk] at h
    | true =>
      refine ⟨hm, rfl, fun hf hb => ?_⟩
      simp [hm, hk, hf, hb] at h
  · simp [hm] at h

theorem apply_of_effectiveMode (h : req.effectiveMode = "apply") : req.mode = "apply" := by
  unfold SweepRequest.effectiveMode at h
  split at h
  · exact absurd h (by decide)
  · exact h

/-- A verdict to kill, reached by the evaluation that just ended, is one the guard allows. -/
theorem killerRun_allowed (ht : Tracks st₀ h st) {record : BrokerRecord} {tracker : Option E1Tracker} {reason : String}
    {decision : DecisionResult} {l : History} (hkey : ¬ (req.brokerKey ≠ "" ∧ record.key ≠ req.brokerKey))
    (hfree : isQuarantined st.quarantine record.key = false)
    (hrun : Run (evalDecision record handler.decisionOpts st.tracker) l (decision, tracker))
    (hkill : shouldKill req.effectiveMode req.brokerKey decision = (true, reason)) :
    SweepGuard handler req st₀ (l ++ (⟨.evalFn record, ()⟩ : Event iface) :: h) (.killerRun record) := by
  have hevents := hrun.only (evalDecision_only _ _ _)
  have heval : evaluation (l ++ (⟨.evalFn record, ()⟩ : Event iface) :: h) = l := evaluation_append hevents record
  obtain ⟨now, hlast, hkillable, howned⟩ := evalDecision_run hrun
  obtain ⟨hmode, hverdict, hexplicit⟩ := shouldKill_cases hkill
  have hknown := hkillable hverdict
  have hclock : idleClock (l ++ (⟨.evalFn record, ()⟩ : Event iface) :: h) = some now := by
    rw [idleClock, heval, hlast]
    rfl
  have hbegun : KeepsFile (Event.op (I := iface) ⟨.evalFn record, ()⟩) := trivial
  have htracks : Tracks st₀ (l ++ (⟨.evalFn record, ()⟩ : Event iface) :: h) st :=
    (ht.cons hbegun).grew ⟨l, rfl, fun ev hev => (hevents ev hev).keepsFile⟩
  refine ⟨⟨apply_of_effectiveMode hmode, heval.symm ▸ hknown.noA, heval.symm ▸ hknown.noB, heval.symm ▸ hknown.noC, ?_, ?_⟩, ?_⟩
  · rw [← htracks record.key, hfree]
    exact Bool.false_ne_true
  · by_cases hforeign : decision.reason = "foreign_quarantine"
    · have hne := hexplicit hforeign
      exact .inr ⟨hne, by_contra fun hk => hkey ⟨hne, Ne.symm hk⟩⟩
    · have hmine := howned hforeign
      unfold isForeign at hmine
      split at hmine
      · cases hmine
      · rename_i registry hreg
        simp only [Bool.or_eq_false_iff, Option.isNone_eq_false_iff, Option.isSome_iff_exists] at hmine
        obtain ⟨entry, hentry⟩ := hmine.2
        exact .inl ⟨registry, entry, hreg, hentry⟩
  · have htimeout : 0 < orDefault handler.opts.idleTimeout defaultIdleTimeout := orDefault_pos (by decide)
    constructor
    · rintro hold ⟨now', updatedAt, hnow', hat, hahead⟩
      obtain ⟨_, hnow, hle⟩ := hold updatedAt hat
      obtain rfl := Option.some.inj (hnow'.symm.trans hnow)
      exact (idle_old_iff htimeout hat (Option.some.inj (hclock.symm.trans hnow) ▸ hknown.expired)).1 hle hahead
    · intro hahead updatedAt hat
      refine ⟨now, hclock, (idle_old_iff htimeout hat hknown.expired).2 fun h => hahead ⟨now, updatedAt, hclock, hat, h⟩⟩

theorem sweepRecord_spec (ht : Tracks st₀ h st) (record : BrokerRecord) (resp : SweepResponse) :
    wp (sweepSpec handler req st₀) (sweepRecord handler req.effectiveMode req.brokerKey record st resp)
      (fun h' r => Tracks st₀ h' r.1) h := by
  unfold sweepRecord
  split
  · exact ht
  rename_i hkey
  split
  · exact ht
  rename_i hfree
  refine wp_call_seq trivial fun begun _ => ?_
  have hallowed : ∀ h o, Evaluates o → (sweepSpec handler req st₀).ok h o := fun h o ho => by cases o <;> trivial
  refine wp_seq (wp_of_only_runs hallowed (evalDecision_only _ _ _) fun _ _ hr => hr) fun h₁ (decision, tracker) _ hr => ?_
  obtain ⟨l, rfl, hrun⟩ := runs_iff_run.1 hr
  have hbegun : KeepsFile (Event.op (I := iface) ⟨.evalFn record, begun⟩) := trivial
  have hdone : Tracks st₀ (l ++ (⟨.evalFn record, begun⟩ : Event iface) :: h) { st with tracker := tracker } :=
    (ht.cons hbegun).grew ⟨l, rfl, fun ev hev => (hrun.only (evalDecision_only _ _ _) ev hev).keepsFile⟩
  rcases hs : shouldKill req.effectiveMode req.brokerKey decision with ⟨_ | _, reason⟩
  · simp only [hs]
    exact hdone
  · simp only [hs]
    have hok := killerRun_allowed ht (by simpa using hkey) (by simpa using hfree) hrun hs
    exact wp_seq (killOne_spec hdone _ resp hok) fun _ _ _ ht₂ => ht₂

theorem sweepRecords_spec : ∀ (records : List BrokerRecord) {h : History} {st : SweepState} (resp : SweepResponse),
    Tracks st₀ h st → wp (sweepSpec handler req st₀)
      (sweepRecords handler req.effectiveMode req.brokerKey records st resp) (fun h' r => Tracks st₀ h' r.1) h
  | [], _, _, _, ht => ht
  | record :: records, _, _, resp, ht =>
    wp_seq (sweepRecord_spec ht record resp) fun _ (_, resp) _ ht₁ => sweepRecords_spec records resp ht₁

theorem handleSweep_spec : wp (sweepSpec handler req st₀) (handleSweep handler req st₀)
    (fun h' r => Tracks st₀ h' r.1) [] := by
  have hstart : ∀ {l : History}, (∀ ev ∈ l, KeepsFile ev.op) → Tracks st₀ l st₀ := fun {l} hl => by
    have hnil : Tracks st₀ [] st₀ := fun key => by simp [QuarantinedAt]
    exact hnil.grew ⟨l, by simp, hl⟩
  unfold handleSweep
  split
  · exact hstart (by simp)
  dsimp only
  split
  · exact hstart (by simp)
  split
  · exact hstart (by simp)
  refine wp_call_seq trivial fun locked _ => ?_
  split
  · exact hstart (by simp [KeepsFile])
  refine wp_call_seq trivial fun expired _ => ?_
  split
  · exact hstart (by simp [KeepsFile])
  refine wp_call_seq trivial fun scanned _ => ?_
  rcases scanned with err | brokers
  · exact hstart (by simp [KeepsFile])
  · exact wp_seq (sweepRecords_spec brokers _ (hstart (by simp [KeepsFile]))) fun _ _ _ ht => ht

end Sweep

/-! ## Every sweep -/

/-- Every broker the killer is invoked for was inactive, idle and the sweep's to kill. -/
def AliveProtected (handler : SweepHandler) (req : SweepRequest) (st : SweepState) (h : History) : Prop :=
  ∀ post record pre, h = post ++ (⟨.killerRun record, ()⟩ : Event iface) :: pre →
    KillAllowed handler req st pre record ∧ IdleLongEnough handler pre record

/-- No broker the killer is invoked for has a last job update ahead of the clock. -/
def NoneAhead (h : History) : Prop :=
  ∀ post record pre, h = post ++ (⟨.killerRun record, ()⟩ : Event iface) :: pre → ¬ UpdatedAhead pre record

theorem sweep_protects_iff (handler : SweepHandler) (req : SweepRequest) (st : SweepState) (h : History)
    (res : SweepState × SweepReply) (hr : Runs (handleSweep handler req st) [] h res) :
    AliveProtected handler req st h ↔ NoneAhead h := by
  have hguard : ∀ {post record pre}, h = post ++ (⟨.killerRun record, ()⟩ : Event iface) :: pre →
      KillAllowed handler req st pre record ∧ (IdleLongEnough handler pre record ↔ ¬ UpdatedAhead pre record) :=
    fun heq => hr.issued handleSweep_spec heq List.nil_suffix
  constructor
  · intro hprotected post record pre heq
    exact (hguard heq).2.1 (hprotected post record pre heq).2
  · intro hnone post record pre heq
    exact ⟨(hguard heq).1, (hguard heq).2.2 (hnone post record pre heq)⟩

/-- The brokers the killer was invoked for. -/
def killed : History → List BrokerRecord
  | [] => []
  | ⟨.killerRun record, _⟩ :: h => record :: killed h
  | _ :: h => killed h

theorem mem_killed {record : BrokerRecord} : ∀ {h : History},
    (⟨.killerRun record, ()⟩ : Event iface) ∈ h → record ∈ killed h
  | ev :: h, hmem => by
    rcases List.mem_cons.1 hmem with rfl | hmem
    · exact List.mem_cons_self
    · have htail := mem_killed hmem
      obtain ⟨o, r⟩ := ev
      cases o <;> first | exact htail | exact List.mem_cons_of_mem _ htail

/-- A handler without a registry: every broker is foreign to it. -/
def sampleHandler : SweepHandler where
  opts := ⟨false, none, false, 0, 0⟩
  registry := none
  killer := sampleKill 0
  lister := true
  quarantinePath := ""
  quarantineRetentionDays := 0
  applyDisabled := ""

/-- An inventory of one broker, last heard of at `updatedAt`, in a world whose clock is at 0. -/
def sampleWorld (updatedAt : Option Int) (rows : List RawProcess) : World :=
  ⟨rows, fun _ => some 10, [{ sampleRecord 5 with lastJobUpdatedAt := updatedAt }]⟩

abbrev sampleSweep (updatedAt : Option Int) (rows : List RawProcess) : History × SweepState × SweepReply :=
  runWith (I := iface) (sampleWorld updatedAt rows).answer (handleSweep sampleHandler ⟨"POST", "apply", "k"⟩ ⟨none, none⟩) []

theorem sweep_protects_sample : killed (sampleSweep none []).1 = [sampleRecord 5] ∧
    AliveProtected sampleHandler ⟨"POST", "apply", "k"⟩ ⟨none, none⟩ (sampleSweep none []).1 := by
  refine ⟨rfl, (sweep_protects_iff _ _ _ _ _ (runs_runWith (I := iface) _ _ _)).2 ?_⟩
  rintro post record pre heq ⟨now, updatedAt, _, hat, _⟩
  have hmem : record ∈ killed (sampleSweep none []).1 := mem_killed (heq ▸ by simp)
  obtain rfl := List.mem_singleton.1 (hmem : record ∈ [sampleRecord 5])
  cases hat

/-- A broker that was heard of ten minutes after the clock's reading is killed as if never heard of. -/
theorem sweep_kills_ahead : ∃ h res, Runs (handleSweep sampleHandler ⟨"POST", "apply", "k"⟩ ⟨none, none⟩) [] h res ∧
    ¬ AliveProtected sampleHandler ⟨"POST", "apply", "k"⟩ ⟨none, none⟩ h := by
  refine ⟨_, _, runs_runWith (I := iface) (sampleWorld (some (10 * minute)) []).answer _ [], fun hprotected => ?_⟩
  obtain ⟨_, hidle⟩ := hprotected ((sampleSweep (some (10 * minute)) []).1.take 4) _ _ rfl
  obtain ⟨now, hnow, hle⟩ := hidle (10 * minute) rfl
  obtain rfl := Option.some.inj (hnow : some 0 = some now)
  exact absurd hle (by decide)

end Purdex.Broker
