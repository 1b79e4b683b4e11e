/-
What an entry of the quarantine file says about the process table: whether some listing of the
sweep showed the recorded pid in other hands.
-/
import Purdex.Broker.Protection

namespace Purdex.Broker

open Conc

/-! ## Listings and checks -/

/-- A listing that has the pid for a process that is no worker, or not the one recorded. -/
def ShowsReuse (pid lstart : Int) : Event iface → Prop
  | ⟨.list _, rows⟩ => ∃ l : List RawProcess, rows = some l ∧ ∃ row ∈ l, row.pid = pid ∧ (row.hasMarker = false ∨ row.lstart ≠ lstart)
  | _ => False

/-- The record of the latest kill. -/
def current : History → Option BrokerRecord
  | [] => none
  | ⟨.killerRun record, _⟩ :: _ => some record
  | _ :: h => current h

/-- The record whose identity an event checked, if the listing is `bad` for it. -/
def badCheck (bad : BrokerRecord → Option (List RawProcess) → Bool) (h : History) : Event iface → Option BrokerRecord
  | ⟨.list deadline, rows⟩ =>
    if deadline = verifyDeadline then (current h).filter fun record => bad record rows else none
  | _ => none

def checks (bad : BrokerRecord → Option (List RawProcess) → Bool) : History → List BrokerRecord
  | [] => []
  | ev :: h => (badCheck bad h ev).toList ++ checks bad h

/-- The check fails. -/
def failing (record : BrokerRecord) (rows : Option (List RawProcess)) : Bool := !(verifyAnswer record rows).1

/-- There is no listing, or the pid is not in it. -/
def unseen (record : BrokerRecord) (rows : Option (List RawProcess)) : Bool := rows.isNone || goneIn record rows

/-- The records with a bad check; without a lister every check is. -/
def badChecks (handler : SweepHandler) (bad : BrokerRecord → Option (List RawProcess) → Bool) (h : History) :
    List BrokerRecord :=
  if handler.killer.lister then checks bad h else killed h

/-- Every entry the sweep added is of a record whose pid was seen in other hands. -/
def QuarantineMeansReuse (h : History) : Prop :=
  ∀ entry, (⟨.addEntry entry, ()⟩ : Event iface) ∈ h → ∃ ev ∈ h, ShowsReuse entry.pid entry.lstart ev

/-- Every identity check saw its pid, or the pid was seen in other hands some other time. -/
def ChecksSaw (handler : SweepHandler) (h : History) : Prop :=
  ∀ record ∈ badChecks handler unseen h, ∃ ev ∈ h, ShowsReuse record.pid record.lstart ev

section Checks

variable {bad bad' : BrokerRecord → Option (List RawProcess) → Bool} {h : History} {record : BrokerRecord}

theorem badCheck_some {ev : Event iface} : badCheck bad h ev = some record ↔
    ∃ rows, ev = (⟨.list verifyDeadline, rows⟩ : Event iface) ∧ current h = some record ∧ bad record rows = true := by
  obtain ⟨o, r⟩ := ev
  cases o
  case list deadline =>
    simp only [badCheck]
    split
    · rename_i hd
      subst hd
      rw [Option.filter_eq_some_iff]
      constructor
      · exact fun hc => ⟨r, rfl, hc⟩
      · rintro ⟨rows, heq, hc⟩
        cases heq
        exact hc
    · rename_i hd
      refine ⟨fun hc => absurd hc (by simp), ?_⟩
      rintro ⟨rows, heq, _⟩
      cases heq
      exact absurd rfl hd
  all_goals
    refine ⟨fun hc => absurd hc (by simp [badCheck]), ?_⟩
    rintro ⟨rows, heq, _⟩
    cases heq

theorem mem_checks_cons {ev : Event iface} : record ∈ checks bad (ev :: h) ↔
    (∃ rows, ev = (⟨.list verifyDeadline, rows⟩ : Event iface) ∧ current h = some record ∧ bad record rows = true) ∨
      record ∈ checks bad h := by
  rw [checks, List.mem_append, Option.mem_toList, badCheck_some]

theorem checks_mono (hb : ∀ record rows, bad record rows = true → bad' record rows = true) (hmem : record ∈ checks bad h) :
    record ∈ checks bad' h := by
  induction h with
  | nil => exact hmem
  | cons ev h ih =>
    rw [mem_checks_cons] at hmem ⊢
    exact hmem.imp (fun ⟨rows, hev, hcur, hbad⟩ => ⟨rows, hev, hcur, hb _ _ hbad⟩) ih

/-- Between two kills every check is of the record of the first one. -/
theorem mem_checks_kill {l : History} {killing : BrokerRecord} (hl : ∀ ev ∈ l, Quiet ev.op) :
    record ∈ checks bad (l ++ (⟨.killerRun killing, ()⟩ : Event iface) :: h) ↔
      (killing = record ∧ ∃ rows, (⟨.list verifyDeadline, rows⟩ : Event iface) ∈ l ∧ bad record rows = true) ∨
        record ∈ checks bad h := by
  have hcur : ∀ {l : History}, (∀ ev ∈ l, Quiet ev.op) →
      current (l ++ (⟨.killerRun killing, ()⟩ : Event iface) :: h) = some killing := by
    intro l hl
    induction l with
    | nil => rfl
    | cons ev l ih =>
      have hev := hl ev (by simp)
      have htail := ih fun e he => hl e (by simp [he])
      obtain ⟨o, r⟩ := ev
      cases o <;> first | exact htail | exact hev.elim
  induction l with
  | nil =>
    refine mem_checks_cons.trans (or_congr_left ?_)
    constructor
    · rintro ⟨rows, heq, _⟩
      cases heq
    · rintro ⟨_, rows, hmem, _⟩
      exact absurd hmem (by simp)
  | cons ev l ih =>
    have htail : ∀ e ∈ l, Quiet e.op := fun e he => hl e (by simp [he])
    refine (mem_checks_cons.trans (or_congr_right (ih htail))).trans (or_assoc.symm.trans (or_congr_left ?_))
    constructor
    · rintro (⟨rows, rfl, hkilling, hbad⟩ | ⟨rfl, rows, hmem, hbad⟩)
      · obtain rfl := Option.some.inj ((hcur htail).symm.trans hkilling)
        exact ⟨rfl, rows, List.mem_cons_self, hbad⟩
      · exact ⟨rfl, rows, List.mem_cons_of_mem _ hmem, hbad⟩
    · rintro ⟨rfl, rows, hmem, hbad⟩
      rcases List.mem_cons.1 hmem with heq | hmem
      · exact .inl ⟨rows, heq.symm, hcur htail, hbad⟩
      · exact .inr ⟨rfl, rows, hmem, hbad⟩

end Checks

/-! ## What a failed check saw -/

theorem verifyRow_fails {record : BrokerRecord} {row : RawProcess} (h : (verifyRow record row).1 = false) :
    row.hasMarker = false ∨ row.lstart ≠ record.lstart := by
  by_contra hboth
  push Not at hboth
  obtain ⟨hmarker, hstart⟩ := hboth
  have hdrift : drift record.lstart record.lstart ≤ lstartTolerance := by
    have hsub : Time.sub record.lstart record.lstart = max minDuration (min maxDuration (record.lstart - record.lstart)) := rfl
    rw [Int.sub_self] at hsub
    unfold drift
    rw [hsub]
    decide
  have hmarker : row.hasMarker = true := by simpa using hmarker
  simp [verifyRow, hmarker, hstart, Int.not_lt.2 hdrift] at h

theorem verifyRows_fails {record : BrokerRecord} : ∀ {rows : List RawProcess}, (verifyRows record rows).1 = false →
    (∃ row ∈ rows, row.pid = record.pid) → ∃ row ∈ rows, row.pid = record.pid ∧
      (row.hasMarker = false ∨ row.lstart ≠ record.lstart)
  | [], _, ⟨_, hmem, _⟩ => absurd hmem (by simp)
  | row :: rows, h, ⟨found, hmem, hpid⟩ => by
    unfold verifyRows at h
    split at h
    · rename_i hne
      have hfound : found ∈ rows := by
        rcases List.mem_cons.1 hmem with rfl | hmem
        · exact absurd hpid hne
        · exact hmem
      obtain ⟨reused, hr, hrow⟩ := verifyRows_fails h ⟨found, hfound, hpid⟩
      exact ⟨reused, List.mem_cons_of_mem _ hr, hrow⟩
    · rename_i heq
      exact ⟨row, List.mem_cons_self, by simpa using heq, verifyRow_fails h⟩

/-- A failed check saw the pid in other hands, or did not see it. -/
theorem failing_cases {record : BrokerRecord} {rows : Option (List RawProcess)} (h : failing record rows = true) :
    unseen record rows = true ∨ ∃ l : List RawProcess, rows = some l ∧ ∃ row ∈ l, row.pid = record.pid ∧
      (row.hasMarker = false ∨ row.lstart ≠ record.lstart) := by
  simp only [failing, Bool.not_eq_true'] at h
  cases rows with
  | none => exact .inl rfl
  | some l =>
    by_cases hpid : ∃ row ∈ l, row.pid = record.pid
    · exact .inr ⟨l, rfl, verifyRows_fails h hpid⟩
    · push Not at hpid
      exact .inl (by simpa [unseen, goneIn] using hpid)

theorem unseen_failing (record : BrokerRecord) (rows : Option (List RawProcess)) (h : unseen record rows = true) :
    failing record rows = true := by
  cases rows with
  | none => rfl
  | some l =>
    by_contra hf
    have hmatch : (verifyAnswer record (some l)).1 = true := by simpa [failing] using hf
    have hthere := not_gone_of_match hmatch
    simp [unseen, hthere] at h

theorem mem_checks_failing {record : BrokerRecord} {h : History} (hmem : record ∈ checks failing h) :
    record ∈ checks unseen h ∨ ∃ ev ∈ h, ShowsReuse record.pid record.lstart ev := by
  induction h with
  | nil => exact absurd hmem (by simp [checks])
  | cons ev h ih =>
    rcases mem_checks_cons.1 hmem with ⟨rows, rfl, hcur, hbad⟩ | hmem
    · rcases failing_cases hbad with hun | hreuse
      · exact .inl (mem_checks_cons.2 (.inl ⟨rows, rfl, hcur, hun⟩))
      · exact .inr ⟨_, List.mem_cons_self, hreuse⟩
    · rcases ih hmem with hun | ⟨e, he, hreuse⟩
      · exact .inl (mem_checks_cons.2 (.inr hun))
      · exact .inr ⟨e, List.mem_cons_of_mem _ he, hreuse⟩

/-! ## The sweep -/

/-- What neither checks an identity, kills nor quarantines. -/
def Plain : Op → Prop
  | .list deadline => deadline ≠ verifyDeadline
  | .killerRun _ | .addEntry _ => False
  | _ => True

theorem Evaluates.plain : ∀ {o : Op}, Evaluates o → Plain o := by
  intro o ho
  cases o <;> first | exact ho | trivial

/-- The entries added and the failed checks are of the same processes. -/
structure Accounted (handler : SweepHandler) (h : History) : Prop where
  entries : ∀ entry, (⟨.addEntry entry, ()⟩ : Event iface) ∈ h →
    ∃ record ∈ badChecks handler failing h, entry.pid = record.pid ∧ entry.lstart = record.lstart
  answered : ∀ record ∈ badChecks handler failing h,
    ∃ entry, (⟨.addEntry entry, ()⟩ : Event iface) ∈ h ∧ entry.pid = record.pid ∧ entry.lstart = record.lstart

/-- Nothing is asked of the sweep; every answer may come. -/
abbrev free : Spec iface := anyAnswer fun _ _ => True

section Sweep

variable {handler : SweepHandler} {h : History} {record : BrokerRecord}

theorem badChecks_plain {bad : BrokerRecord → Option (List RawProcess) → Bool} {ev : Event iface}
    (hev : Plain ev.op ∨ ∃ entry, ev.op = .addEntry entry) :
    badChecks handler bad (ev :: h) = badChecks handler bad h := by
  have hkilled : killed (ev :: h) = killed h := by
    obtain ⟨o, r⟩ := ev
    cases o
    case killerRun => simp [Plain] at hev
    all_goals rfl
  have hcheck : badCheck bad h ev = none := by
    obtain ⟨o, r⟩ := ev
    cases o
    case list deadline =>
      simp only [Plain, reduceCtorEq, exists_false, or_false] at hev
      simp [badCheck, hev]
    all_goals rfl
  unfold badChecks
  rw [hkilled, checks, hcheck]
  rfl

theorem Accounted.cons {ev : Event iface} (ha : Accounted handler h) (hev : Plain ev.op) : Accounted handler (ev :: h) := by
  have hsame : badChecks handler failing (ev :: h) = badChecks handler failing h := badChecks_plain (.inl hev)
  refine ⟨fun entry hmem => ?_, fun record hmem => ?_⟩
  · rw [hsame]
    rcases List.mem_cons.1 hmem with rfl | hmem
    · exact hev.elim
    · exact ha.entries entry hmem
  · rw [hsame] at hmem
    obtain ⟨entry, he, hsame⟩ := ha.answered record hmem
    exact ⟨entry, List.mem_cons_of_mem _ he, hsame⟩

theorem Accounted.grew {h' : History} (ha : Accounted handler h) : Grew (fun ev => Plain ev.op) h h' → Accounted handler h'
  | ⟨l, hl, hplain⟩ => by
    subst hl
    induction l with
    | nil => exact ha
    | cons ev l ih => exact (ih fun e he => hplain e (by simp [he])).cons (hplain ev (by simp))

theorem snapshotFingerprint_plain : (snapshotFingerprint handler record).Only Plain := by
  unfold snapshotFingerprint
  split
  · trivial
  · refine only_bind (only_call (by decide : second / 2 ≠ verifyDeadline)) fun answer => ?_
    split
    · trivial
    · split <;> trivial

/-- Accounted for but for one record, whose check failed and whose entry is still to be added. -/
structure Owing (handler : SweepHandler) (record : BrokerRecord) (h : History) : Prop where
  entries : ∀ entry, (⟨.addEntry entry, ()⟩ : Event iface) ∈ h →
    ∃ record ∈ badChecks handler failing h, entry.pid = record.pid ∧ entry.lstart = record.lstart
  failed : record ∈ badChecks handler failing h
  answered : ∀ other ∈ badChecks handler failing h, other = record ∨
    ∃ entry, (⟨.addEntry entry, ()⟩ : Event iface) ∈ h ∧ entry.pid = other.pid ∧ entry.lstart = other.lstart

theorem Owing.cons {ev : Event iface} (ho : Owing handler record h) (hev : Plain ev.op) : Owing handler record (ev :: h) := by
  have hsame : badChecks handler failing (ev :: h) = badChecks handler failing h := badChecks_plain (.inl hev)
  refine ⟨fun entry hmem => ?_, hsame ▸ ho.failed, fun other hmem => ?_⟩
  · rw [hsame]
    rcases List.mem_cons.1 hmem with rfl | hmem
    · exact hev.elim
    · exact ho.entries entry hmem
  · rw [hsame] at hmem
    exact (ho.answered other hmem).imp_right fun ⟨entry, he, hsame⟩ => ⟨entry, List.mem_cons_of_mem _ he, hsame⟩

theorem Owing.grew {h' : History} (ho : Owing handler record h) : Grew (fun ev => Plain ev.op) h h' → Owing handler record h'
  | ⟨l, hl, hplain⟩ => by
    subst hl
    induction l with
    | nil => exact ho
    | cons ev l ih => exact (ih fun e he => hplain e (by simp [he])).cons (hplain ev (by simp))

theorem Owing.settled (ho : Owing handler record h) (entry : QuarantineEntry) (hpid : entry.pid = record.pid)
    (hlstart : entry.lstart = record.lstart) : Accounted handler ((⟨.addEntry entry, ()⟩ : Event iface) :: h) := by
  have hsame : badChecks handler failing ((⟨.addEntry entry, ()⟩ : Event iface) :: h) = badChecks handler failing h :=
    badChecks_plain (.inr ⟨entry, rfl⟩)
  refine ⟨fun added hmem => ?_, fun other hmem => ?_⟩
  · rw [hsame]
    rcases List.mem_cons.1 hmem with heq | hmem
    · cases heq
      exact ⟨record, ho.failed, hpid, hlstart⟩
    · exact ho.entries added hmem
  · rw [hsame] at hmem
    rcases ho.answered other hmem with rfl | ⟨added, he, hsame⟩
    · exact ⟨entry, List.mem_cons_self, hpid, hlstart⟩
    · exact ⟨added, List.mem_cons_of_mem _ he, hsame⟩

theorem recordQuarantine_accounts (ho : Owing handler record h) (file : Option QuarantineFile) :
    wp free (recordQuarantine handler file record) (fun h' _ => Accounted handler h') h := by
  have hany : ∀ h o, Plain o → free.ok h o := fun _ _ _ => trivial
  refine wp_seq (wp_of_only hany snapshotFingerprint_plain fun _ _ hg => ho.grew hg) fun h₁ fp _ ho₁ => ?_
  refine wp_call_seq trivial fun (now : Int) _ => wp_call_seq trivial fun added _ => ?_
  have hnow : Plain (Event.op (I := iface) ⟨Op.now, now⟩) := trivial
  have hsettled := (ho₁.cons hnow).settled
    ⟨record.key, record.pid, record.lstart, now, "pid_reuse_suspicion", fp, now + handler.retentionDays * day⟩ rfl rfl
  split
  · exact hsettled
  · refine wp_call_seq trivial fun saved _ => ?_
    have hsaved : Plain (Event.op (I := iface) ⟨Op.saveQuarantine, saved⟩) := trivial
    split <;> exact hsettled.cons hsaved

/-- The failed checks after a kill sequence: those before it and its own. -/
theorem badChecks_kill {l : History} (hl : ∀ ev ∈ l, Quiet ev.op) {other : BrokerRecord} :
    other ∈ badChecks handler failing (l ++ (⟨.killerRun record, ()⟩ : Event iface) :: h) ↔
      (record = other ∧ (handler.killer.lister = true → ∃ ev ∈ l, Mismatch record ev)) ∨
        other ∈ badChecks handler failing h := by
  unfold badChecks
  split
  · rename_i hlister
    refine (mem_checks_kill hl).trans (or_congr_left (and_congr_right fun heq => ?_))
    subst heq
    constructor
    · rintro ⟨rows, hmem, hbad⟩ _
      exact ⟨_, hmem, rfl, by simpa [failing] using hbad⟩
    · intro hmis
      obtain ⟨⟨o, r⟩, hmem, hm⟩ := hmis hlister
      cases o
      case list deadline =>
        obtain ⟨rfl, hfalse⟩ := hm
        exact ⟨r, hmem, by simp [failing, hfalse]⟩
      all_goals exact hm.elim
  · rename_i hlister
    have hkilled : killed (l ++ (⟨.killerRun record, ()⟩ : Event iface) :: h) = record :: killed h := by
      induction l with
      | nil => rfl
      | cons ev l ih =>
        have hev := hl ev (by simp)
        have htail := ih fun e he => hl e (by simp [he])
        obtain ⟨o, r⟩ := ev
        cases o <;> first | exact htail | exact hev.elim
    rw [hkilled, List.mem_cons]
    exact or_congr_left ⟨fun heq => ⟨heq.symm, fun h => absurd h hlister⟩, fun h => h.1.symm⟩

theorem killOne_accounts (ha : Accounted handler h) (decision : DecisionResult) (st : SweepState) (resp : SweepResponse) :
    wp free (killOne handler record decision st resp) (fun h' _ => Accounted handler h') h := by
  refine wp_call_seq trivial fun started _ => ?_
  have hany : ∀ h o, Quiet o → free.ok h o := fun _ _ _ => trivial
  refine wp_seq (wp_of_only_runs hany (run_only _ _ _) fun _ _ hr => hr) fun h₁ r _ hr => ?_
  obtain ⟨l, rfl, hrun⟩ := runs_iff_run.1 hr
  have hquiet := hrun.only (run_only _ _ _)
  obtain ⟨_, hchecked, hoff⟩ := hrun.post (run_spec true)
  have hbad := fun other => @badChecks_kill handler h record l hquiet other
  have hentries : ∀ entry, (⟨.addEntry entry, ()⟩ : Event iface) ∈ l ++ (⟨.killerRun record, started⟩ : Event iface) :: h →
      (⟨.addEntry entry, ()⟩ : Event iface) ∈ h := by
    intro entry hmem
    rcases List.mem_append.1 hmem with hmem | hmem
    · exact (hquiet _ hmem).elim
    · rcases List.mem_cons.1 hmem with heq | hmem
      · cases heq
      · exact hmem
  have hmore : ∀ entry, (⟨.addEntry entry, ()⟩ : Event iface) ∈ h →
      (⟨.addEntry entry, ()⟩ : Event iface) ∈ l ++ (⟨.killerRun record, started⟩ : Event iface) :: h :=
    fun entry hmem => List.mem_append_right _ (List.mem_cons_of_mem _ hmem)
  have hpast : ∀ entry, (⟨.addEntry entry, ()⟩ : Event iface) ∈ l ++ (⟨.killerRun record, started⟩ : Event iface) :: h →
      ∃ record' ∈ badChecks handler failing (l ++ (⟨.killerRun record, started⟩ : Event iface) :: h),
        entry.pid = record'.pid ∧ entry.lstart = record'.lstart := by
    intro entry hmem
    obtain ⟨record', hmem, hsame⟩ := ha.entries entry (hentries entry hmem)
    exact ⟨record', (hbad record').2 (.inr hmem), hsame⟩
  -- a sequence that passed its checks owes nothing
  have hpassed : handler.killer.lister = true → (∀ ev ∈ l, ¬ Mismatch record ev) →
      Accounted handler (l ++ (⟨.killerRun record, started⟩ : Event iface) :: h) := by
    intro hlister hall
    refine ⟨hpast, fun other hmem => ?_⟩
    rcases (hbad other).1 hmem with ⟨_, hmis⟩ | hmem
    · obtain ⟨ev, hev, hm⟩ := hmis hlister
      exact absurd hm (hall ev hev)
    · obtain ⟨entry, he, hsame⟩ := ha.answered other hmem
      exact ⟨entry, hmore entry he, hsame⟩
  have hwired : (∀ detail, r ≠ .error (.identityMismatch detail)) → handler.killer.lister = true := by
    intro hr
    cases hl : handler.killer.lister with
    | true => rfl
    | false =>
      obtain ⟨detail, heq⟩ := hoff hl
      exact absurd heq (hr detail)
  rcases r with e | res
  · cases e with
    | identityMismatch detail =>
      have howing : Owing handler record (l ++ (⟨.killerRun record, started⟩ : Event iface) :: h) := by
        refine ⟨hpast, (hbad record).2 (.inl ⟨rfl, fun hl => hchecked hl⟩), fun other hmem => ?_⟩
        rcases (hbad other).1 hmem with ⟨rfl, _⟩ | hmem
        · exact .inl rfl
        · obtain ⟨entry, he, hsame⟩ := ha.answered other hmem
          exact .inr ⟨entry, hmore entry he, hsame⟩
      refine wp_seq (recordQuarantine_accounts howing _) fun _ (_, saveErr) _ hdone => ?_
      cases saveErr <;> exact hdone
    | preimage err =>
      have hlister := hwired (by simp)
      exact hpassed hlister (hchecked hlister)
  · have hlister := hwired (by simp)
    exact hpassed hlister (hchecked hlister)

theorem sweepRecord_accounts (ha : Accounted handler h) (mode brokerKey : String) (st : SweepState) (resp : SweepResponse) :
    wp free (sweepRecord handler mode brokerKey record st resp) (fun h' _ => Accounted handler h') h := by
  unfold sweepRecord
  split
  · exact ha
  split
  · exact ha
  refine wp_call_seq trivial fun begun _ => ?_
  have hbegun : Plain (Event.op (I := iface) ⟨.evalFn record, begun⟩) := trivial
  have hany : ∀ h o, Evaluates o → free.ok h o := fun _ _ _ => trivial
  refine wp_seq (wp_of_only hany (evalDecision_only _ _ _) fun _ _ hg =>
    (ha.cons hbegun).grew (hg.mono fun _ => Evaluates.plain)) fun h₁ (decision, tracker) _ ha₁ => ?_
  rcases hs : shouldKill mode brokerKey decision with ⟨_ | _, reason⟩
  · simp only [hs]
    exact ha₁
  · simp only [hs]
    exact wp_seq (killOne_accounts ha₁ _ _ resp) fun _ _ _ ha₂ => ha₂

theorem sweepRecords_accounts (mode brokerKey : String) : ∀ (records : List BrokerRecord) {h : History} (st : SweepState)
    (resp : SweepResponse), Accounted handler h →
      wp free (sweepRecords handler mode brokerKey records st resp) (fun h' _ => Accounted handler h') h
  | [], _, _, _, ha => ha
  | _ :: records, _, st, resp, ha =>
    wp_seq (sweepRecord_accounts ha mode brokerKey st resp) fun _ (st, resp) _ ha₁ =>
      sweepRecords_accounts mode brokerKey records st resp ha₁

theorem handleSweep_accounts (req : SweepRequest) (st : SweepState) :
    wp free (handleSweep handler req st) (fun h' _ => Accounted handler h') [] := by
  have hnil : Accounted handler [] := ⟨by simp, by simp [badChecks, checks, killed]⟩
  have hstart : ∀ {l : History}, (∀ ev ∈ l, Plain ev.op) → Accounted handler l :=
    fun {l} hl => hnil.grew ⟨l, by simp, hl⟩
  unfold handleSweep
  split
  · exact hnil
  dsimp only
  split
  · exact hnil
  split
  · exact hnil
  refine wp_call_seq trivial fun locked _ => ?_
  split
  · exact hstart (by simp [Plain])
  refine wp_call_seq trivial fun expired _ => ?_
  split
  · exact hstart (by simp [Plain])
  refine wp_call_seq trivial fun scanned _ => ?_
  rcases scanned with err | brokers
  · exact hstart (by simp [Plain])
  · exact wp_seq (sweepRecords_accounts _ _ brokers _ _ (hstart (by simp [Plain]))) fun _ _ _ ha => ha

end Sweep

/-- The answers to all listings. -/
def listings : History → List (Option (List RawProcess))
  | [] => []
  | ⟨.list _, rows⟩ :: h => rows :: listings h
  | _ :: h => listings h

theorem ShowsReuse.listed {pid lstart : Int} {ev : Event iface} (hreuse : ShowsReuse pid lstart ev) :
    ∀ {h : History}, ev ∈ h → ∃ l : List RawProcess, some l ∈ listings h ∧ ∃ row ∈ l, row.pid = pid
  | e :: h, hmem => by
    rcases List.mem_cons.1 hmem with rfl | hmem
    · obtain ⟨o, r⟩ := ev
      cases o
      case list =>
        obtain ⟨l, rfl, row, hrow, hpid, _⟩ := hreuse
        exact ⟨l, List.mem_cons_self, row, hrow, hpid⟩
      all_goals exact hreuse.elim
    · obtain ⟨l, hl, hrow⟩ := hreuse.listed hmem
      refine ⟨l, ?_, hrow⟩
      obtain ⟨o, r⟩ := e
      cases o <;> first | exact hl | exact List.mem_cons_of_mem _ hl

end Purdex.Broker
