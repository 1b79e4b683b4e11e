/-
The exit of a process: it ends the execution that launched it and no other one, where it is looked up at a time at
which the code of its session says whose it is.
-/
import Purdex.Runtime.Ownership
import Mathlib

namespace Purdex.Runtime

open Conc Dispatch

/-! ## What an exit does -/

/-- The row with that id was found for the code. -/
def Looked (sessionCode id : String) (h : Hist Daemon) : Prop :=
  (⟨DaemonOp.idByCode sessionCode, (.ok (.ok (some id)) : Except Panic (Except StoreError (Option String)))⟩ : Event Daemon) ∈ h

/-- And this is how it looked. -/
def Loaded (sessionCode : String) (exec : Execution) (h : Hist Daemon) : Prop :=
  ∃ id, Looked sessionCode id h ∧ (⟨DaemonOp.loadByID id, (.ok (.ok exec) : Except Panic (Except StoreError Execution))⟩ : Event Daemon) ∈ h

/-- Only the row that was found is ended. -/
def MayEnd (sessionCode : String) (h : Hist Daemon) : DaemonOp → Prop
  | .idByCode code => code = sessionCode
  | .loadByID id => Looked sessionCode id h
  | .gitDiff _ _ => True
  | .store (.markTerminal execID target _ _ _ _) => target.IsTerminal ∧ ∃ exec, Loaded sessionCode exec h ∧ exec.executionID = execID
  | _ => False

/-- How the handling of an exit can have ended. -/
inductive Handled (sessionCode : String) (h : Hist Daemon) : Prop where
  | panicked (o : DaemonOp) (e : Panic) : (⟨o, (.error e : Except Panic o.Answer)⟩ : Event Daemon) ∈ h → Handled sessionCode h
  | lookup (e : StoreError) :
      (⟨DaemonOp.idByCode sessionCode, (.ok (.error e) : Except Panic (Except StoreError (Option String)))⟩ : Event Daemon) ∈ h → Handled sessionCode h
  | unknown : (⟨DaemonOp.idByCode sessionCode, (.ok (.ok none) : Except Panic (Except StoreError (Option String)))⟩ : Event Daemon) ∈ h →
      Handled sessionCode h
  | load (id : String) (e : StoreError) : Looked sessionCode id h →
      (⟨DaemonOp.loadByID id, (.ok (.error e) : Except Panic (Except StoreError Execution))⟩ : Event Daemon) ∈ h → Handled sessionCode h
  | ended (exec : Execution) : Loaded sessionCode exec h → exec.status.IsTerminal → Handled sessionCode h
  | marked (ev : Event Daemon) (exec : Execution) (target : Status) (source : OutcomeSource) (artifacts : List Artifact) (errCode errMsg : String) :
      Loaded sessionCode exec h → ev ∈ h → ev.op = DaemonOp.store (.markTerminal exec.executionID target source artifacts errCode errMsg) →
      Handled sessionCode h

section Programs

variable {host : Host} {code : String} {h : Hist Daemon}

theorem classifyOutcome_terminal (exitCode : Int) (signaled : Bool) (res : ResultOutcome) : (classifyOutcome exitCode signaled res).1.IsTerminal := by
  unfold classifyOutcome
  by_cases hfailed : signaled = true ∨ exitCode ≠ 0
  · simp [hfailed, Status.IsTerminal]
  · by_cases herror : res.hasResult = true ∧ res.isError = true <;> simp [hfailed, herror, Status.IsTerminal]

theorem Loaded.cons {exec : Execution} {ev : Event Daemon} (hl : Loaded code exec h) : Loaded code exec (ev :: h) := by
  obtain ⟨id, hlooked, hmem⟩ := hl
  exact ⟨id, List.mem_cons_of_mem _ hlooked, List.mem_cons_of_mem _ hmem⟩

/-- The artifacts are captured without a call of the store. -/
theorem wpE_buildTerminalArtifacts {exec loaded : Execution} {status : Status} (hl : Loaded code loaded h) :
    wpE (anyAnswer (MayEnd code)) (buildTerminalArtifacts host exec status) (fun h' _ => Loaded code loaded h')
      (fun h' _ => Handled code h') h := by
  refine wpE_perform_seq trivial (fun e => .panicked _ e List.mem_cons_self) fun diff => ?_
  cases diff with
  | error err => exact hl.cons
  | ok diff =>
    dsimp only
    split <;> exact hl.cons

theorem wpE_getBySessionCode : wpE (anyAnswer (MayEnd code)) (getBySessionCode code)
    (fun h' r => match r with
      | .ok (some exec) => Loaded code exec h'
      | _ => Handled code h')
    (fun h' _ => Handled code h') h := by
  refine wpE_perform_seq (o := .idByCode code) rfl (fun e => Handled.panicked _ e List.mem_cons_self) fun found => ?_
  rcases found with e | _ | id
  · exact Handled.lookup e List.mem_cons_self
  · exact Handled.unknown List.mem_cons_self
  · have hlooked : Looked code id (⟨DaemonOp.idByCode code, .ok (.ok (some id))⟩ :: h) := List.mem_cons_self
    refine wpE_perform_seq hlooked (fun e => Handled.panicked _ e List.mem_cons_self) fun loaded => ?_
    rcases loaded with e | exec
    · have hload : Handled code (⟨DaemonOp.loadByID id, .ok (.error e)⟩ :: ⟨DaemonOp.idByCode code, .ok (.ok (some id))⟩ :: h) :=
        .load id e (List.mem_cons_of_mem _ hlooked) List.mem_cons_self
      cases e <;> exact hload
    · exact ⟨id, List.mem_cons_of_mem _ hlooked, List.mem_cons_self⟩

theorem wpE_handle (exitCode : Int) (signaled : Bool) (res : ResultOutcome) :
    wpE (anyAnswer (MayEnd code)) (handle host code exitCode signaled res) (fun h' _ => Handled code h') (fun h' _ => Handled code h') h := by
  refine wpE_seq wpE_getBySessionCode fun h₁ found _ hfound => ?_
  rcases found with e | _ | exec
  · exact hfound
  · exact hfound
  · dsimp only
    split
    · exact .ended exec hfound (by assumption)
    · refine wpE_seq (wpE_buildTerminalArtifacts hfound) fun h₂ artifacts _ hl => ?_
      refine wpE_perform_seq ⟨classifyOutcome_terminal exitCode signaled res, exec, hl, rfl⟩
        (fun e => .marked _ exec _ _ _ _ _ hl.cons List.mem_cons_self rfl) fun reply => ?_
      exact .marked _ exec _ _ _ _ _ hl.cons List.mem_cons_self rfl

end Programs

/-- Whose exit a goroutine handles, and the code that it has of its session. -/
def DaemonThread.exits (k : DaemonThread) : Option (String × String) :=
  match k.job with
  | .exit execID sessionCode _ _ _ => some (execID, sessionCode)
  | _ => none

theorem start_nil (_ : DaemonThread) : ([] : Hist iface) = [] := rfl

def exitContract (host : Host) : Contract (daemon host) where
  spec k := match k.exits with
    | some (_, code) => anyAnswer (MayEnd code)
    | none => anyAnswer fun _ _ => True
  inv _ h := h = []
  fin k h := ∀ execID code, k.exits = some (execID, code) → Handled code h
  ans_exec k o s := by
    cases k.exits <;> trivial
  inv_start := start_nil
  body_ok k h _ := by
    obtain ⟨boot, job⟩ := k
    cases job with
    | exit execID code exitCode signaled res =>
      refine wp_seq (Q := fun h' _ => Handled code h') ((wp_run _ fun h' _ => Handled code h').2 ?_) fun h' _ _ hhandled => ?_
      · exact wpE_seq (wpE_handle exitCode signaled res) fun _ _ _ hhandled => hhandled
      · rintro _ _ ⟨⟩
        exact hhandled
    | _ => exact wp_seq (Q := fun _ _ => True) (wp_of_only (fun _ _ _ => trivial) (only_true _) fun _ _ _ => trivial) fun _ _ _ _ => nofun

/-! ## Histories -/

/-- Nothing has run yet. -/
def Empty (s : DaemonState) : Prop := NoExecutions s.db ∧ s.locks = []

/-- An exit is delivered for a session that the execution made, with the code of that session. -/
def Delivered (p : DaemonPool) : Label DaemonThread DaemonEvent → Prop
  | .spawn k => ∀ execID code, k.exits = some (execID, code) → ∃ en ∈ p.trace, ∃ cwd, en.op = DaemonOp.newSession (sessionNameFor execID) cwd ∧
    ((DaemonOp.newSession (sessionNameFor execID) cwd).exec en.pre).1 = .ok (.ok ()) ∧ encodeSessionID en.pre.nextSession = .ok code
  | _ => True

/-- The first row that carries the code is that of the execution; and when that is over, no other row that carries the
code is live. No row carries it only where the execution is over. -/
def Resolves (db : Tables) (execID code : String) : Prop :=
  match db.executions.filter (·.sessionCode = some code) with
  | [] => ∀ r ∈ db.executions, r.executionID = execID → r.status.IsTerminal
  | r :: rest => r.executionID = execID ∧ (r.status.IsTerminal → ∀ r' ∈ rest, ¬Status.Live r'.status)

/-- While an exit is handled, neither the store fails nor the goroutine panics, and its lookup is at a time at which the
rows resolve the code to its own execution. -/
def Undisturbed (en : DaemonEntry) : Prop :=
  ∀ execID code, en.kind.exits = some (execID, code) → en.pre.world.panics = false ∧ (∀ n, en.pre.world.statementFails n = false) ∧
    ((∃ code', en.op = DaemonOp.idByCode code') → Resolves en.pre.db execID code)

/-- Exits end their own executions, and no other ones. -/
structure EndsOwn (host : Host) (p : DaemonPool) : Prop where
  spares : ∀ en ∈ p.trace, ∀ execID code, en.kind.exits = some (execID, code) →
    ∀ r : Execution, r.executionID ≠ execID → (r ∈ ((daemon host).post en).db.executions ↔ r ∈ en.pre.db.executions)
  selects : ∀ en ∈ p.trace, ∀ execID code, en.kind.exits = some (execID, code) → ∀ code' id, en.op = DaemonOp.idByCode code' →
    ((DaemonOp.idByCode code').exec en.pre).1 = .ok (.ok (some id)) →
      id = execID ∧ ((∃ r ∈ en.pre.db.executions, r.executionID = id ∧ r.status.IsTerminal) →
        ∀ r ∈ en.pre.db.executions, r.sessionCode = some code' → ¬Status.Live r.status)
  ends : ∀ th ∈ p.threads, ∀ execID code, th.kind.exits = some (execID, code) → th.rest = .pure none →
    ∃ r ∈ p.shared.db.executions, r.executionID = execID ∧ r.status.IsTerminal

/-! ## What rows keep -/

def Made (execID : String) (db : Tables) : Prop := ∃ r ∈ db.executions, r.executionID = execID

def Begun (execID : String) (db : Tables) : Prop := ∃ r ∈ db.executions, r.executionID = execID ∧ r.status ≠ .accepted

def Over (execID : String) (db : Tables) : Prop := ∃ r ∈ db.executions, r.executionID = execID ∧ r.status.IsTerminal

section Kept

variable {execID : String} {db db' : Tables}

theorem Made.advances (h : Advances db db') : Made execID db → Made execID db' := by
  rintro ⟨r, hr, hid⟩
  obtain ⟨r', hr', hid', _⟩ := h r hr
  exact ⟨r', hr', hid'.trans hid⟩

theorem Begun.advances (h : Advances db db') : Begun execID db → Begun execID db' := by
  rintro ⟨r, hr, hid, hbegun⟩
  obtain ⟨r', hr', hid', hsame | hlegal⟩ := h r hr
  · exact ⟨r', hr', hid'.trans hid, hsame ▸ hbegun⟩
  · refine ⟨r', hr', hid'.trans hid, fun haccepted => ?_⟩
    rw [haccepted] at hlegal
    cases hstatus : r.status <;> rw [hstatus] at hlegal <;> cases hlegal

theorem Over.advances (h : Advances db db') : Over execID db → Over execID db' := by
  rintro ⟨r, hr, hid, hover⟩
  obtain ⟨r', hr', hid', hsame | hlegal⟩ := h r hr
  · exact ⟨r', hr', hid'.trans hid, hsame ▸ hover⟩
  · rcases hover with hstatus | hstatus <;> rw [hstatus] at hlegal <;> cases hs : r'.status <;> rw [hs] at hlegal <;> cases hlegal

theorem Made.find? (h : Made execID db) : ∃ r, db.executions.find? (·.executionID = execID) = some r ∧ r ∈ db.executions ∧ r.executionID = execID := by
  obtain ⟨r, hr, hid⟩ := h
  cases hfind : db.executions.find? (·.executionID = execID) with
  | none => exact absurd hid (by simpa using List.find?_eq_none.1 hfind r hr)
  | some r' => exact ⟨r', rfl, List.mem_of_find?_eq_some hfind, by simpa using List.find?_some hfind⟩

/-- A change of one row is none of the others. -/
theorem mem_changeRow_of_ne {change : Execution → Execution} (hid : ∀ r, (change r).executionID = r.executionID) {rows : List Execution} {r : Execution}
    (hne : r.executionID ≠ execID) : r ∈ changeRow execID change rows ↔ r ∈ rows := by
  constructor
  · intro hr
    rcases mem_changeRow hr with hr | ⟨r₀, _, hr₀, rfl⟩
    · exact hr
    · exact absurd ((hid r₀).trans hr₀) hne
  · exact fun hr => List.mem_map.2 ⟨r, hr, if_neg hne⟩

/-- Once a row begun, it may be ended. -/
theorem canEnd {a b : Status} (ha : a ≠ .accepted) (hb : b.IsTerminal) : a.IsTerminal ∨ canTransition a b = true := by
  rcases hb with rfl | rfl <;> cases a <;> simp_all [Status.IsTerminal, canTransition]

end Kept

/-! ## Every run -/

theorem oneRound {host : Host} : (daemon host).OneRound := fun _ => leaves_bind fun _ => rfl

section Runs

variable {host : Host} {p : DaemonPool} {Init : DaemonState → Prop} {ok : DaemonPool → Label DaemonThread DaemonEvent → Prop}
  {i : Nat} {k : DaemonThread} {execID code id : String} {t : List DaemonEntry} {en : DaemonEntry}

theorem sessionNameFor_inj {a b : String} (h : sessionNameFor a = sessionNameFor b) : a = b := by
  have := congrArg String.toList h
  simpa [sessionNameFor, String.toList_append, String.toList_inj] using this

/-- What makes a session has a row. -/
theorem made_of_newSession (hinit : ∀ s, Init s → NoExecutions s.db) (hr : (daemon host).Reach Init ok p) {cwd : String}
    (hen : en ∈ p.trace) (hop : en.op = DaemonOp.newSession (sessionNameFor execID) cwd) : Made execID p.shared.db := by
  have hmay := (ownerContract host).ok_of_trace hr en hen
  rw [show (ownerContract host).spec en.kind = ownerSpec from rfl, hop] at hmay
  obtain ⟨newID, exec, hlaunching, hname⟩ := hmay
  obtain ⟨ev, hev, hcreates⟩ := hlaunching.exists
  obtain ⟨post, pre, hsplit⟩ := List.append_of_mem hen
  obtain ⟨en₀, hen₀, _, rfl⟩ := Sys.mem_hist hr hsplit hev
  obtain ⟨_, hmade⟩ := (ledger_of_reach hinit hr).created en₀ (by rw [hsplit]; exact List.mem_append_right _ (List.mem_cons_of_mem _ hen₀)) newID exec hcreates
  rwa [sessionNameFor_inj hname]

/-- Whose exit is handled has a row. -/
theorem made_of_reach (hinit : ∀ s, Init s → NoExecutions s.db) (hok : ∀ p l, ok p l → Delivered p l) (hr : (daemon host).Reach Init ok p) :
    ∀ th ∈ p.threads, ∀ execID code, th.kind.exits = some (execID, code) → Made execID p.shared.db := by
  refine hr.invariant (P := fun p => ∀ th ∈ p.threads, ∀ execID code, th.kind.exits = some (execID, code) → Made execID p.shared.db) (by simp) ?_
  intro p p' l hp ih hlabel hst
  rcases (daemon host).step_cases hst with ⟨k, rfl, rfl⟩ | ⟨e, rfl, rfl⟩ | ⟨i, k, hist, k', rfl, hth, rfl⟩ | ⟨i, k, hist, o, f, rfl, hth, rfl⟩
  · intro th hmem execID code hexits
    rcases List.mem_append.1 hmem with hmem | hmem
    · exact ih th hmem execID code hexits
    · obtain rfl := List.mem_singleton.1 hmem
      obtain ⟨en, hen, cwd, hop, _⟩ := hok p _ hlabel execID code hexits
      exact made_of_newSession (p := p) hinit hp hen hop
  · intro th hmem execID code hexits
    show Made execID (e.tick p.shared).db
    rw [(tick_frame e p.shared).1]
    exact ih th hmem execID code hexits
  · intro th hmem execID code hexits
    exact absurd rfl (oneRound.not_again hp _ (List.mem_of_getElem? hth) k')
  · intro th hmem execID code hexits
    refine Made.advances (advances_of_reach hinit hp hth) ?_
    rw [show ((daemon host).acted p i k hist o f).threads = p.threads.set i _ from List.append_nil _] at hmem
    rcases List.mem_or_eq_of_mem_set hmem with hmem | rfl
    · exact ih th hmem execID code hexits
    · exact ih _ (List.mem_of_getElem? hth) execID code hexits

/-- What is known of an entry in a run. -/
structure EntrySound (host : Host) (en : DaemonEntry) : Prop where
  ledger : ∃ t, Ledger t en.pre.db (daemon host).event
  advances : Advances en.pre.db ((daemon host).post en).db
  made : ∀ execID code, en.kind.exits = some (execID, code) → Made execID en.pre.db

theorem entrySound_of_reach (hinit : ∀ s, Init s → NoExecutions s.db) (hok : ∀ p l, ok p l → Delivered p l) (hr : (daemon host).Reach Init ok p) :
    ∀ en ∈ p.trace, EntrySound host en := by
  refine hr.shared_invariant (P := fun _ t => ∀ en ∈ t, EntrySound host en) (by simp) (fun _ _ _ _ ih => ih) fun p i k h o f hp _ hth ih en hen => ?_
  rcases List.mem_cons.1 hen with rfl | hen
  · exact ⟨⟨_, ledger_of_reach hinit hp⟩, advances_of_reach hinit hp hth, made_of_reach hinit hok hp _ (List.mem_of_getElem? hth)⟩
  · exact ih en hen

theorem exits_of_tid (hr : (daemon host).Reach Init ok p) {th : Thread Daemon DaemonThread} (hth : p.threads[i]? = some th) :
    ∀ en ∈ p.trace, en.tid = i → en.kind = th.kind := by
  rintro en hen rfl
  obtain ⟨th', hget, hkind⟩ := oneRound.kind hr en hen
  obtain rfl := Option.some.inj (hth.symm.trans hget)
  exact hkind.symm

theorem answer_of_event {o : DaemonOp} {r : Except Panic o.Answer} (h : (daemon host).event en = ⟨o, r⟩) : en.op = o ∧ (o.exec en.pre).1 = r := by
  obtain ⟨tid, kind, hist, op, pre⟩ := en
  injection h with hop hres
  subst hop
  exact ⟨rfl, eq_of_heq hres⟩

theorem exec_calm {o : DaemonOp} {s : DaemonState} (h : s.world.panics = false) : o.exec s = (.ok (o.run s).1, (o.run s).2) := by
  rw [DaemonOp.exec, if_neg]
  rw [h]
  exact fun hcontra => Bool.false_ne_true hcontra.1

theorem query_calm {α : Type} {s : DaemonState} {read : Tables → Except StoreError α} (h : s.world.statementFails 0 = false) : s.query read = read s.db := by
  rw [DaemonState.query, h]
  rfl

theorem Resolves.cases {db : Tables} (h : Resolves db execID code) :
    (db.executions.find? (·.sessionCode = some code) = none ∧ ∀ r ∈ db.executions, r.executionID = execID → r.status.IsTerminal) ∨
      ∃ r, db.executions.find? (·.sessionCode = some code) = some r ∧ r.executionID = execID ∧
        (r.status.IsTerminal → ∀ r' ∈ db.executions, r'.sessionCode = some code → ¬Status.Live r'.status) := by
  unfold Resolves at h
  have hhead : (db.executions.filter (·.sessionCode = some code)).head? = db.executions.find? (·.sessionCode = some code) := List.head?_filter ..
  cases hfilter : db.executions.filter (·.sessionCode = some code) with
  | nil =>
    rw [hfilter] at h hhead
    exact .inl ⟨hhead.symm, h⟩
  | cons r rest =>
    rw [hfilter] at h hhead
    refine .inr ⟨r, hhead.symm, h.1, fun hover r' hr' hcode hlive => ?_⟩
    have hmem : r' ∈ r :: rest := hfilter ▸ List.mem_filter.2 ⟨hr', by simpa using hcode⟩
    rcases List.mem_cons.1 hmem with rfl | hmem
    · rcases hover with hstatus | hstatus <;> rcases hlive with hlive | hlive <;> rw [hstatus] at hlive <;> cases hlive
    · exact h.2 hover r' hmem hlive

/-- A lookup that finds a row finds that of the execution, which carries the code. -/
theorem looked_own (hunder : ∀ en ∈ t, Undisturbed en) (hkind : ∀ en ∈ t, en.tid = i → en.kind.exits = some (execID, code))
    (hlooked : Looked code id ((daemon host).seen i t)) : id = execID ∧ ∃ en ∈ t, (∃ code', en.op = DaemonOp.idByCode code') ∧
      ∃ r ∈ en.pre.db.executions, r.executionID = execID ∧ r.sessionCode = some code := by
  obtain ⟨en, hen, htid, hevent⟩ := Sys.mem_seen.1 hlooked
  obtain ⟨hcalm, hstore, hresolves⟩ := hunder en hen execID code (hkind en hen htid)
  obtain ⟨hop, hres⟩ := answer_of_event hevent
  rw [exec_calm hcalm] at hres
  have hfound : en.pre.query (fun db => .ok ((db.executions.find? (·.sessionCode = some code)).map (·.executionID))) = .ok (some id) := Except.ok.inj hres
  rw [query_calm (hstore 0)] at hfound
  obtain ⟨r, hfind, hid⟩ := Option.map_eq_some_iff.1 (Except.ok.inj hfound)
  rcases (hresolves ⟨code, hop⟩).cases with ⟨hnone, _⟩ | ⟨r', hfind', hid', _⟩
  · rw [hnone] at hfind
    cases hfind
  · obtain rfl := Option.some.inj (hfind.symm.trans hfind')
    exact ⟨hid.symm.trans hid', _, hen, ⟨code, hop⟩, r, List.mem_of_find?_eq_some hfind, hid', by simpa using List.find?_some hfind⟩

/-- And what was loaded then is its row. -/
theorem loaded_own {exec : Execution} (hunder : ∀ en ∈ t, Undisturbed en) (hkind : ∀ en ∈ t, en.tid = i → en.kind.exits = some (execID, code))
    (hloaded : Loaded code exec ((daemon host).seen i t)) : exec.executionID = execID ∧ ∃ en ∈ t, exec ∈ en.pre.db.executions := by
  obtain ⟨id, hlooked, hload⟩ := hloaded
  obtain ⟨rfl, _⟩ := looked_own hunder hkind hlooked
  obtain ⟨en, hen, htid, hevent⟩ := Sys.mem_seen.1 hload
  obtain ⟨hcalm, hstore, _⟩ := hunder en hen _ code (hkind en hen htid)
  obtain ⟨_, hres⟩ := answer_of_event hevent
  rw [exec_calm hcalm] at hres
  have hfound := Except.ok.inj hres
  dsimp only [DaemonOp.run] at hfound
  rw [query_calm (hstore 0)] at hfound
  cases hfind : en.pre.db.executions.find? (·.executionID = id) with
  | none => simp [hfind] at hfound
  | some r =>
    rw [hfind] at hfound
    obtain rfl := Except.ok.inj hfound
    exact ⟨by simpa using List.find?_some hfind, _, hen, List.mem_of_find?_eq_some hfind⟩

/-! ## Exits that nothing disturbs -/

/-- What a run has kept in which nothing disturbs the handling of exits. -/
structure Calm (host : Host) (p : DaemonPool) : Prop where
  under : ∀ en ∈ p.trace, Undisturbed en
  sound : ∀ en ∈ p.trace, EntrySound host en
  kinds : ∀ en ∈ p.trace, ∀ en' ∈ p.trace, en'.tid = en.tid → en'.kind = en.kind
  hist : ∀ post en pre, p.trace = post ++ en :: pre → en.hist = (daemon host).seen en.tid pre
  may : ∀ en ∈ p.trace, ∀ execID code, en.kind.exits = some (execID, code) → MayEnd code en.hist en.op
  begun : ∀ execID post en pre, p.trace = post ++ en :: pre → ∀ en' ∈ pre, Begun execID ((daemon host).post en').db → Begun execID en.pre.db
  ended : ∀ execID, ∀ en ∈ p.trace, Over execID ((daemon host).post en).db → Over execID p.shared.db

theorem calm_of_reach (hinit : ∀ s, Init s → NoExecutions s.db) (hok : ∀ p l, ok p l → Delivered p l)
    (hguard : ∀ p l, ok p l → Sys.Guarded (fun _ en => Undisturbed en) p l) (hr : (daemon host).Reach Init ok p) : Calm host p where
  under en hen := by
    obtain ⟨post, pre, hsplit⟩ := List.append_of_mem hen
    exact Sys.guarded_trace hguard hr post en pre hsplit
  sound := entrySound_of_reach hinit hok hr
  kinds en hen en' hen' htid := by
    obtain ⟨th, hget, hkind⟩ := oneRound.kind hr en hen
    exact (exits_of_tid hr hget en' hen' htid).trans hkind
  hist := Sys.entry_hist hr
  may en hen execID code hexits := by
    have hok := (exitContract host).ok_of_trace hr en hen
    simp only [exitContract, hexits] at hok
    exact hok
  begun _ := (kept_of_advances hinit (fun _ _ h => Begun.advances h) hr).2
  ended _ := (kept_of_advances hinit (fun _ _ h => Over.advances h) hr).1

/-- What an exit ends is the row of its execution, which has begun. -/
theorem Calm.own (h : Calm host p) {post pre : List DaemonEntry} (hsplit : p.trace = post ++ en :: pre) (hexits : en.kind.exits = some (execID, code))
    {target : Status} {source : OutcomeSource} {artifacts : List Artifact} {errCode errMsg : String}
    (hop : en.op = DaemonOp.store (.markTerminal id target source artifacts errCode errMsg)) :
    id = execID ∧ target.IsTerminal ∧ Begun execID en.pre.db := by
  have hen : en ∈ p.trace := by simp [hsplit]
  have hpre : ∀ en' ∈ pre, en' ∈ p.trace := fun en' hen' => by simp [hsplit, hen']
  have hunder : ∀ en' ∈ pre, Undisturbed en' := fun en' hen' => h.under en' (hpre en' hen')
  have hexits' : ∀ en' ∈ pre, en'.tid = en.tid → en'.kind.exits = some (execID, code) := fun en' hen' htid => by
    rw [h.kinds en hen en' (hpre en' hen') htid, hexits]
  have hend := h.may en hen execID code hexits
  rw [hop] at hend
  obtain ⟨hterminal, exec, hloaded, rfl⟩ := hend
  rw [h.hist post en pre hsplit] at hloaded
  obtain ⟨hid, _⟩ := loaded_own hunder hexits' hloaded
  obtain ⟨id, hlooked, _⟩ := hloaded
  obtain ⟨_, en₁, hen₁, ⟨code', _⟩, r, hr₁, hrid, hcode⟩ := looked_own hunder hexits' hlooked
  refine ⟨hid, hterminal, h.begun execID post en pre hsplit en₁ hen₁ ?_⟩
  obtain ⟨t, hledger⟩ := (h.sound en₁ (hpre en₁ hen₁)).ledger
  have hlaunched := (hledger.rows r hr₁).coded (by simp [hcode])
  have hbegun : Begun execID en₁.pre.db := ⟨r, hr₁, hrid, fun haccepted => (hledger.recorded.each r hr₁).1.1 haccepted hlaunched⟩
  exact hbegun.advances (h.sound en₁ (hpre en₁ hen₁)).advances

theorem Calm.spares (h : Calm host p) (hen : en ∈ p.trace) (hexits : en.kind.exits = some (execID, code)) {r : Execution} (hne : r.executionID ≠ execID) :
    r ∈ ((daemon host).post en).db.executions ↔ r ∈ en.pre.db.executions := by
  obtain ⟨post, pre, hsplit⟩ := List.append_of_mem hen
  obtain ⟨t, hledger⟩ := (h.sound en hen).ledger
  show r ∈ (en.op.exec en.pre).2.db.executions ↔ _
  by_cases hstore : ∀ op, en.op ≠ .store op
  · rw [exec_db hstore]
  · obtain ⟨op, hop⟩ : ∃ op, en.op = .store op := by simpa using hstore
    have hend := h.may en hen execID code hexits
    rw [hop] at hend
    cases op with
    | markTerminal id target source artifacts errCode errMsg =>
      obtain ⟨rfl, _, _⟩ := h.own hsplit hexits hop
      rw [hop]
      rcases exec_store (.markTerminal id target source artifacts errCode errMsg) hledger.recorded.ids with ⟨_, hsame⟩ | ⟨_, db', _, hexec, hdoes⟩
      · rw [hsame]
      · rw [hexec]
        show r ∈ db'.executions ↔ _
        rw [hdoes.2.1]
        exact mem_changeRow_of_ne (id_moved _ _ _) hne
    | _ => exact hend.elim

theorem Calm.selects (h : Calm host p) (hen : en ∈ p.trace) (hexits : en.kind.exits = some (execID, code)) {code' : String}
    (hop : en.op = DaemonOp.idByCode code') (hanswer : ((DaemonOp.idByCode code').exec en.pre).1 = .ok (.ok (some id))) :
    id = execID ∧ ((∃ r ∈ en.pre.db.executions, r.executionID = id ∧ r.status.IsTerminal) →
      ∀ r ∈ en.pre.db.executions, r.sessionCode = some code' → ¬Status.Live r.status) := by
  obtain ⟨hcalm, hstore, hresolves⟩ := h.under en hen execID code hexits
  have hend := h.may en hen execID code hexits
  rw [hop] at hend
  obtain rfl : code' = code := hend
  rw [exec_calm hcalm] at hanswer
  have hfound : en.pre.query (fun db => .ok ((db.executions.find? (·.sessionCode = some code')).map (·.executionID))) = .ok (some id) := Except.ok.inj hanswer
  rw [query_calm (hstore 0)] at hfound
  obtain ⟨r, hfind, hid⟩ := Option.map_eq_some_iff.1 (Except.ok.inj hfound)
  rcases (hresolves ⟨code', hop⟩).cases with ⟨hnone, _⟩ | ⟨r', hfind', hid', halone⟩
  · rw [hnone] at hfind
    cases hfind
  · obtain rfl := Option.some.inj (hfind.symm.trans hfind')
    obtain ⟨t, hledger⟩ := (h.sound en hen).ledger
    refine ⟨hid.symm.trans hid', fun ⟨r', hr', hrid, hover⟩ => halone ?_⟩
    rwa [List.inj_on_of_nodup_map hledger.recorded.ids (List.mem_of_find?_eq_some hfind) hr' (hid.trans hrid.symm)]

/-- It is enough that an execution was over before some entry. -/
theorem Calm.over_of_pre (h : Calm host p) (hen : en ∈ p.trace) (hover : Over execID en.pre.db) : Over execID p.shared.db :=
  h.ended execID en hen (hover.advances (h.sound en hen).advances)

/-- An exit that went as far as to end the row, has ended it. -/
theorem Calm.over_of_marked (h : Calm host p) (hen : en ∈ p.trace) (hexits : en.kind.exits = some (execID, code)) {target : Status} {source : OutcomeSource}
    {artifacts : List Artifact} {errCode errMsg : String} (hop : en.op = DaemonOp.store (.markTerminal id target source artifacts errCode errMsg)) :
    Over execID p.shared.db := by
  obtain ⟨post, pre, hsplit⟩ := List.append_of_mem hen
  obtain ⟨rfl, hterminal, r, hr, hrid, hstatus⟩ := h.own hsplit hexits hop
  obtain ⟨hcalm, hstore, _⟩ := h.under en hen _ _ hexits
  obtain ⟨t, hledger⟩ := (h.sound en hen).ledger
  rcases canEnd hstatus hterminal with hrover | hlegal
  · exact h.over_of_pre hen ⟨r, hr, hrid, hrover⟩
  · refine h.ended id en hen ?_
    have hfind : en.pre.db.executions.find? (·.executionID = id) = some r := by
      obtain ⟨r', hfind, hmem, hid'⟩ := Made.find? ⟨r, hr, hrid⟩
      rw [hfind, List.inj_on_of_nodup_map hledger.recorded.ids hmem hr (hid'.trans hrid.symm)]
    have hfaults : ∀ n, en.pre.faults n = none := fun n => by simp [DaemonState.faults, hstore]
    obtain ⟨reply, db', hserve, hdoes⟩ := serve_markTerminal en.pre.world.now source artifacts errCode errMsg hledger.recorded.ids hfind
      (hledger.rows r hr).named hterminal hlegal hfaults
    show Over id (en.op.exec en.pre).2.db
    rw [hop, exec_calm hcalm]
    show Over id (StoreCall.serve ⟨_, en.pre.world.now, en.pre.faults⟩ en.pre.db).2
    rw [hserve]
    refine ⟨moved en.pre.world.now target (some source) r, ?_, hrid, hterminal⟩
    rw [hdoes.2.1]
    exact List.mem_map.2 ⟨r, hr, if_pos hrid⟩

/-- However the handling of an exit ended, the execution is over. -/
theorem Calm.over_of_handled (h : Calm host p) (hexits : ∀ en ∈ p.trace, en.tid = i → en.kind.exits = some (execID, code))
    (hhandled : Handled code ((daemon host).seen i p.trace)) : Over execID p.shared.db := by
  cases hhandled with
  | panicked o e hevent =>
    obtain ⟨en, hen, htid, hevent⟩ := Sys.mem_seen.1 hevent
    obtain ⟨_, hres⟩ := answer_of_event hevent
    rw [exec_calm (h.under en hen _ _ (hexits en hen htid)).1] at hres
    cases hres
  | lookup e hevent =>
    obtain ⟨en, hen, htid, hevent⟩ := Sys.mem_seen.1 hevent
    obtain ⟨hcalm, hstore, _⟩ := h.under en hen _ _ (hexits en hen htid)
    obtain ⟨_, hres⟩ := answer_of_event hevent
    rw [exec_calm hcalm] at hres
    have hfailed : en.pre.query (fun db => .ok ((db.executions.find? (·.sessionCode = some code)).map (·.executionID))) = .error e := Except.ok.inj hres
    rw [query_calm (hstore 0)] at hfailed
    cases hfailed
  | unknown hevent =>
    obtain ⟨en, hen, htid, hevent⟩ := Sys.mem_seen.1 hevent
    obtain ⟨hcalm, hstore, hresolves⟩ := h.under en hen _ _ (hexits en hen htid)
    obtain ⟨hop, hres⟩ := answer_of_event hevent
    rw [exec_calm hcalm] at hres
    have hnone : en.pre.query (fun db => .ok ((db.executions.find? (·.sessionCode = some code)).map (·.executionID))) = .ok none := Except.ok.inj hres
    rw [query_calm (hstore 0)] at hnone
    have hfind := Option.map_eq_none_iff.1 (Except.ok.inj hnone)
    rcases (hresolves ⟨code, hop⟩).cases with ⟨_, hall⟩ | ⟨r, hfound, _⟩
    · obtain ⟨r, hr, hid⟩ := (h.sound en hen).made _ _ (hexits en hen htid)
      exact h.over_of_pre hen ⟨r, hr, hid, hall r hr hid⟩
    · rw [hfind] at hfound
      cases hfound
  | load id e hlooked hevent =>
    obtain ⟨rfl, _⟩ := looked_own h.under hexits hlooked
    obtain ⟨en, hen, htid, hevent⟩ := Sys.mem_seen.1 hevent
    obtain ⟨hcalm, hstore, _⟩ := h.under en hen _ _ (hexits en hen htid)
    obtain ⟨_, hres⟩ := answer_of_event hevent
    rw [exec_calm hcalm] at hres
    have hfailed := Except.ok.inj hres
    dsimp only [DaemonOp.run] at hfailed
    rw [query_calm (hstore 0)] at hfailed
    obtain ⟨r, hfind, _⟩ := ((h.sound en hen).made _ _ (hexits en hen htid)).find?
    rw [hfind] at hfailed
    cases hfailed
  | ended exec hloaded hterminal =>
    obtain ⟨hid, en, hen, hexec⟩ := loaded_own h.under hexits hloaded
    exact h.over_of_pre hen ⟨exec, hexec, hid, hterminal⟩
  | marked ev exec target source artifacts errCode errMsg hloaded hev hop =>
    obtain ⟨en, hen, htid, rfl⟩ := Sys.mem_seen.1 hev
    exact h.over_of_marked hen (hexits en hen htid) hop

end Runs

/-- Where nothing disturbs the handling of exits, they end their own executions and no other ones. -/
theorem exits_end_own {host : Host} {p : DaemonPool}
    (hr : (daemon host).Reach Empty (fun p l => (Scheduled p l ∧ Delivered p l) ∧ Sys.Guarded (fun _ en => Undisturbed en) p l) p) : EndsOwn host p := by
  have hcalm := calm_of_reach (fun _ hs => hs.1) (fun _ _ hok => hok.1.2) (fun _ _ hok => hok.2) hr
  refine ⟨fun en hen _ _ hexits _ hne => hcalm.spares hen hexits hne,
    fun en hen _ _ hexits _ _ hop hanswer => hcalm.selects hen hexits hop hanswer, fun th hmem execID code hexits hfin => ?_⟩
  obtain ⟨i, hi, hget⟩ := List.getElem_of_mem hmem
  have hth : p.threads[i]? = some th := List.getElem?_eq_some_iff.2 ⟨hi, hget⟩
  have hhandled := (exitContract host).fin_of_reach hr hmem hfin execID code hexits
  rw [(Sys.hist_eq_seen hr).1 i th hth] at hhandled
  exact hcalm.over_of_handled (fun en hen htid => (exits_of_tid hr hth en hen htid).symm ▸ hexits) hhandled

/-! ## One dispatch and its exit -/

/-- No operation changes the world. -/
theorem run_world (o : DaemonOp) (s : DaemonState) : (o.run s).2.world = s.world := by
  cases o with
  | claim id =>
    show (s.claim id).2.world = _
    unfold DaemonState.claim
    split <;> rfl
  | newSession name cwd | killSession name =>
    simp only [DaemonOp.run, DaemonState.tmux]
    split
    · rfl
    · split <;> rfl
  | listSessions | sendKeys target keys =>
    simp only [DaemonOp.run, DaemonState.tmux]
    split <;> rfl
  | _ => rfl

theorem step_world {host : Host} {p p' : DaemonPool} {l : Label DaemonThread DaemonEvent} (hl : ∀ w, l ≠ .env (.world w))
    (hst : (daemon host).step l p = some p') : p'.shared.world = p.shared.world := by
  rcases (daemon host).step_cases hst with ⟨k, rfl, rfl⟩ | ⟨e, rfl, rfl⟩ | ⟨i, k, hist, k', rfl, hth, rfl⟩ | ⟨i, k, hist, o, f, rfl, hth, rfl⟩
  · rfl
  · show (e.tick p.shared).world = _
    cases e with
    | world w => exact absurd rfl (hl w)
    | userSession name =>
      simp only [DaemonEvent.tick]
      split <;> rfl
    | _ => rfl
  · rfl
  · show (o.exec p.shared).2.world = _
    rcases exec_cases o p.shared with heq | heq
    · rw [heq]
    · rw [heq]
      exact run_world o p.shared

def codeOf (n : Nat) : String := (encodeSessionID n).toOption.getD ""

def deliveredB (p : DaemonPool) : Label DaemonThread DaemonEvent → Bool
  | .spawn k =>
    match k.exits with
    | some (execID, code) => p.trace.any fun en =>
      match en.op with
      | .newSession name cwd => name = sessionNameFor execID && ((DaemonOp.newSession name cwd).exec en.pre).1.toOption.any (·.toOption.isSome) &&
        (encodeSessionID en.pre.nextSession).toOption = some code
      | _ => false
    | none => true
  | _ => true

theorem delivered_of_deliveredB {p : DaemonPool} {l : Label DaemonThread DaemonEvent} (h : deliveredB p l = true) : Delivered p l := by
  cases l with
  | spawn k =>
    intro execID code hexits
    simp only [deliveredB, hexits, List.any_eq_true] at h
    obtain ⟨en, hen, hsession⟩ := h
    refine ⟨en, hen, ?_⟩
    split at hsession
    · rename_i name cwd hop
      simp only [Bool.and_eq_true, decide_eq_true_eq] at hsession
      obtain ⟨⟨rfl, hanswer⟩, hcode⟩ := hsession
      refine ⟨cwd, hop, ?_, ?_⟩
      · cases hexec : ((DaemonOp.newSession (sessionNameFor execID) cwd).exec en.pre).1 with
        | error e => simp [hexec, Except.toOption] at hanswer
        | ok r =>
          cases r with
          | error e =>
            rw [hexec] at hanswer
            exact nomatch hanswer
          | ok u => rfl
      · cases hencode : encodeSessionID en.pre.nextSession with
        | error e => simp [hencode, Except.toOption] at hcode
        | ok c => simpa [hencode, Except.toOption] using hcode
    · cases hsession
  | _ => trivial

instance (db : Tables) (execID code : String) : Decidable (Resolves db execID code) :=
  match h : db.executions.filter (·.sessionCode = some code) with
  | [] => decidable_of_iff (∀ r ∈ db.executions, r.executionID = execID → r.status.IsTerminal) (by simp only [Resolves, h])
  | r :: rest => decidable_of_iff (r.executionID = execID ∧ (r.status.IsTerminal → ∀ r' ∈ rest, ¬Status.Live r'.status)) (by simp only [Resolves, h])

/-- Every lookup of an exit resolves, and the world stays as it is. -/
def resolvesB (p : DaemonPool) : Label DaemonThread DaemonEvent → Bool
  | .act i =>
    match p.threads[i]? with
    | some ⟨k, _, .op (.idByCode _) _⟩ =>
      match k.exits with
      | some (execID, code) => decide (Resolves p.shared.db execID code)
      | none => true
    | _ => true
  | .env (.world _) => false
  | _ => true

theorem undisturbed_of_resolvesB {p : DaemonPool} {l : Label DaemonThread DaemonEvent} (hworld : p.shared.world = quietWorld) (h : resolvesB p l = true) :
    Sys.Guarded (fun _ en => Undisturbed en) p l := by
  cases l with
  | act i =>
    intro k hist o f hth execID code hexits
    refine ⟨hworld ▸ rfl, fun n => hworld ▸ rfl, ?_⟩
    rintro ⟨code', rfl⟩
    simp only [resolvesB, hth] at h
    rw [show k.exits = some (execID, code) from hexits] at h
    exact of_decide_eq_true h
  | _ => trivial

/-- Up to the prompt, with the relay connected. -/
def upToPrompt : List (Label DaemonThread DaemonEvent) :=
  .spawn ⟨0, .consume 0 (dispatchOf "d1")⟩ :: List.replicate 13 (.act 0) ++ [.env (.relayConnects (codeOf 0)), .act 0, .act 0]

def exitOfFirst : Label DaemonThread DaemonEvent := .spawn ⟨0, .exit "exc_1" (codeOf 0) 0 false ⟨true, false, ""⟩⟩

/-- The exit comes after the row is marked as launched. -/
def exitAfterLaunch : List (Label DaemonThread DaemonEvent) :=
  upToPrompt ++ [.act 0, .act 0, exitOfFirst, .act 1, .act 1, .act 1, .act 1]

/-- The exit comes between the prompt and the mark, which goes through all the same. -/
def exitBeforeMark : List (Label DaemonThread DaemonEvent) :=
  upToPrompt ++ [exitOfFirst, .act 1, .act 0, .act 0]

/-- Whether each goroutine is done, and the statuses of the rows. -/
def outcome (p : DaemonPool) : List Bool × List (String × Status) :=
  (p.threads.map fun th => match th.rest with | .pure none => true | _ => false, p.shared.db.executions.map fun r => (r.executionID, r.status))

theorem exits_end_own_exitAfterLaunch : ∃ p : DaemonPool, outcome p = ([true, true], [("exc_1", .completed)]) ∧ EndsOwn anyHost p := by
  have hplay : ((daemon anyHost).play (fun p l => scheduledB p l && deliveredB p l && resolvesB p l) exitAfterLaunch ⟨freshDaemon, [], []⟩).map outcome =
      some ([true, true], [("exc_1", .completed)]) := by decide +kernel
  obtain ⟨p, hp, hdone⟩ := Option.map_eq_some_iff.1 hplay
  refine ⟨p, hdone, exits_end_own (Sys.reach_of_play_keeping (K := fun p => p.shared.world = quietWorld) (fun p l hworld hB => ?_)
    (fun p l p' hworld hB hst => ?_) (.init ⟨⟨rfl, rfl⟩, rfl⟩) rfl hp)⟩
  · simp only [Bool.and_eq_true] at hB
    exact ⟨⟨scheduled_of_scheduledB hB.1.1, delivered_of_deliveredB hB.1.2⟩, undisturbed_of_resolvesB hworld hB.2⟩
  · refine (step_world (fun w hl => ?_) hst).trans hworld
    subst hl
    simp [resolvesB] at hB

theorem exitBeforeMark_lost : ¬∀ p : DaemonPool, (daemon anyHost).Reach Empty (fun p l => Scheduled p l ∧ Delivered p l) p → EndsOwn anyHost p := by
  intro h
  have hplay : ((daemon anyHost).play (fun p l => scheduledB p l && deliveredB p l) exitBeforeMark ⟨freshDaemon, [], []⟩).map
      (fun p => ((p.threads[1]?).map fun th => (th.kind.exits, match th.rest with | .pure none => true | _ => false),
        p.shared.db.executions.map (·.status))) = some (some (some ("exc_1", codeOf 0), true), [.running]) := by decide +kernel
  obtain ⟨p, hp, hlost⟩ := Option.map_eq_some_iff.1 hplay
  obtain ⟨hthread, hrows⟩ := Prod.mk.inj hlost
  obtain ⟨th, hth, hkind⟩ := Option.map_eq_some_iff.1 hthread
  obtain ⟨hexits, hdone⟩ := Prod.mk.inj hkind
  have hfin : th.rest = .pure none := by
    split at hdone
    · assumption
    · cases hdone
  have hreach : (daemon anyHost).Reach Empty (fun p l => Scheduled p l ∧ Delivered p l) p := by
    refine Sys.reach_of_play (fun p l hB => ?_) (.init ⟨⟨rfl, rfl⟩, rfl⟩) hp
    simp only [Bool.and_eq_true] at hB
    exact ⟨scheduled_of_scheduledB hB.1, delivered_of_deliveredB hB.2⟩
  obtain ⟨r, hr, _, hover⟩ := (h p hreach).ends th (List.mem_of_getElem? hth) _ _ hexits hfin
  have hrunning : r.status ∈ [Status.running] := hrows ▸ List.mem_map.2 ⟨r, hr, rfl⟩
  rw [List.mem_singleton.1 hrunning] at hover
  rcases hover with hover | hover <;> cases hover

end Purdex.Runtime
