/-
Whose row it is: the goroutine that made a row launches it or gives it up, and what every run keeps of rows, their
reports and the entries that made them.
-/
import Purdex.Runtime.Admission

namespace Purdex.Runtime

open Conc Dispatch

/-! ## What a consumer may do -/

/-- A row was made now, under the id that was drawn for it. -/
def Creates (newID : String) (exec : Execution) (ev : Event Daemon) : Prop :=
  ∃ req, ev = ⟨DaemonOp.store (.upsertByDispatch newID req), (.ok (.ok (.row exec true)) : Except Panic (Except StoreError StoreReply))⟩

def Unlocked (ev : Event Daemon) : Prop := ∃ key, ev.op = DaemonOp.unlock key

def MarksLaunched (execID : String) (ev : Event Daemon) : Prop := ∃ code, ev.op = DaemonOp.store (.markLaunched execID code)

/-- A row was made and is not launched yet, by the goroutine itself and under the lock that it was made under. -/
def Launching (newID : String) (exec : Execution) (h : Hist Daemon) : Prop :=
  Since (Creates newID exec) (fun ev => Unlocked ev ∨ MarksLaunched exec.executionID ev) h

/-- What a request says of a row that is new. -/
def Drawn (req : NewExecution) (newID : String) (launch : LaunchState) : Prop :=
  req.executionID = newID ∧ req.launchState = some launch ∧ req.sessionName = sessionNameFor newID

/-- A row is launched, or given up as not launched, only by the goroutine that made it. -/
def MayLaunch (h : Hist Daemon) : DaemonOp → Prop
  | .newSession name _ => ∃ newID exec, Launching newID exec h ∧ name = sessionNameFor newID
  | .store (.upsertByDispatch newID req) => Drawn req newID .launching
  | .store (.insertRejected newID req _ _) => Drawn req newID .none
  | .store (.markLaunched execID _) => ∃ newID exec, Launching newID exec h ∧ exec.executionID = execID
  | .store (.updateStatus execID target _ _ _) => target = .failed ∧ ∃ newID exec, Launching newID exec h ∧ exec.executionID = execID
  | _ => True

abbrev ownerSpec : Spec Daemon := anyAnswer MayLaunch

/-- Neither makes a session nor touches a row. -/
def DaemonOp.Harmless : DaemonOp → Prop
  | .newSession _ _ | .store _ => False
  | _ => True

theorem mayLaunch_of_harmless {h : Hist Daemon} {o : DaemonOp} (ho : o.Harmless) : MayLaunch h o := by
  cases o with
  | newSession _ _ | store _ => exact ho.elim
  | _ => trivial

theorem mayLaunch_of_recovers {h : Hist Daemon} {o : DaemonOp} (ho : o.Recovers) : MayLaunch h o := by
  cases o with
  | store op => cases op <;> first | exact ho.elim | trivial
  | newSession _ _ => exact ho.elim
  | _ => trivial

section Programs

variable {h : Hist Daemon} {host : Host} {polls : Nat}

/-- What may end in any way. -/
abbrev wpE_any {α : Type} (p : Go α) (h : Hist Daemon) : Prop := wpE ownerSpec p (fun _ _ => True) (fun _ _ => True) h

theorem Launching.cons {newID : String} {exec : Execution} {ev : Event Daemon} (hl : Launching newID exec h)
    (hkept : ¬(Unlocked ev ∨ MarksLaunched exec.executionID ev)) : Launching newID exec (ev :: h) := .inr ⟨hkept, hl⟩

/-- The launch of a row by its maker. -/
theorem wpE_launch {newID : String} {exec : Execution} {spec : LaunchSpec} (hl : Launching newID exec h)
    (hname : spec.sessionName = sessionNameFor newID) :
    wpE ownerSpec (launch polls spec) (fun h' _ => Launching newID exec h') (fun _ _ => True) h := by
  refine wpE_of_only_keeps (J := Launching newID exec) (fun h' o hl' ho => ?_) (fun h' o r hl' ho => hl'.cons ?_) (by exact only_launch) hl
    (fun _ _ hl' => hl') fun _ _ _ => trivial
  · cases o with
    | newSession name cwd => exact ⟨newID, exec, hl', ho.trans hname⟩
    | store op => exact ho.elim
    | _ => trivial
  · rintro (⟨key, heq⟩ | ⟨code, heq⟩) <;> · cases heq; exact ho

theorem wpE_launchRow {newID effective sessionName : String} {req : LaunchRequest} {adm : Admission} {exec : Execution}
    (hl : Launching newID exec h) (hname : sessionName = sessionNameFor newID) :
    wpE_any (launchRow polls req effective sessionName adm exec) h := by
  refine wpE_seq (wpE_launch hl hname) fun h₁ r _ hl₁ => ?_
  cases r with
  | error e => exact wpE_perform_seq ⟨rfl, newID, exec, hl₁, rfl⟩ (fun _ => trivial) fun _ => trivial
  | ok code =>
    refine wpE_perform_seq ⟨newID, exec, hl₁, rfl⟩ (fun _ => trivial) fun marked => ?_
    rcases marked with e | _ | row | _ <;> trivial

theorem wpE_durableCut_owner {req : LaunchRequest} {effective : String} {adm : Admission} :
    wpE_any (durableCut polls req effective adm) h := by
  refine wpE_perform_seq trivial (fun _ => trivial) fun execID => wpE_perform_seq ⟨rfl, rfl, rfl⟩ (fun _ => trivial) fun reply => ?_
  rcases reply with e | ⟨exec, _ | _⟩ | row | _
  · trivial
  · trivial
  · exact wpE_launchRow (.inl ⟨_, rfl⟩) rfl
  · trivial
  · trivial

theorem wpE_accept_owner {req : LaunchRequest} : wpE_any (accept host polls req) h := by
  unfold accept
  cases clamp req.sandboxProfile host.hostPolicy with
  | none => trivial
  | some effective =>
    refine wpE_perform_seq trivial (fun _ => trivial) fun resolved => ?_
    cases resolved with
    | error err => trivial
    | ok canonical =>
      have hinspect : OnlyE (I := Daemon) DaemonOp.Harmless (inspect canonical) :=
        only_inspect.mono fun o ho => by cases o <;> first | exact ho.elim | trivial
      refine wp_call_seq trivial fun _ _ => wp_seq (Q := fun _ _ => True) ((wp_run _ _).2 ?_) fun _ res _ _ => wp_call_seq trivial fun _ _ => ?_
      · refine wpE_seq (wpE_of_only (fun _ _ => mayLaunch_of_harmless) hinspect (fun _ _ _ => trivial) fun _ _ _ => trivial) fun _ adm _ _ => ?_
        cases adm with
        | error e => trivial
        | ok adm => exact wpE_durableCut_owner
      · cases res <;> trivial

theorem wpE_consume_owner {req : LaunchRequest} : wpE_any (consume host polls req) h := by
  refine wpE_seq wpE_accept_owner fun h₁ r _ _ => ?_
  cases r with
  | ok row => trivial
  | error e =>
    refine wpE_seq (Q := fun _ _ => True) ?_ fun _ _ _ _ => trivial
    exact wpE_perform_seq trivial (fun _ => trivial) fun _ => wpE_perform ⟨rfl, rfl, rfl⟩ (fun _ => trivial) fun _ => trivial

theorem wpE_processPending_owner {dispatchID : String} : wpE_any (processPending host polls dispatchID) h := by
  refine wpE_perform_seq trivial (fun _ => trivial) fun claimed => ?_
  rcases claimed with (_ | _ | _) | _
  · trivial
  · trivial
  · trivial
  · refine wpE_perform_seq trivial (fun _ => trivial) fun detail => ?_
    cases detail with
    | error e => trivial
    | ok detail => exact wpE_seq wpE_consume_owner fun _ _ _ _ => trivial

theorem wpE_processAll_owner : ∀ {ids : List String} {h : Hist Daemon}, wpE_any (processAll host polls ids) h
  | [], _ => trivial
  | id :: ids, _ => by
    refine wpE_seq wpE_processPending_owner fun h₁ r _ _ => wpE_seq wpE_processAll_owner fun h₂ errs _ _ => ?_
    cases r <;> trivial

theorem wpE_runOnce_owner : wpE_any (runOnce host polls) h := by
  refine wpE_perform_seq trivial (fun _ => trivial) fun pendings => ?_
  cases pendings with
  | error e => trivial
  | ok pendings => exact wpE_processAll_owner

theorem wpE_recovers {α : Type} {p : Go α} (hp : OnlyE DaemonOp.Recovers p) : wpE_any p h :=
  wpE_of_only (fun _ _ => mayLaunch_of_recovers) hp (fun _ _ _ => trivial) fun _ _ _ => trivial

theorem wpE_go_owner (job : Job) : wpE_any (job.go host) h := by
  cases job with
  | consume polls req => exact wpE_consume_owner
  | pass polls => exact wpE_seq wpE_runOnce_owner fun _ _ _ _ => trivial
  | exit execID sessionCode exitCode signaled res => exact wpE_recovers (onlyE_bind only_handle fun _ => onlyE_pure _)
  | reconcile => exact wpE_recovers (onlyE_bind only_sweep fun _ => onlyE_pure _)
  | reclaim execID => exact wpE_recovers (onlyE_bind only_reclaimByID fun _ => onlyE_pure _)

end Programs

def ownerContract (host : Host) : Contract (daemon host) where
  spec _ := ownerSpec
  inv _ _ := True
  fin _ _ := True
  ans_exec _ _ _ := trivial
  inv_start _ := trivial
  body_ok k _ _ := wp_seq ((wp_run (k.job.go host) fun _ _ => True).2 (wpE_go_owner k.job)) fun _ _ _ _ => trivial

/-! ## The ledger -/

/-- A row that can be reported on, with its session and, once it is launched, the code of it. -/
structure RowSound (r : Execution) : Prop where
  named : r.Named
  session : r.sessionName = sessionNameFor r.executionID
  coded : r.sessionCode ≠ none → r.launchState = .launched

/-- What the trace says about the rows. -/
structure Ledger (t : List DaemonEntry) (db : Tables) (event : DaemonEntry → Event Daemon) : Prop where
  recorded : Recorded db
  rows : ∀ r ∈ db.executions, RowSound r
  launched : ∀ r ∈ db.executions, r.launchState = .launched → ∃ en ∈ t, ∃ code, en.op = DaemonOp.store (.markLaunched r.executionID code)
  created : ∀ en ∈ t, ∀ newID exec, Creates newID exec (event en) → exec.executionID = newID ∧ ∃ r ∈ db.executions, r.executionID = newID
  once : t.Pairwise fun en en' => ∀ newID exec exec', Creates newID exec (event en) → ¬Creates newID exec' (event en')

section Steps

variable {s : DaemonState} {db db' : Tables} {now : Int} {op : StoreOp} {reply : StoreReply}

theorem exec_db {o : DaemonOp} (hstore : ∀ op, o ≠ .store op) : (o.exec s).2.db = s.db := by
  rcases exec_cases o s with heq | heq
  · rw [heq]
  · rw [heq]
    exact (run_frame o s).2.2 hstore

/-- A call of the store panics or fails and changes nothing, or it does what it has to. -/
theorem exec_store (op : StoreOp) (hids : (s.db.executions.map (·.executionID)).Nodup) :
    ((∀ reply, ((DaemonOp.store op).exec s).1 ≠ .ok (.ok reply)) ∧ ((DaemonOp.store op).exec s).2 = s) ∨
      ∃ reply db', StoreCall.serve ⟨op, s.world.now, s.faults⟩ s.db = (.ok reply, db') ∧
        (DaemonOp.store op).exec s = (.ok (.ok reply), { s with db := db' }) ∧ op.Does s.world.now s.db reply db' := by
  rcases exec_cases (.store op) s with heq | heq
  · refine .inl ⟨fun reply hreply => ?_, congrArg Prod.snd heq⟩
    rw [heq] at hreply
    cases hreply
  · rcases StoreCall.serve_cases ⟨op, s.world.now, s.faults⟩ hids with ⟨e, hserve⟩ | ⟨reply, db', hserve, hdoes⟩
    · refine .inl ⟨fun reply hreply => ?_, ?_⟩
      · rw [heq] at hreply
        have := Except.ok.inj hreply
        simp only [DaemonOp.run, hserve] at this
        cases this
      · rw [heq]
        simp only [DaemonOp.run, hserve]
    · refine .inr ⟨reply, db', hserve, ?_, hdoes⟩
      rw [heq]
      simp only [DaemonOp.run, hserve]

/-- The rows after a change of one of them. -/
theorem mem_changeRow {execID : String} {change : Execution → Execution} {rows : List Execution} {r : Execution}
    (h : r ∈ changeRow execID change rows) : r ∈ rows ∨ ∃ r₀ ∈ rows, r₀.executionID = execID ∧ r = change r₀ := by
  obtain ⟨r₀, hmem, rfl⟩ := List.mem_map.1 h
  split
  · rename_i hid
    exact .inr ⟨r₀, hmem, hid, rfl⟩
  · exact .inl hmem

/-- What a row is after a call: it was there, or it was changed, or it is new. -/
inductive Became (op : StoreOp) (now : Int) (db : Tables) (r : Execution) : Prop where
  | kept : r ∈ db.executions → Became op now db r
  | launched (r₀ : Execution) (code : String) : r₀ ∈ db.executions → op = .markLaunched r₀.executionID code → r = Dispatch.launched now code r₀ →
      Became op now db r
  | moved (r₀ : Execution) (target : Status) (source : Option OutcomeSource) : r₀ ∈ db.executions → r = Dispatch.moved now target source r₀ →
      Became op now db r
  | inserted (newID : String) (req : NewExecution) : op = .upsertByDispatch newID req → Fresh db (req.row now newID) →
      (req.row now newID).Named → r = req.row now newID → Became op now db r
  | rejected (newID : String) (req : NewExecution) (errCode errMsg : String) : op = .insertRejected newID req errCode errMsg →
      (req.row now newID).Named → r = Dispatch.moved now .failed (some .rejected) (req.row now newID) → Became op now db r

theorem became_does {r : Execution} (h : op.Does now db reply db') (hr : r ∈ db'.executions) : Became op now db r := by
  cases op with
  | upsertByDispatch newID req =>
    rcases h with ⟨_, _, _, _, rfl⟩ | ⟨_, hfresh, hnamed, hrows⟩
    · exact .kept hr
    · rw [hrows] at hr
      rcases List.mem_append.1 hr with hr | hr
      · exact .kept hr
      · exact .inserted newID req rfl hfresh hnamed (List.mem_singleton.1 hr)
  | insertRejected newID req errCode errMsg =>
    rcases h with ⟨_, rfl⟩ | ⟨_, hnamed, hrows⟩
    · exact .kept hr
    · rw [hrows] at hr
      rcases List.mem_append.1 hr with hr | hr
      · exact .kept hr
      · exact .rejected newID req errCode errMsg rfl hnamed (List.mem_singleton.1 hr)
  | markLaunched execID code =>
    obtain ⟨_, hrows, _⟩ := h
    rw [hrows] at hr
    rcases mem_changeRow hr with hr | ⟨r₀, hr₀, rfl, rfl⟩
    · exact .kept hr
    · exact .launched r₀ code hr₀ rfl rfl
  | updateStatus execID target artifacts errCode errMsg =>
    rw [h.1] at hr
    rcases mem_changeRow hr with hr | ⟨r₀, hr₀, rfl, rfl⟩
    · exact .kept hr
    · exact .moved r₀ target none hr₀ rfl
  | markTerminal execID target source artifacts errCode errMsg =>
    rw [h.2.1] at hr
    rcases mem_changeRow hr with hr | ⟨r₀, hr₀, rfl, rfl⟩
    · exact .kept hr
    · exact .moved r₀ target (some source) hr₀ rfl

theorem rowSound_became {r : Execution} {h : Hist Daemon} (hrows : ∀ r ∈ db.executions, RowSound r) (hmay : MayLaunch h (.store op))
    (hr : Became op now db r) : RowSound r := by
  cases hr with
  | kept hr => exact hrows r hr
  | launched r₀ code hr₀ _ heq =>
    subst heq
    exact ⟨(hrows r₀ hr₀).named, (hrows r₀ hr₀).session, fun _ => rfl⟩
  | moved r₀ target source hr₀ heq =>
    subst heq
    exact ⟨(hrows r₀ hr₀).named, (hrows r₀ hr₀).session, (hrows r₀ hr₀).coded⟩
  | inserted newID req hop _ hnamed heq | rejected newID req _ _ hop hnamed heq =>
    subst hop heq
    obtain ⟨hid, _, hsession⟩ := hmay
    refine ⟨hnamed, hsession.trans (congrArg sessionNameFor ?_), fun hcode => absurd rfl hcode⟩
    show newID = if req.executionID = "" then newID else req.executionID
    rw [hid, ite_self]

variable {t : List DaemonEntry} {en : DaemonEntry} {event : DaemonEntry → Event Daemon} {h : Hist Daemon}

theorem ledger_init (h : NoExecutions db) : Ledger [] db event where
  recorded := recorded_init h
  rows _ hr := absurd (h.1 ▸ hr) List.not_mem_nil
  launched _ hr := absurd (h.1 ▸ hr) List.not_mem_nil
  created _ hen := absurd hen List.not_mem_nil
  once := .nil

/-- An entry that makes no row and leaves the rows. -/
theorem Ledger.quiet (hl : Ledger t db event) (hquiet : ∀ newID exec, ¬Creates newID exec (event en)) : Ledger (en :: t) db event where
  recorded := hl.recorded
  rows := hl.rows
  launched r hr hlaunched := by
    obtain ⟨en', hen', hop⟩ := hl.launched r hr hlaunched
    exact ⟨en', List.mem_cons_of_mem _ hen', hop⟩
  created en' hen' newID exec hcreates := by
    rcases List.mem_cons.1 hen' with rfl | hen'
    · exact absurd hcreates (hquiet newID exec)
    · exact hl.created en' hen' newID exec hcreates
  once := List.pairwise_cons.2 ⟨fun _ _ newID exec _ hcreates => absurd hcreates (hquiet newID exec), hl.once⟩

theorem not_launched_became {r : Execution} (hmay : MayLaunch h (.store op)) (hr : Became op now db r) (hlaunched : r.launchState = .launched) :
    (∃ r₀ ∈ db.executions, r₀.executionID = r.executionID ∧ r₀.launchState = .launched) ∨ ∃ code, op = .markLaunched r.executionID code := by
  cases hr with
  | kept hr => exact .inl ⟨r, hr, rfl, hlaunched⟩
  | launched r₀ code hr₀ hop heq =>
    subst heq
    exact .inr ⟨code, hop⟩
  | moved r₀ target source hr₀ heq =>
    subst heq
    exact .inl ⟨r₀, hr₀, rfl, hlaunched⟩
  | inserted newID req hop _ _ heq | rejected newID req _ _ hop _ heq =>
    subst hop heq
    obtain ⟨_, hlaunch, _⟩ := hmay
    have hcontra : req.launchState.getD .none = .launched := hlaunched
    rw [hlaunch] at hcontra
    cases hcontra

/-- A call that succeeds. -/
theorem Ledger.does (hl : Ledger t db event) (hrecorded : Recorded db') (hadvances : Advances db db') (hdoes : op.Does now db reply db')
    (hmay : MayLaunch h (.store op)) (hop : en.op = DaemonOp.store op)
    (hevent : event en = ⟨DaemonOp.store op, (.ok (.ok reply) : Except Panic (Except StoreError StoreReply))⟩) : Ledger (en :: t) db' event := by
  have hcreated : ∀ newID exec, Creates newID exec (event en) →
      exec.executionID = newID ∧ Fresh db exec ∧ ∃ r ∈ db'.executions, r.executionID = newID := by
    rintro newID exec ⟨req, hcreates⟩
    rw [hevent] at hcreates
    cases hcreates
    rcases hdoes with ⟨_, _, hreply, _⟩ | ⟨hreply, hfresh, _, hrows⟩
    · cases hreply
    · obtain ⟨rfl, -⟩ := StoreReply.row.inj hreply
      obtain ⟨hid, _⟩ : Drawn req newID .launching := hmay
      have hrow : (req.row now newID).executionID = newID := by
        show (if req.executionID = "" then newID else req.executionID) = newID
        rw [hid, ite_self]
      exact ⟨hrow, hfresh, _, hrows ▸ List.mem_append_right _ List.mem_cons_self, hrow⟩
  refine ⟨hrecorded, fun r hr => rowSound_became hl.rows hmay (became_does hdoes hr), fun r hr hlaunched => ?_, fun en' hen' newID exec hcreates => ?_,
    List.pairwise_cons.2 ⟨fun en' hen' newID exec exec' hcreates hcreates' => ?_, hl.once⟩⟩
  · rcases not_launched_became hmay (became_does hdoes hr) hlaunched with ⟨r₀, hr₀, hid, hlaunched₀⟩ | ⟨code, hcode⟩
    · obtain ⟨en', hen', code, hmark⟩ := hl.launched r₀ hr₀ hlaunched₀
      exact ⟨en', List.mem_cons_of_mem _ hen', code, hid ▸ hmark⟩
    · exact ⟨en, List.mem_cons_self, code, hcode ▸ hop⟩
  · rcases List.mem_cons.1 hen' with rfl | hen'
    · obtain ⟨hid, _, hrow⟩ := hcreated newID exec hcreates
      exact ⟨hid, hrow⟩
    · obtain ⟨hid, r, hr, hrid⟩ := hl.created en' hen' newID exec hcreates
      obtain ⟨r', hr', hid', _⟩ := hadvances r hr
      exact ⟨hid, r', hr', hid'.trans hrid⟩
  · obtain ⟨hid, hfresh, _⟩ := hcreated newID exec hcreates
    obtain ⟨_, r, hr, hrid⟩ := hl.created en' hen' newID exec' hcreates'
    exact (hfresh r hr).1 (hrid.trans hid.symm)

end Steps

/-! ## Every run -/

section Runs

variable {host : Host} {p : DaemonPool} {Init : DaemonState → Prop} {ok : DaemonPool → Label DaemonThread DaemonEvent → Prop}

/-- A row that its maker is about to launch was not launched before. -/
theorem unlaunched_of_launching (hr : (daemon host).Reach Init ok p) (hl : Ledger p.trace p.shared.db (daemon host).event) {i : Nat} {h : Hist Daemon}
    {newID : String} {exec r : Execution} (hseen : h = (daemon host).seen i p.trace) (hlaunching : Launching newID exec h)
    (hmem : r ∈ p.shared.db.executions) (hid : r.executionID = exec.executionID) : r.launchState ≠ .launched := by
  intro hlaunched
  obtain ⟨mid, en, older, heq, htid, hcreates, hmid⟩ := Sys.since_seen (hseen ▸ hlaunching)
  obtain ⟨en₁, hen₁, code, hop⟩ := hl.launched r hmem hlaunched
  obtain ⟨post, pre, hsplit⟩ := List.append_of_mem hen₁
  -- what marked it launched had made it as well, and it is made once
  have hmay := (ownerContract host).ok_of_trace hr en₁ hen₁
  rw [show (ownerContract host).spec en₁.kind = ownerSpec from rfl, hop] at hmay
  obtain ⟨newID₁, exec₁, hlaunching₁, hid₁⟩ := hmay
  obtain ⟨mid₁, en₀, older₁, heq₁, htid₁, hcreates₁, _⟩ := Sys.since_seen (Sys.entry_hist hr post en₁ pre hsplit ▸ hlaunching₁)
  have hsplit₁ : p.trace = (post ++ en₁ :: mid₁) ++ en₀ :: older₁ := by rw [hsplit, heq₁, List.append_assoc, List.cons_append]
  have hnew := (hl.created en (by simp [heq]) newID exec hcreates).1
  have hnew₁ := (hl.created en₀ (by simp [hsplit₁]) newID₁ exec₁ hcreates₁).1
  obtain rfl : newID = newID₁ := by rw [← hnew, ← hid, ← hid₁, hnew₁]
  obtain ⟨rfl, rfl, rfl⟩ := Sys.split_once (C := fun en => ∃ exec, Creates newID exec ((daemon host).event en))
    (hl.once.imp fun honce ⟨_, hc⟩ ⟨_, hc'⟩ => honce newID _ _ hc hc') heq hsplit₁ ⟨_, hcreates⟩ ⟨_, hcreates₁⟩
  exact hmid en₁ (by simp) (htid₁.symm.trans htid) (.inr ⟨code, by rw [← hid]; exact hop⟩)

/-- A call of the store in a run fails and changes nothing, or does what it has to and keeps the reports with their rows. -/
theorem store_of_reach (hr : (daemon host).Reach Init ok p) (hl : Ledger p.trace p.shared.db (daemon host).event) {i : Nat} {k : DaemonThread}
    {h : Hist Daemon} {op : StoreOp} {f : Daemon.Res (DaemonOp.store op) → Prog Daemon (Option DaemonThread)}
    (hth : p.threads[i]? = some ⟨k, h, .op (DaemonOp.store op) f⟩) :
    ((∀ reply, ((DaemonOp.store op).exec p.shared).1 ≠ .ok (.ok reply)) ∧ ((DaemonOp.store op).exec p.shared).2 = p.shared) ∨
      ∃ reply db', (DaemonOp.store op).exec p.shared = (.ok (.ok reply), { p.shared with db := db' }) ∧
        op.Does p.shared.world.now p.shared.db reply db' ∧ Recorded db' ∧ Advances p.shared.db db' := by
  have hmay : MayLaunch h (.store op) := (ownerContract host).ok_of_reach hr hth
  have hseen := (Sys.hist_eq_seen hr).1 i _ hth
  have hfits : Fits p.shared.db ⟨op, p.shared.world.now, p.shared.faults⟩ := by
    cases op with
    | upsertByDispatch newID req | insertRejected newID req errCode errMsg =>
      obtain ⟨_, hlaunch, _⟩ := hmay
      exact .inr (by simp [hlaunch])
    | updateStatus execID target artifacts errCode errMsg =>
      obtain ⟨rfl, newID, exec, hlaunching, rfl⟩ := hmay
      intro r hfind _
      exact .inl ⟨rfl, unlaunched_of_launching hr hl hseen hlaunching (List.mem_of_find?_eq_some hfind) (by simpa using List.find?_some hfind)⟩
    | _ => trivial
  rcases exec_store op hl.recorded.ids with hfailed | ⟨reply, db', hserve, hexec, hdoes⟩
  · exact .inl hfailed
  · rcases hl.recorded.serve hfits with ⟨e, hserve'⟩ | ⟨_, hrecorded, hadvances⟩
    · rw [hserve] at hserve'
      cases hserve'
    · rw [hserve] at hrecorded hadvances
      exact .inr ⟨reply, db', hexec, hdoes, hrecorded, hadvances⟩

/-- The rows, their reports and the entries of the trace agree in every run. -/
theorem ledger_of_reach (hinit : ∀ s, Init s → NoExecutions s.db) (hr : (daemon host).Reach Init ok p) :
    Ledger p.trace p.shared.db (daemon host).event := by
  refine hr.shared_invariant (P := fun s t => Ledger t s.db (daemon host).event) (fun s hs => ledger_init (hinit s hs))
    (fun p e _ _ ih => (tick_frame e p.shared).1 ▸ ih) fun p i k h o f hp _ hth ih => ?_
  by_cases hstore : ∀ op, o ≠ .store op
  · show Ledger _ ((o.exec p.shared).2).db _
    rw [exec_db hstore]
    refine ih.quiet fun newID exec hcreates => ?_
    obtain ⟨req, hcreates⟩ := hcreates
    exact hstore _ (congrArg Event.op hcreates)
  · obtain ⟨op, rfl⟩ : ∃ op, o = .store op := by simpa using hstore
    have hmay : MayLaunch h (.store op) := (ownerContract host).ok_of_reach hp hth
    show Ledger _ (((DaemonOp.store op).exec p.shared).2).db _
    rcases store_of_reach hp ih hth with ⟨hfailed, hsame⟩ | ⟨reply, db', hexec, hdoes, hrecorded, hadvances⟩
    · rw [hsame]
      refine ih.quiet fun newID exec hcreates => ?_
      obtain ⟨req, hcreates⟩ := hcreates
      injection hcreates with hop hres
      cases hop
      exact hfailed _ hres
    · rw [hexec]
      refine ih.does hrecorded hadvances hdoes hmay rfl ?_
      show (⟨DaemonOp.store op, ((DaemonOp.store op).exec p.shared).1⟩ : Event Daemon) = _
      rw [hexec]
      rfl

/-- No step loses a row, or takes a status back. -/
theorem advances_of_reach (hinit : ∀ s, Init s → NoExecutions s.db) (hr : (daemon host).Reach Init ok p) {i : Nat} {k : DaemonThread}
    {h : Hist Daemon} {o : DaemonOp} {f : Daemon.Res o → Prog Daemon (Option DaemonThread)} (hth : p.threads[i]? = some ⟨k, h, .op o f⟩) :
    Advances p.shared.db (o.exec p.shared).2.db := by
  by_cases hstore : ∀ op, o ≠ .store op
  · rw [exec_db hstore]
    exact .refl _
  · obtain ⟨op, rfl⟩ : ∃ op, o = .store op := by simpa using hstore
    rcases store_of_reach hr (ledger_of_reach hinit hr) hth with ⟨_, hsame⟩ | ⟨_, _, hexec, _, _, hadvances⟩
    · rw [hsame]
      exact .refl _
    · rw [hexec]
      exact hadvances

/-- What the rows keep as they advance, they keep from any entry on. -/
theorem kept_of_advances {R : Tables → Prop} (hinit : ∀ s, Init s → NoExecutions s.db) (hkept : ∀ db db', Advances db db' → R db → R db')
    (hr : (daemon host).Reach Init ok p) : (∀ en ∈ p.trace, R ((daemon host).post en).db → R p.shared.db) ∧
      ∀ post en pre, p.trace = post ++ en :: pre → ∀ en' ∈ pre, R ((daemon host).post en').db → R en.pre.db :=
  Sys.kept_of_reach (R := fun s => R s.db) (fun p e _ _ hR => (tick_frame e p.shared).1 ▸ hR)
    (fun _ _ _ _ _ _ hp _ hth hR => hkept _ _ (advances_of_reach hinit hp hth) hR) hr

end Runs

end Purdex.Runtime
