/-
One live execution in a repository: what a goroutine knows while it holds the lock, and that exclusion holds over
every interleaving of admissions with exits and sweeps.
-/
import Purdex.Runtime.Recovery
import Purdex.Dispatch.Effects

namespace Purdex.Runtime

open Conc Dispatch

/-! ## Preconditions of the operations -/

section Rules

variable {S : Spec Daemon} {α : Type} {h : Hist Daemon}

/-- An operation and what comes after it, where every answer may come. -/
theorem wpE_perform_seq {ok : Hist Daemon → DaemonOp → Prop} {o : DaemonOp} {f : o.Answer → Go α} {Q : Hist Daemon → α → Prop}
    {E : Hist Daemon → Panic → Prop} (ho : ok h o) (hpanic : ∀ e, E (⟨o, (.error e : Except Panic o.Answer)⟩ :: h) e)
    (hf : ∀ a, wpE (anyAnswer ok) (f a) Q E (⟨o, (.ok a : Except Panic o.Answer)⟩ :: h)) : wpE (anyAnswer ok) (perform o >>= f) Q E h := by
  refine (wpE_bind _ f Q).2 ⟨ho, fun r _ => ?_⟩
  cases r with
  | ok a => exact hf a
  | error e => exact hpanic e

/-- An operation at the end of a program. -/
theorem wpE_perform {ok : Hist Daemon → DaemonOp → Prop} {o : DaemonOp} {Q : Hist Daemon → o.Answer → Prop} {E : Hist Daemon → Panic → Prop}
    (ho : ok h o) (hpanic : ∀ e, E (⟨o, (.error e : Except Panic o.Answer)⟩ :: h) e)
    (hQ : ∀ a, Q (⟨o, (.ok a : Except Panic o.Answer)⟩ :: h) a) : wpE (anyAnswer ok) (perform o) Q E h := by
  refine ⟨ho, fun r _ => ?_⟩
  cases r with
  | ok a => exact hQ a
  | error e => exact hpanic e

theorem onlyE_perform {P : DaemonOp → Prop} {o : DaemonOp} (h : P o) : OnlyE (I := Daemon) P (perform o) := only_call h

end Rules

/-! ## Who holds a lock -/

def Locks (key : String) (ev : Event Daemon) : Prop := ev.op = DaemonOp.lock key

def Unlocks (key : String) (ev : Event Daemon) : Prop := ev.op = DaemonOp.unlock key

/-- The lock was taken, and not given back since. -/
def Holds (key : String) (h : Hist Daemon) : Prop := Since (Locks key) (Unlocks key) h

def Inserts (ev : Event Daemon) : Prop := ∃ newID req, ev.op = DaemonOp.store (.upsertByDispatch newID req)

def SawNone (key : String) (ev : Event Daemon) : Prop := ev = ⟨DaemonOp.hasLiveByRepo key, (.ok (.ok false) : Except Panic (Except StoreError Bool))⟩

/-- No live execution was found, and no row was made since, nor the lock moved. -/
def Cleared (key : String) (h : Hist Daemon) : Prop := Since (SawNone key) (fun ev => Locks key ev ∨ Unlocks key ev ∨ Inserts ev) h

/-- Nothing is held. -/
def Idle (h : Hist Daemon) : Prop := ∀ key, ¬Holds key h

/-- Neither takes a lock nor gives one back. -/
def DaemonOp.Lockless : DaemonOp → Prop
  | .lock _ | .unlock _ => False
  | _ => True

/-- And makes no row that is live. -/
def DaemonOp.Plain : DaemonOp → Prop
  | .lock _ | .unlock _ | .store (.upsertByDispatch _ _) => False
  | _ => True

theorem DaemonOp.Plain.lockless {o : DaemonOp} (h : o.Plain) : o.Lockless := by
  cases o <;> first | exact h | trivial

section Locks

variable {key : String} {h h' : Hist Daemon}

theorem holds_grew (hg : Grew (fun ev => DaemonOp.Lockless ev.op) h h') : Holds key h' ↔ Holds key h := by
  constructor
  · refine Since.of_grew (hg.mono fun ev hev hlock => ?_)
    rw [hlock] at hev
    exact hev
  · refine fun hs => Since.grew hs (hg.mono fun ev hev hunlock => ?_)
    rw [hunlock] at hev
    exact hev

theorem Cleared.grew (hc : Cleared key h) (hg : Grew (fun ev => DaemonOp.Plain ev.op) h h') : Cleared key h' := by
  refine Since.grew hc (hg.mono fun ev hev hbroken => ?_)
  rcases hbroken with hlock | hunlock | ⟨newID, req, hinsert⟩
  · rw [hlock] at hev
    exact hev
  · rw [hunlock] at hev
    exact hev
  · rw [hinsert] at hev
    exact hev

theorem idle_grew (hi : Idle h) (hg : Grew (fun ev => DaemonOp.Lockless ev.op) h h') : Idle h' :=
  fun key hk => hi key ((holds_grew hg).1 hk)

end Locks

/-! ## What a goroutine may do -/

/-- A goroutine takes one lock at a time and gives back what it holds, and makes a live row only for a repository that
it holds and has found clear. -/
def MayIssue (h : Hist Daemon) : DaemonOp → Prop
  | .lock _ => Idle h
  | .unlock key => Holds key h
  | .store (.upsertByDispatch _ req) => Holds req.repoLocation h ∧ Cleared req.repoLocation h
  | _ => True

theorem mayIssue_of_plain {h : Hist Daemon} {o : DaemonOp} (ho : o.Plain) : MayIssue h o := by
  cases o with
  | lock _ | unlock _ => exact ho.elim
  | store op =>
    cases op with
    | upsertByDispatch _ _ => exact ho.elim
    | _ => trivial
  | _ => trivial

abbrev admissionSpec : Spec Daemon := anyAnswer MayIssue

section Programs

variable {α : Type} {h : Hist Daemon} {host : Host} {polls : Nat}

theorem wpE_plain {p : Go α} (hp : OnlyE DaemonOp.Plain p) : wpE admissionSpec p (fun h' _ => Grew (fun ev => DaemonOp.Plain ev.op) h h')
    (fun h' _ => Grew (fun ev => DaemonOp.Plain ev.op) h h') h :=
  wpE_of_only (fun _ _ => mayIssue_of_plain) hp (fun _ _ hg => hg) fun _ _ hg => hg

theorem wpE_plain_idle {p : Go α} (hp : OnlyE DaemonOp.Plain p) (hi : Idle h) : wpE admissionSpec p (fun h' _ => Idle h') (fun h' _ => Idle h') h :=
  wpE_mono p (wpE_plain hp) (fun _ _ _ hg => idle_grew hi (hg.mono fun _ => DaemonOp.Plain.lockless))
    fun _ _ _ hg => idle_grew hi (hg.mono fun _ => DaemonOp.Plain.lockless)

theorem only_snapshot {P : DaemonOp → Prop} {canonical : String} (hrev : P (.revParse canonical)) (hstatus : P (.porcelain canonical)) :
    OnlyE (I := Daemon) P (snapshot canonical) := by
  refine onlyE_bind (onlyE_perform hrev) fun head => ?_
  cases head with
  | error err => exact onlyE_pure _
  | ok head =>
    refine onlyE_bind (onlyE_perform hstatus) fun status => ?_
    cases status <;> exact onlyE_pure _

theorem only_waitRelayConnect {P : DaemonOp → Prop} {code : String} (hrelay : P (.hasRelay code)) :
    ∀ polls, OnlyE (I := Daemon) P (waitRelayConnect code polls)
  | 0 => onlyE_perform hrelay
  | polls + 1 => by
    refine onlyE_bind (onlyE_perform hrelay) fun connected => ?_
    cases connected with
    | true => exact onlyE_pure _
    | false => exact only_waitRelayConnect hrelay polls

/-- What a launch does outside of the store. -/
def DaemonOp.Launches (sessionName : String) : DaemonOp → Prop
  | .hasSession name | .newSession name _ => name = sessionName
  | .listSessions | .config | .writeToken _ _ | .sendKeys _ _ | .hasRelay _ | .subscriberToRelay _ _ => True
  | _ => False

theorem only_sessionCode {P : DaemonOp → Prop} {sessionName : String} (hlist : P .listSessions) :
    OnlyE (I := Daemon) P (sessionCode sessionName) := by
  refine onlyE_bind (onlyE_perform hlist) fun sessions => ?_
  cases sessions with
  | error err => exact onlyE_pure _
  | ok sessions =>
    dsimp only
    cases sessions.find? (·.name = sessionName) <;> exact onlyE_pure _

theorem only_launch {spec : LaunchSpec} : OnlyE (I := Daemon) (DaemonOp.Launches spec.sessionName) (launch polls spec) := by
  refine onlyE_bind (onlyE_perform rfl) fun found => ?_
  cases found with
  | true => exact onlyE_pure _
  | false =>
    refine onlyE_bind (onlyE_perform rfl) fun made => ?_
    cases made with
    | error err => exact onlyE_pure _
    | ok done =>
      refine onlyE_bind (only_sessionCode trivial) fun code => ?_
      cases code with
      | error e => exact onlyE_pure _
      | ok code =>
        refine onlyE_bind (onlyE_perform trivial) fun cfg => onlyE_bind (onlyE_perform trivial) fun token => ?_
        cases token with
        | error err => exact onlyE_pure _
        | ok done =>
          refine onlyE_bind (onlyE_perform trivial) fun sent => ?_
          cases sent with
          | error err => exact onlyE_pure _
          | ok done =>
            refine onlyE_bind (only_waitRelayConnect trivial polls) fun connected => ?_
            cases connected with
            | false => exact onlyE_pure _
            | true => exact onlyE_bind (onlyE_perform trivial) fun _ => onlyE_pure _

theorem DaemonOp.Launches.plain {sessionName : String} {o : DaemonOp} (h : o.Launches sessionName) : o.Plain := by
  cases o <;> first | exact h.elim | trivial

/-- What the goroutine holds is one lock. -/
def HoldsOnly (key : String) (h : Hist Daemon) : Prop := Holds key h ∧ ∀ key', Holds key' h → key' = key

theorem HoldsOnly.grew {key : String} {h h' : Hist Daemon} (hh : HoldsOnly key h) (hg : Grew (fun ev => DaemonOp.Lockless ev.op) h h') :
    HoldsOnly key h' :=
  ⟨(holds_grew hg).2 hh.1, fun key' hk => hh.2 key' ((holds_grew hg).1 hk)⟩

theorem HoldsOnly.plain {key : String} {h h' : Hist Daemon} (hh : HoldsOnly key h) (hg : Grew (fun ev => DaemonOp.Plain ev.op) h h') :
    HoldsOnly key h' := hh.grew (hg.mono fun _ => DaemonOp.Plain.lockless)

theorem holdsOnly_lock {key : String} {r : Except Panic Unit} (hi : Idle h) : HoldsOnly key (⟨DaemonOp.lock key, r⟩ :: h) := by
  refine ⟨.inl rfl, fun key' hk => ?_⟩
  rcases hk with hlock | ⟨_, hk⟩
  · exact (DaemonOp.lock.inj hlock).symm
  · exact absurd hk (hi key')

theorem idle_unlock {key : String} {r : Except Panic Unit} (hh : HoldsOnly key h) : Idle (⟨DaemonOp.unlock key, r⟩ :: h) := by
  intro key' hk
  rcases hk with hlock | ⟨hkept, hk⟩
  · cases hlock
  · obtain rfl := hh.2 key' hk
    exact hkept rfl

/-- A body that keeps the lock may run under it, and nothing is held when it is over. -/
theorem wpE_locked {key : String} {body : Go α} (hi : Idle h)
    (hbody : ∀ h', HoldsOnly key h' → wpE admissionSpec body (fun h'' _ => HoldsOnly key h'') (fun h'' _ => HoldsOnly key h'') h') :
    wpE admissionSpec (locked key body) (fun h' _ => Idle h') (fun h' _ => Idle h') h := by
  refine wp_call_seq hi fun r _ => ?_
  refine wp_seq ((wp_run body fun h' _ => HoldsOnly key h').2 (hbody _ (holdsOnly_lock hi))) fun h₁ res _ hheld => ?_
  refine wp_call_seq hheld.1 fun r' _ => ?_
  cases res with
  | ok a => exact idle_unlock hheld
  | error e => exact idle_unlock hheld

theorem wpE_inspect {key : String} (hh : HoldsOnly key h) : wpE admissionSpec (inspect key)
    (fun h' r => HoldsOnly key h' ∧ ∀ adm, r = .ok adm → adm.canonicalPath = key ∧ Cleared key h') (fun h' _ => HoldsOnly key h') h := by
  have hstep : ∀ r, HoldsOnly key (⟨DaemonOp.hasLiveByRepo key, r⟩ :: h) := fun r => hh.plain (Grew.cons trivial (.refl h))
  refine wpE_perform_seq trivial (fun _ => hstep _) fun live => ?_
  rcases live with e | _ | _
  · exact ⟨hstep _, nofun⟩
  · have hcleared : Cleared key (⟨DaemonOp.hasLiveByRepo key, .ok (.ok false)⟩ :: h) := .inl rfl
    refine wpE_perform_seq trivial (fun _ => (hstep _).plain (Grew.cons trivial (.refl _))) fun head => ?_
    have hstep₂ : ∀ r, HoldsOnly key (⟨DaemonOp.revParse key, r⟩ :: ⟨DaemonOp.hasLiveByRepo key, .ok (.ok false)⟩ :: h) := fun r =>
      (hstep _).plain (Grew.cons trivial (.refl _))
    cases head with
    | error err => exact ⟨hstep₂ _, nofun⟩
    | ok head =>
      refine wpE_perform_seq trivial (fun _ => (hstep₂ _).plain (Grew.cons trivial (.refl _))) fun status => ?_
      cases status with
      | error err => exact ⟨(hstep₂ _).plain (Grew.cons trivial (.refl _)), nofun⟩
      | ok status =>
        refine ⟨(hstep₂ _).plain (Grew.cons trivial (.refl _)), fun adm hadm => ?_⟩
        obtain rfl := Except.ok.inj hadm
        exact ⟨rfl, hcleared.grew (Grew.cons trivial (Grew.cons trivial (.refl _)))⟩
  · exact ⟨hstep _, nofun⟩

theorem only_launchRow {req : LaunchRequest} {effective sessionName : String} {adm : Admission} {exec : Execution} :
    OnlyE (I := Daemon) DaemonOp.Plain (launchRow polls req effective sessionName adm exec) := by
  refine onlyE_bind (only_launch.mono fun _ => DaemonOp.Launches.plain) fun r => ?_
  cases r with
  | error e => exact onlyE_bind (onlyE_perform trivial) fun _ => onlyE_pure _
  | ok code =>
    refine onlyE_bind (onlyE_perform trivial) fun marked => ?_
    rcases marked with e | _ | row | _ <;> exact onlyE_pure _

theorem wpE_durableCut {req : LaunchRequest} {effective : String} {adm : Admission} (hh : HoldsOnly adm.canonicalPath h)
    (hc : Cleared adm.canonicalPath h) : wpE admissionSpec (durableCut polls req effective adm) (fun h' _ => HoldsOnly adm.canonicalPath h')
      (fun h' _ => HoldsOnly adm.canonicalPath h') h := by
  have hstep : ∀ r, HoldsOnly adm.canonicalPath (⟨DaemonOp.newID, r⟩ :: h) := fun r => hh.plain (Grew.cons trivial (.refl h))
  refine wpE_perform_seq trivial (fun _ => hstep _) fun execID => ?_
  have hmay : MayIssue (⟨DaemonOp.newID, .ok execID⟩ :: h) (.store (.upsertByDispatch execID (req.admitted execID effective adm))) :=
    ⟨(hstep _).1, hc.grew (Grew.cons trivial (.refl h))⟩
  have hinserted : ∀ r, HoldsOnly adm.canonicalPath (⟨DaemonOp.store (.upsertByDispatch execID (req.admitted execID effective adm)), r⟩ ::
      ⟨DaemonOp.newID, .ok execID⟩ :: h) := fun r => (hstep _).grew (Grew.cons trivial (.refl _))
  refine wpE_perform_seq hmay (fun _ => hinserted _) fun reply => ?_
  rcases reply with e | ⟨exec, _ | _⟩ | row | _
  · exact hinserted _
  · exact hinserted _
  · exact wpE_mono _ (wpE_plain only_launchRow) (fun _ _ _ hg => (hinserted _).plain hg) fun _ _ _ hg => (hinserted _).plain hg
  · exact hinserted _
  · exact hinserted _

theorem wpE_accept {req : LaunchRequest} (hi : Idle h) :
    wpE admissionSpec (accept host polls req) (fun h' _ => Idle h') (fun h' _ => Idle h') h := by
  unfold accept
  cases clamp req.sandboxProfile host.hostPolicy with
  | none => exact hi
  | some effective =>
    have hstep : ∀ r, Idle (⟨DaemonOp.canonicalize req.repoLocation, r⟩ :: h) := fun r => idle_grew hi (Grew.cons trivial (.refl h))
    refine wpE_perform_seq trivial (fun _ => hstep _) fun resolved => ?_
    cases resolved with
    | error err => exact hstep _
    | ok canonical =>
      refine wpE_locked (hstep _) fun h₁ hheld => wpE_seq (wpE_inspect hheld) fun h₂ admitted _ hadmitted => ?_
      cases admitted with
      | error e => exact hadmitted.1
      | ok adm =>
        obtain ⟨rfl, hcleared⟩ := hadmitted.2 adm rfl
        exact wpE_durableCut hadmitted.1 hcleared

theorem only_reject {req : LaunchRequest} {errCode errMsg : String} :
    OnlyE (I := Daemon) DaemonOp.Plain (reject host req errCode errMsg) :=
  onlyE_bind (onlyE_perform trivial) fun _ => onlyE_perform trivial

theorem wpE_consume (host : Host) (polls : Nat) (req : LaunchRequest) (hi : Idle h) :
    wpE admissionSpec (consume host polls req) (fun h' _ => Idle h') (fun h' _ => Idle h') h := by
  refine wpE_seq (wpE_accept hi) fun h₁ r _ hi₁ => ?_
  cases r with
  | error e => exact wpE_plain_idle (onlyE_bind only_reject fun _ => onlyE_pure _) hi₁
  | ok row => exact hi₁

theorem wpE_processPending {dispatchID : String} (hi : Idle h) :
    wpE admissionSpec (processPending host polls dispatchID) (fun h' _ => Idle h') (fun h' _ => Idle h') h := by
  have hclaim : ∀ r, Idle (⟨DaemonOp.claim dispatchID, r⟩ :: h) := fun r => idle_grew hi (Grew.cons trivial (.refl h))
  refine wpE_perform_seq trivial (fun _ => hclaim _) fun claimed => ?_
  rcases claimed with (_ | _ | _) | _
  · exact hclaim _
  · exact hclaim _
  · exact hclaim _
  · have hfetch : ∀ r, Idle (⟨DaemonOp.fetch dispatchID, r⟩ :: ⟨DaemonOp.claim dispatchID, .ok (.ok ())⟩ :: h) := fun r =>
      idle_grew (hclaim _) (Grew.cons trivial (.refl _))
    refine wpE_perform_seq trivial (fun _ => hfetch _) fun detail => ?_
    cases detail with
    | error e => exact hfetch _
    | ok detail => exact wpE_seq (wpE_consume host polls _ (hfetch _)) fun _ _ _ hi₁ => hi₁

theorem wpE_processAll : ∀ {ids : List String} {h : Hist Daemon}, Idle h →
    wpE admissionSpec (processAll host polls ids) (fun h' _ => Idle h') (fun h' _ => Idle h') h
  | [], _, hi => hi
  | id :: ids, h, hi => by
    refine wpE_seq (wpE_processPending hi) fun h₁ r _ hi₁ => wpE_seq (wpE_processAll hi₁) fun h₂ errs _ hi₂ => ?_
    cases r <;> exact hi₂

theorem wpE_runOnce (hi : Idle h) : wpE admissionSpec (runOnce host polls) (fun h' _ => Idle h') (fun h' _ => Idle h') h := by
  have hpoll : ∀ r, Idle (⟨DaemonOp.pollPending, r⟩ :: h) := fun r => idle_grew hi (Grew.cons trivial (.refl h))
  refine wpE_perform_seq trivial (fun _ => hpoll _) fun pendings => ?_
  cases pendings with
  | error e => exact hpoll _
  | ok pendings => exact wpE_processAll (hpoll _)

end Programs

/-! ## What ends an execution -/

/-- What exits and sweeps do. -/
def DaemonOp.Recovers : DaemonOp → Prop
  | .hasSession _ | .killSession _ | .liveIDs | .loadByID _ | .idByCode _ | .gitDiff _ _ | .store (.markTerminal _ _ _ _ _ _) => True
  | _ => False

theorem DaemonOp.Recovers.plain {o : DaemonOp} (h : o.Recovers) : o.Plain := by
  cases o with
  | store op => cases op <;> first | exact h.elim | trivial
  | _ => first | exact h.elim | trivial

section Recovery

variable {host : Host}

theorem only_buildTerminalArtifacts {exec : Execution} {status : Status} :
    OnlyE (I := Daemon) DaemonOp.Recovers (buildTerminalArtifacts host exec status) := by
  refine onlyE_bind (onlyE_perform trivial) fun diff => ?_
  cases diff with
  | error err => exact onlyE_pure _
  | ok diff =>
    dsimp only
    split <;> exact onlyE_pure _

theorem only_getBySessionCode {code : String} : OnlyE (I := Daemon) DaemonOp.Recovers (getBySessionCode code) := by
  refine onlyE_bind (onlyE_perform trivial) fun found => ?_
  rcases found with e | _ | id
  · exact onlyE_pure _
  · exact onlyE_pure _
  · refine onlyE_bind (onlyE_perform trivial) fun loaded => ?_
    rcases loaded with e | exec
    · cases e <;> exact onlyE_pure _
    · exact onlyE_pure _

theorem only_handle {sessionCode : String} {exitCode : Int} {signaled : Bool} {res : ResultOutcome} :
    OnlyE (I := Daemon) DaemonOp.Recovers (handle host sessionCode exitCode signaled res) := by
  refine onlyE_bind only_getBySessionCode fun found => ?_
  rcases found with e | _ | exec
  · exact onlyE_pure _
  · exact onlyE_pure _
  · dsimp only
    split
    · exact onlyE_pure _
    · exact onlyE_bind only_buildTerminalArtifacts fun _ => onlyE_bind (onlyE_perform trivial) fun _ => onlyE_pure _

theorem only_loadAll : ∀ ids, OnlyE (I := Daemon) DaemonOp.Recovers (loadAll ids)
  | [] => onlyE_pure _
  | id :: ids => by
    refine onlyE_bind (onlyE_perform trivial) fun loaded => ?_
    cases loaded with
    | error e => exact onlyE_pure _
    | ok exec =>
      refine onlyE_bind (only_loadAll ids) fun rest => ?_
      cases rest <;> exact onlyE_pure _

theorem only_listLive : OnlyE (I := Daemon) DaemonOp.Recovers listLive := by
  refine onlyE_bind (onlyE_perform trivial) fun ids => ?_
  cases ids with
  | error e => exact onlyE_pure _
  | ok ids => exact only_loadAll ids

theorem only_finishFailed {exec : Execution} {errCode errMsg : String} :
    OnlyE (I := Daemon) DaemonOp.Recovers (finishFailed host exec errCode errMsg) :=
  onlyE_bind only_buildTerminalArtifacts fun _ => onlyE_bind (onlyE_perform trivial) fun _ => onlyE_pure _

theorem only_reconcileOne {exec : Execution} : OnlyE (I := Daemon) DaemonOp.Recovers (reconcileOne host exec) := by
  unfold reconcileOne
  split
  · exact onlyE_pure _
  · refine onlyE_bind (onlyE_perform trivial) fun alive => ?_
    split
    · cases alive with
      | true => exact onlyE_pure _
      | false => exact only_finishFailed
    · cases alive with
      | true => exact onlyE_bind (onlyE_perform trivial) fun _ => only_finishFailed
      | false => exact only_finishFailed

theorem only_reconcileAll : ∀ execs, OnlyE (I := Daemon) DaemonOp.Recovers (reconcileAll host execs)
  | [] => onlyE_pure _
  | exec :: rest => by
    refine onlyE_bind only_reconcileOne fun r => onlyE_bind (only_reconcileAll rest) fun errs => ?_
    cases r <;> exact onlyE_pure _

theorem only_sweep : OnlyE (I := Daemon) DaemonOp.Recovers (sweep host) := by
  refine onlyE_bind only_listLive fun live => ?_
  cases live with
  | error e => exact onlyE_pure _
  | ok execs => exact onlyE_bind (only_reconcileAll execs) fun _ => onlyE_pure _

theorem only_reclaimByID {execID : String} : OnlyE (I := Daemon) DaemonOp.Recovers (reclaimByID host execID) := by
  refine onlyE_bind only_listLive fun live => ?_
  cases live with
  | error e => exact onlyE_pure _
  | ok execs =>
    dsimp only
    cases execs.find? (·.executionID = execID) with
    | none => exact onlyE_pure _
    | some exec => exact onlyE_bind only_reconcileOne fun _ => onlyE_pure _

end Recovery

/-- A goroutine that is over holds nothing. -/
theorem wpE_go {host : Host} {h : Hist Daemon} (hi : Idle h) (job : Job) :
    wpE admissionSpec (job.go host) (fun h' _ => Idle h') (fun h' _ => Idle h') h := by
  cases job with
  | consume polls req =>
    exact wpE_consume host polls req hi
  | pass polls => exact wpE_seq (wpE_runOnce hi) fun _ _ _ hi₁ => hi₁
  | exit execID sessionCode exitCode signaled res =>
    exact wpE_plain_idle (onlyE_bind (only_handle.mono fun _ => DaemonOp.Recovers.plain) fun _ => onlyE_pure _) hi
  | reconcile => exact wpE_plain_idle (onlyE_bind (only_sweep.mono fun _ => DaemonOp.Recovers.plain) fun _ => onlyE_pure _) hi
  | reclaim execID => exact wpE_plain_idle (onlyE_bind (only_reclaimByID.mono fun _ => DaemonOp.Recovers.plain) fun _ => onlyE_pure _) hi

theorem idle_nil : Idle [] := fun _ hk => hk

def admissionContract (host : Host) : Contract (daemon host) where
  spec _ := admissionSpec
  inv _ h := h = []
  fin _ h := Idle h
  ans_exec _ _ _ := trivial
  inv_start _ := rfl
  body_ok k h hnil := by
    have hi : Idle h := hnil ▸ idle_nil
    exact wp_seq ((wp_run (k.job.go host) fun h' _ => Idle h').2 (wpE_go hi k.job)) fun h' r _ hi' => hi'

/-! ## Exclusion -/

/-- How many live executions there are in a repository. -/
def liveAt (key : String) (db : Tables) : Nat := db.executions.countP fun r => decide (r.repoLocation = key ∧ Status.Live r.status)

section Effects

variable {s : DaemonState} {o : DaemonOp}

theorem exec_cases (o : DaemonOp) (s : DaemonState) : o.exec s = (.error .panic, s) ∨ o.exec s = (.ok (o.run s).1, (o.run s).2) := by
  unfold DaemonOp.exec
  split
  · exact .inl rfl
  · exact .inr rfl

/-- Only two things touch the locks, only one touches the rows, and the daemon restarts by itself. -/
theorem run_frame (o : DaemonOp) (s : DaemonState) : (o.run s).2.boot = s.boot ∧ (o.Lockless → (o.run s).2.locks = s.locks) ∧
    ((∀ op, o ≠ .store op) → (o.run s).2.db = s.db) := by
  cases o with
  | lock key | unlock key => exact ⟨rfl, False.elim, fun _ => rfl⟩
  | store op => exact ⟨rfl, fun _ => rfl, fun h => absurd rfl (h op)⟩
  | claim id =>
    show (s.claim id).2.boot = _ ∧ (_ → (s.claim id).2.locks = _) ∧ (_ → (s.claim id).2.db = _)
    unfold DaemonState.claim
    split <;> exact ⟨rfl, fun _ => rfl, fun _ => rfl⟩
  | newSession name cwd | killSession name =>
    simp only [DaemonOp.run, DaemonState.tmux]
    split
    · exact ⟨rfl, fun _ => rfl, fun _ => rfl⟩
    · split <;> exact ⟨rfl, fun _ => rfl, fun _ => rfl⟩
  | listSessions | sendKeys target keys =>
    simp only [DaemonOp.run, DaemonState.tmux]
    split <;> exact ⟨rfl, fun _ => rfl, fun _ => rfl⟩
  | _ => exact ⟨rfl, fun _ => rfl, fun _ => rfl⟩

variable {db db' : Tables} {now : Int} {reply : StoreReply} {op : StoreOp} {key : String}

theorem live_of_canTransition {a b : Status} (h : canTransition a b = true) : Status.Live a := by
  cases a with
  | accepted => exact .inl rfl
  | running => exact .inr rfl
  | completed | failed => cases b <;> cases h

/-- A change of a row that was live makes no other one live. -/
theorem liveAt_changeRow {execID : String} {change : Execution → Execution} {r : Execution} (hids : (db.executions.map (·.executionID)).Nodup)
    (hfind : db.executions.find? (·.executionID = execID) = some r) (hrepo : (change r).repoLocation = r.repoLocation)
    (hlive : Status.Live r.status) : (changeRow execID change db.executions).countP (fun r => decide (r.repoLocation = key ∧ Status.Live r.status)) ≤
      liveAt key db := by
  have hr : r.executionID = execID := by simpa using List.find?_some hfind
  rw [changeRow, List.countP_map]
  refine List.countP_mono_left fun x hx hchanged => ?_
  simp only [Function.comp_apply, decide_eq_true_eq] at hchanged ⊢
  by_cases hxid : x.executionID = execID
  · obtain rfl : x = r := List.inj_on_of_nodup_map hids hx (List.mem_of_find?_eq_some hfind) (hxid.trans hr.symm)
    rw [if_pos hxid, hrepo] at hchanged
    exact ⟨hchanged.1, hlive⟩
  · rwa [if_neg hxid] at hchanged

/-- Only an insertion adds a live execution, and that to its own repository. -/
theorem liveAt_does (hids : (db.executions.map (·.executionID)).Nodup) (h : op.Does now db reply db') :
    liveAt key db' ≤ liveAt key db ∨ ∃ newID req, op = .upsertByDispatch newID req ∧
      liveAt key db' = liveAt key db + if req.repoLocation = key then 1 else 0 := by
  cases op with
  | upsertByDispatch newID req =>
    rcases h with ⟨_, _, _, _, rfl⟩ | ⟨_, _, _, hrows⟩
    · exact .inl (le_refl _)
    · refine .inr ⟨newID, req, rfl, ?_⟩
      rw [liveAt, hrows, List.countP_append, List.countP_singleton]
      simp [NewExecution.row, Status.Live, liveAt]
  | insertRejected newID req errCode errMsg =>
    rcases h with ⟨_, rfl⟩ | ⟨_, _, hrows⟩
    · exact .inl (le_refl _)
    · refine .inl ?_
      rw [liveAt, hrows, List.countP_append, List.countP_singleton]
      simp [moved, Status.Live, liveAt]
  | markLaunched execID code =>
    obtain ⟨_, hrows, r, hfind, _, haccepted⟩ := h
    rw [liveAt, hrows]
    exact .inl (liveAt_changeRow hids hfind rfl (.inl haccepted))
  | updateStatus execID target artifacts errCode errMsg =>
    obtain ⟨hrows, r, hfind, hlegal⟩ := h
    rw [liveAt, hrows]
    exact .inl (liveAt_changeRow hids hfind rfl (live_of_canTransition hlegal))
  | markTerminal execID target source artifacts errCode errMsg =>
    obtain ⟨_, hrows, r, hfind, hlegal⟩ := h
    rw [liveAt, hrows]
    exact .inl (liveAt_changeRow hids hfind rfl (live_of_canTransition hlegal))

/-- Nothing is found just where there is nothing. -/
theorem liveAt_of_sawNone {s : DaemonState} (h : (DaemonOp.exec (.hasLiveByRepo key) s).1 = .ok (.ok false)) : liveAt key s.db = 0 := by
  rcases exec_cases (.hasLiveByRepo key) s with heq | heq
  · rw [heq] at h
    cases h
  · rw [heq] at h
    have hquery : (s.query fun db => .ok (decide (∃ r ∈ db.executions, r.repoLocation = key ∧ Status.Live r.status))) = .ok false := Except.ok.inj h
    unfold DaemonState.query at hquery
    split at hquery
    · cases hquery
    · rw [liveAt, List.countP_eq_zero]
      intro r hr hlive
      exact of_decide_eq_false (Except.ok.inj hquery) ⟨r, hr, of_decide_eq_true hlive⟩

end Effects

/-- A goroutine that the daemon still runs. -/
def Running (p : DaemonPool) (i : Nat) (th : Thread Daemon DaemonThread) : Prop :=
  p.threads[i]? = some th ∧ th.kind.boot = p.shared.boot

/-- A lock is locked just where one goroutine holds it. -/
structure Apart (p : DaemonPool) : Prop where
  held : ∀ i th key, Running p i th → Holds key th.hist → key ∈ p.shared.locks
  alone : ∀ i j th th' key, Running p i th → Running p j th' → Holds key th.hist → Holds key th'.hist → i = j
  owned : ∀ key ∈ p.shared.locks, ∃ i th, Running p i th ∧ Holds key th.hist

/-- What was found clear stays clear for who holds the lock. -/
structure Exclusive (p : DaemonPool) : Prop extends Apart p where
  boots : ∀ th ∈ p.threads, th.hist ≠ [] → th.kind.boot ≤ p.shared.boot
  clear : ∀ i th key, Running p i th → Holds key th.hist → Cleared key th.hist → liveAt key p.shared.db = 0
  ids : (p.shared.db.executions.map (·.executionID)).Nodup
  single : ∀ key, liveAt key p.shared.db ≤ 1

/-- The daemon with a store in which nothing lives. -/
def NothingLive (s : DaemonState) : Prop :=
  (s.db.executions.map (·.executionID)).Nodup ∧ (∀ r ∈ s.db.executions, ¬Status.Live r.status) ∧ s.locks = []

section Exclusive

variable {host : Host} {p : DaemonPool}

theorem Exclusive.init {s : DaemonState} (h : NothingLive s) : Exclusive ⟨s, [], []⟩ := by
  obtain ⟨hids, hnone, hlocks⟩ := h
  have hrunning : ∀ {i th}, ¬Running (⟨s, [], []⟩ : DaemonPool) i th := fun hrun => nomatch hrun.1
  have hzero : ∀ key, liveAt key s.db = 0 := fun key => by
    rw [liveAt, List.countP_eq_zero]
    exact fun r hr hlive => hnone r hr (of_decide_eq_true hlive).2
  refine ⟨⟨fun i th key hrun => absurd hrun hrunning, fun i j th th' key hrun => absurd hrun hrunning, fun key hkey => ?_⟩,
    fun th hth => absurd hth List.not_mem_nil, fun i th key hrun => absurd hrun hrunning, hids, fun key => (hzero key).le.trans (Nat.zero_le 1)⟩
  rw [show (⟨s, [], []⟩ : DaemonPool).shared.locks = [] from hlocks] at hkey
  exact absurd hkey List.not_mem_nil

/-- Threads that have done nothing yet do not matter. -/
theorem Exclusive.threads {threads : List (Thread Daemon DaemonThread)} (h : Exclusive p)
    (hold : ∀ (i : Nat) (th : Thread Daemon DaemonThread), p.threads[i]? = some th → th.hist ≠ [] → threads[i]? = some th)
    (hnew : ∀ (i : Nat) (th : Thread Daemon DaemonThread), threads[i]? = some th → th.hist = [] ∨ p.threads[i]? = some th) : Exclusive { p with threads } := by
  have hrun : ∀ {i th key}, Running { p with threads } i th → Holds key th.hist → Running p i th := by
    intro i th key hrun hholds
    rcases hnew i th hrun.1 with hnil | hth
    · rw [hnil] at hholds
      exact hholds.elim
    · exact ⟨hth, hrun.2⟩
  refine ⟨⟨fun i th key hr hk => h.held i th key (hrun hr hk) hk,
    fun i j th th' key hr hr' hk hk' => h.alone i j th th' key (hrun hr hk) (hrun hr' hk') hk hk', fun key hkey => ?_⟩,
    fun th hth hne => ?_, fun i th key hr hk => h.clear i th key (hrun hr hk) hk, h.ids, h.single⟩
  · obtain ⟨i, th, hr, hk⟩ := h.owned key hkey
    refine ⟨i, th, ⟨hold i th hr.1 fun hnil => ?_, hr.2⟩, hk⟩
    rw [hnil] at hk
    exact hk
  · obtain ⟨i, hi⟩ := List.mem_iff_getElem?.1 hth
    exact h.boots th (List.mem_of_getElem? ((hnew i th hi).resolve_left hne)) hne

theorem Exclusive.spawn (h : Exclusive p) (k : DaemonThread) : Exclusive { p with threads := p.threads ++ [(daemon host).start k] } := by
  refine h.threads (fun i th hth _ => ?_) fun i th hth => ?_
  · rw [List.getElem?_append_left (List.getElem?_eq_some_iff.1 hth).1]
    exact hth
  · rcases Nat.lt_or_ge i p.threads.length with hi | hi
    · exact .inr (by rwa [List.getElem?_append_left hi] at hth)
    · rw [List.getElem?_append_right hi] at hth
      obtain ⟨_, rfl⟩ := List.getElem?_eq_some_iff.1 hth
      left
      simp [Sys.start]

/-- What happens by itself leaves rows and locks, but for a restart. -/
theorem tick_frame (e : DaemonEvent) (s : DaemonState) : (e.tick s).db = s.db ∧
    ((e.tick s).boot = s.boot ∧ (e.tick s).locks = s.locks ∨ (e.tick s).boot = s.boot + 1 ∧ (e.tick s).locks = []) := by
  cases e with
  | restart => exact ⟨rfl, .inr ⟨rfl, rfl⟩⟩
  | userSession name =>
    unfold DaemonEvent.tick
    dsimp only
    split <;> exact ⟨rfl, .inl ⟨rfl, rfl⟩⟩
  | _ => exact ⟨rfl, .inl ⟨rfl, rfl⟩⟩

theorem Exclusive.tick (h : Exclusive p) (e : DaemonEvent) : Exclusive { p with shared := e.tick p.shared } := by
  obtain ⟨hdb, ⟨hboot, hlocks⟩ | ⟨hboot, hlocks⟩⟩ := tick_frame e p.shared
  · have hrun : ∀ {i th}, Running { p with shared := e.tick p.shared } i th ↔ Running p i th := by
      intro i th
      exact and_congr_right' (iff_of_eq (congrArg (th.kind.boot = ·) hboot))
    refine ⟨⟨fun i th key hr hk => hlocks ▸ h.held i th key (hrun.1 hr) hk,
      fun i j th th' key hr hr' => h.alone i j th th' key (hrun.1 hr) (hrun.1 hr'), fun key hkey => ?_⟩,
      fun th hth hne => hboot ▸ h.boots th hth hne, fun i th key hr hk hc => hdb ▸ h.clear i th key (hrun.1 hr) hk hc, hdb ▸ h.ids, fun key => hdb ▸ h.single key⟩
    obtain ⟨i, th, hr, hk⟩ := h.owned key (hlocks ▸ hkey)
    exact ⟨i, th, hrun.2 hr, hk⟩
  · have hdead : ∀ {i th key}, Running { p with shared := e.tick p.shared } i th → ¬Holds key th.hist := by
      intro i th key hr hk
      have hne : th.hist ≠ [] := fun hnil => by
        rw [hnil] at hk
        exact hk
      have hle := h.boots th (List.mem_of_getElem? hr.1) hne
      have heq : th.kind.boot = (e.tick p.shared).boot := hr.2
      omega
    refine ⟨⟨fun i th key hr hk => absurd hk (hdead hr), fun i j th th' key hr _ hk => absurd hk (hdead hr), fun key hkey => ?_⟩,
      fun th hth hne => ?_, fun i th key hr hk => absurd hk (hdead hr), hdb ▸ h.ids, fun key => hdb ▸ h.single key⟩
    · rw [show ({ p with shared := e.tick p.shared } : DaemonPool).shared.locks = [] from hlocks] at hkey
      exact absurd hkey List.not_mem_nil
    · show th.kind.boot ≤ (e.tick p.shared).boot
      rw [hboot]
      exact (h.boots th hth hne).trans (Nat.le_succ _)

theorem boot_acted {i : Nat} {k : DaemonThread} {hist : Hist Daemon} {o : DaemonOp} {f : Daemon.Res o → Prog Daemon (Option DaemonThread)} :
    ((daemon host).acted p i k hist o f).shared.boot = p.shared.boot := by
  show (o.exec p.shared).2.boot = _
  rcases exec_cases o p.shared with heq | heq
  · rw [heq]
  · rw [heq]
    exact (run_frame o p.shared).1

/-- A thread after one operation of another, or of its own. -/
theorem running_acted {i : Nat} {k : DaemonThread} {hist : Hist Daemon} {o : DaemonOp} {f : Daemon.Res o → Prog Daemon (Option DaemonThread)}
    (hth : p.threads[i]? = some ⟨k, hist, .op o f⟩) {j : Nat} {th : Thread Daemon DaemonThread} :
    Running ((daemon host).acted p i k hist o f) j th ↔
      (j ≠ i ∧ Running p j th) ∨ (j = i ∧ th = ⟨k, ⟨o, (o.exec p.shared).1⟩ :: hist, f (o.exec p.shared).1⟩ ∧ k.boot = p.shared.boot) := by
  have hi : i < p.threads.length := (List.getElem?_eq_some_iff.1 hth).1
  have hthreads : ((daemon host).acted p i k hist o f).threads =
      p.threads.set i ⟨k, ⟨o, (o.exec p.shared).1⟩ :: hist, f (o.exec p.shared).1⟩ := List.append_nil _
  unfold Running
  rw [boot_acted, hthreads, List.getElem?_set]
  by_cases hji : i = j
  · subst hji
    simp only [if_true, hi, Option.some.injEq, ne_eq, not_true_eq_false, false_and, true_and, false_or]
    constructor
    · rintro ⟨rfl, hk⟩
      exact ⟨rfl, hk⟩
    · rintro ⟨rfl, hk⟩
      exact ⟨rfl, hk⟩
  · simp [hji, Ne.symm hji]

/-- What an operation does to the number of live executions of a repository. -/
theorem liveAt_exec {s : DaemonState} (hids : (s.db.executions.map (·.executionID)).Nodup) (o : DaemonOp) (key : String) :
    ((o.exec s).2.db.executions.map (·.executionID)).Nodup ∧ (liveAt key (o.exec s).2.db ≤ liveAt key s.db ∨
      ∃ newID req, o = .store (.upsertByDispatch newID req) ∧
        liveAt key (o.exec s).2.db = liveAt key s.db + if req.repoLocation = key then 1 else 0) := by
  rcases exec_cases o s with heq | heq
  · rw [heq]
    exact ⟨hids, .inl (le_refl _)⟩
  rw [heq]
  by_cases hstore : ∃ op, o = .store op
  · obtain ⟨op, rfl⟩ := hstore
    rcases StoreCall.serve_cases ⟨op, s.world.now, s.faults⟩ hids with ⟨e, hserve⟩ | ⟨reply, db', hserve, hdoes⟩
    · have hdb : (DaemonOp.run (.store op) s).2.db = s.db := congrArg Prod.snd hserve
      rw [hdb]
      exact ⟨hids, .inl (le_refl _)⟩
    · have hdb : (DaemonOp.run (.store op) s).2.db = db' := congrArg Prod.snd hserve
      rw [hdb]
      refine ⟨ids_does hids hdoes, (liveAt_does hids hdoes).imp_right ?_⟩
      rintro ⟨newID, req, rfl, hcount⟩
      exact ⟨newID, req, rfl, hcount⟩
  · have hdb := (run_frame o s).2.2 fun op heq => hstore ⟨op, heq⟩
    rw [hdb]
    exact ⟨hids, .inl (le_refl _)⟩

section Acted

variable {i : Nat} {k : DaemonThread} {hist : Hist Daemon} {o : DaemonOp} {f : Daemon.Res o → Prog Daemon (Option DaemonThread)}

/-- Rows and what is known of them, over an operation that a goroutine may issue. -/
theorem Exclusive.rows (h : Exclusive p) (hth : p.threads[i]? = some ⟨k, hist, .op o f⟩) (hboot : k.boot = p.shared.boot)
    (hmay : MayIssue hist o) : let p' := (daemon host).acted p i k hist o f
    (∀ j th key, Running p' j th → Holds key th.hist → Cleared key th.hist → liveAt key p'.shared.db = 0) ∧
      (p'.shared.db.executions.map (·.executionID)).Nodup ∧ ∀ key, liveAt key p'.shared.db ≤ 1 := by
  have hrun : Running p i ⟨k, hist, .op o f⟩ := ⟨hth, hboot⟩
  refine ⟨fun j th key hj hk hc => ?_, (liveAt_exec h.ids o "").1, fun key => ?_⟩
  · show liveAt key (o.exec p.shared).2.db = 0
    rcases (running_acted hth).1 hj with ⟨hji, hbefore⟩ | ⟨rfl, rfl, _⟩
    · have hzero := h.clear j th key hbefore hk hc
      rcases (liveAt_exec h.ids o key).2 with hle | ⟨newID, req, rfl, hcount⟩
      · omega
      · -- the other goroutine holds the lock of the repository that the row is made for
        have hne : req.repoLocation ≠ key := by
          rintro rfl
          exact hji (h.alone j i th _ _ hbefore hrun hk hmay.1)
        rw [hcount, if_neg hne, hzero]
    · rcases hc with hsaw | ⟨hkept, hc⟩
      · obtain ⟨rfl, hr⟩ := Event.mk.inj hsaw
        have hdb : (DaemonOp.exec (.hasLiveByRepo key) p.shared).2.db = p.shared.db := by
          rcases exec_cases (.hasLiveByRepo key) p.shared with heq | heq <;> rw [heq]
          rfl
        rw [hdb]
        exact liveAt_of_sawNone (eq_of_heq hr)
      · have hbefore : Holds key hist := by
          rcases hk with hlock | ⟨_, hk⟩
          · exact absurd (.inl hlock) hkept
          · exact hk
        have hzero := h.clear j _ key hrun hbefore hc
        rcases (liveAt_exec h.ids o key).2 with hle | ⟨newID, req, rfl, hcount⟩
        · omega
        · exact absurd (.inr (.inr ⟨newID, req, rfl⟩)) hkept
  · show liveAt key (o.exec p.shared).2.db ≤ 1
    have hone := h.single key
    rcases (liveAt_exec h.ids o key).2 with hle | ⟨newID, req, rfl, hcount⟩
    · omega
    · rw [hcount]
      split
      · rename_i heq
        subst heq
        rw [h.clear i _ _ hrun hmay.1 hmay.2]
      · exact hone

/-- Who holds which lock, over an operation that moves none. -/
theorem Exclusive.lockless (h : Exclusive p) (hth : p.threads[i]? = some ⟨k, hist, .op o f⟩) (hboot : k.boot = p.shared.boot)
    (hlockless : o.Lockless) : Apart ((daemon host).acted p i k hist o f) := by
  set p' := (daemon host).acted p i k hist o f
  have hlocks : p'.shared.locks = p.shared.locks := by
    show (o.exec p.shared).2.locks = _
    rcases exec_cases o p.shared with heq | heq
    · rw [heq]
    · rw [heq]
      exact (run_frame o p.shared).2.1 hlockless
  have hstill : ∀ {r key}, Holds key (⟨o, r⟩ :: hist) ↔ Holds key hist := fun {r key} => holds_grew (Grew.cons hlockless (.refl hist))
  have hback : ∀ {j th key}, Running p' j th → Holds key th.hist → ∃ th₀, Running p j th₀ ∧ Holds key th₀.hist := by
    intro j th key hj hk
    rcases (running_acted hth).1 hj with ⟨_, hj⟩ | ⟨rfl, rfl, _⟩
    · exact ⟨th, hj, hk⟩
    · exact ⟨_, ⟨hth, hboot⟩, hstill.1 hk⟩
  refine ⟨fun j th key hj hk => ?_, fun j j' th th' key hj hj' hk hk' => ?_, fun key hkey => ?_⟩
  · obtain ⟨th₀, hj₀, hk₀⟩ := hback hj hk
    exact hlocks ▸ h.held j th₀ key hj₀ hk₀
  · obtain ⟨th₀, hj₀, hk₀⟩ := hback hj hk
    obtain ⟨th₁, hj₁, hk₁⟩ := hback hj' hk'
    exact h.alone j j' th₀ th₁ key hj₀ hj₁ hk₀ hk₁
  · obtain ⟨j, th, hj, hk⟩ := h.owned key (hlocks ▸ hkey)
    by_cases hji : j = i
    · subst hji
      obtain rfl : ⟨k, hist, .op o f⟩ = th := Option.some.inj (hth.symm.trans hj.1)
      exact ⟨j, _, (running_acted hth).2 (.inr ⟨rfl, rfl, hboot⟩), hstill.2 hk⟩
    · exact ⟨j, th, (running_acted hth).2 (.inl ⟨hji, hj⟩), hk⟩

theorem Exclusive.lock {key₀ : String} {f : Except Panic Unit → Prog Daemon (Option DaemonThread)} (h : Exclusive p)
    (hth : p.threads[i]? = some ⟨k, hist, .op (DaemonOp.lock key₀) f⟩) (hboot : k.boot = p.shared.boot) (hfree : key₀ ∉ p.shared.locks)
    (hidle : Idle hist) : Apart ((daemon host).acted p i k hist (DaemonOp.lock key₀) f) := by
  set p' := (daemon host).acted p i k hist (DaemonOp.lock key₀) f
  have hlocks : p'.shared.locks = key₀ :: p.shared.locks := by
    show ((DaemonOp.lock key₀).exec p.shared).2.locks = _
    simp [DaemonOp.exec, DaemonOp.MayPanic, DaemonOp.run]
  have hnow : ∀ {r key}, Holds key (⟨DaemonOp.lock key₀, r⟩ :: hist) ↔ key = key₀ := by
    intro r key
    refine ⟨(holdsOnly_lock hidle).2 key, ?_⟩
    rintro rfl
    exact .inl rfl
  have hcases : ∀ {j th key}, Running p' j th → Holds key th.hist → (j ≠ i ∧ Running p j th) ∨ j = i ∧ key = key₀ := by
    intro j th key hj hk
    rcases (running_acted hth).1 hj with ⟨hji, hj⟩ | ⟨rfl, rfl, _⟩
    · exact .inl ⟨hji, hj⟩
    · exact .inr ⟨rfl, hnow.1 hk⟩
  refine ⟨fun j th key hj hk => ?_, fun j j' th th' key hj hj' hk hk' => ?_, fun key hkey => ?_⟩
  · rw [hlocks]
    rcases hcases hj hk with ⟨_, hj⟩ | ⟨_, rfl⟩
    · exact List.mem_cons_of_mem _ (h.held j th key hj hk)
    · exact List.mem_cons_self
  · rcases hcases hj hk with ⟨_, hj₀⟩ | ⟨rfl, rfl⟩
    · rcases hcases hj' hk' with ⟨_, hj₁⟩ | ⟨_, rfl⟩
      · exact h.alone j j' th th' key hj₀ hj₁ hk hk'
      · exact absurd (h.held j th _ hj₀ hk) hfree
    · rcases hcases hj' hk' with ⟨_, hj₁⟩ | ⟨rfl, _⟩
      · exact absurd (h.held j' th' _ hj₁ hk') hfree
      · rfl
  · rw [hlocks] at hkey
    rcases List.mem_cons.1 hkey with rfl | hkey
    · exact ⟨i, _, (running_acted hth).2 (.inr ⟨rfl, rfl, hboot⟩), hnow.2 rfl⟩
    · obtain ⟨j, th, hj, hk⟩ := h.owned key hkey
      have hji : j ≠ i := by
        rintro rfl
        obtain rfl : ⟨k, hist, .op (DaemonOp.lock key₀) f⟩ = th := Option.some.inj (hth.symm.trans hj.1)
        exact hidle key hk
      exact ⟨j, th, (running_acted hth).2 (.inl ⟨hji, hj⟩), hk⟩

theorem Exclusive.unlock {key₀ : String} {f : Except Panic Unit → Prog Daemon (Option DaemonThread)} (h : Exclusive p)
    (hth : p.threads[i]? = some ⟨k, hist, .op (DaemonOp.unlock key₀) f⟩) (hboot : k.boot = p.shared.boot) (hholds : Holds key₀ hist) :
    Apart ((daemon host).acted p i k hist (DaemonOp.unlock key₀) f) := by
  set p' := (daemon host).acted p i k hist (DaemonOp.unlock key₀) f
  have hrun : Running p i ⟨k, hist, .op (DaemonOp.unlock key₀) f⟩ := ⟨hth, hboot⟩
  have hlocks : ∀ {key}, key ∈ p'.shared.locks ↔ key ∈ p.shared.locks ∧ key ≠ key₀ := by
    intro key
    show key ∈ ((DaemonOp.unlock key₀).exec p.shared).2.locks ↔ _
    simp [DaemonOp.exec, DaemonOp.MayPanic, DaemonOp.run]
  have hnow : ∀ {r key}, Holds key (⟨DaemonOp.unlock key₀, r⟩ :: hist) ↔ key ≠ key₀ ∧ Holds key hist := by
    intro r key
    constructor
    · rintro (hlock | ⟨hkept, hk⟩)
      · cases hlock
      · exact ⟨fun heq => hkept (heq ▸ rfl), hk⟩
    · rintro ⟨hne, hk⟩
      exact .inr ⟨fun hunlock => hne (DaemonOp.unlock.inj hunlock).symm, hk⟩
  -- who holds a lock now held it before, and it is not the one that was given back
  have hback : ∀ {j th key}, Running p' j th → Holds key th.hist → key ≠ key₀ ∧ ∃ th₀, Running p j th₀ ∧ Holds key th₀.hist := by
    intro j th key hj hk
    rcases (running_acted hth).1 hj with ⟨hji, hbefore⟩ | ⟨rfl, rfl, _⟩
    · refine ⟨?_, th, hbefore, hk⟩
      rintro rfl
      exact hji (h.alone j i th _ _ hbefore hrun hk hholds)
    · exact ⟨(hnow.1 hk).1, _, hrun, (hnow.1 hk).2⟩
  refine ⟨fun j th key hj hk => ?_, fun j j' th th' key hj hj' hk hk' => ?_, fun key hkey => ?_⟩
  · obtain ⟨hne, th₀, hj₀, hk₀⟩ := hback hj hk
    exact hlocks.2 ⟨h.held j th₀ key hj₀ hk₀, hne⟩
  · obtain ⟨_, th₀, hj₀, hk₀⟩ := hback hj hk
    obtain ⟨_, th₁, hj₁, hk₁⟩ := hback hj' hk'
    exact h.alone j j' th₀ th₁ key hj₀ hj₁ hk₀ hk₁
  · obtain ⟨hlocked, hne⟩ := hlocks.1 hkey
    obtain ⟨j, th, hj, hk⟩ := h.owned key hlocked
    by_cases hji : j = i
    · subst hji
      obtain rfl : ⟨k, hist, .op (DaemonOp.unlock key₀) f⟩ = th := Option.some.inj (hth.symm.trans hj.1)
      exact ⟨j, _, (running_acted hth).2 (.inr ⟨rfl, rfl, hboot⟩), hnow.2 ⟨hne, hk⟩⟩
    · exact ⟨j, th, (running_acted hth).2 (.inl ⟨hji, hj⟩), hk⟩

theorem Exclusive.acted (h : Exclusive p) (hth : p.threads[i]? = some ⟨k, hist, .op o f⟩) (hboot : k.boot = p.shared.boot)
    (hfree : ∀ key, o = .lock key → key ∉ p.shared.locks) (hmay : MayIssue hist o) : Exclusive ((daemon host).acted p i k hist o f) := by
  obtain ⟨hclear, hids, hsingle⟩ := h.rows hth hboot hmay
  have hboots : ∀ th ∈ ((daemon host).acted p i k hist o f).threads, th.hist ≠ [] →
      th.kind.boot ≤ ((daemon host).acted p i k hist o f).shared.boot := by
    intro th hmem hne
    rw [boot_acted]
    rw [show ((daemon host).acted p i k hist o f).threads = p.threads.set i _ from List.append_nil _] at hmem
    rcases List.mem_or_eq_of_mem_set hmem with hmem | rfl
    · exact h.boots th hmem hne
    · exact hboot.le
  refine ⟨?_, hboots, hclear, hids, hsingle⟩
  by_cases hlockless : o.Lockless
  · exact h.lockless hth hboot hlockless
  · cases o with
    | lock key => exact h.lock hth hboot (hfree key rfl) hmay
    | unlock key => exact h.unlock hth hboot hmay
    | _ => exact absurd trivial hlockless

end Acted

theorem exclusive_of_reach (hr : (daemon host).Reach NothingLive Scheduled p) : Exclusive p := by
  refine hr.invariant (fun s hs => .init hs) fun p p' l hp ih hok hst => ?_
  rcases (daemon host).step_cases hst with ⟨k, rfl, rfl⟩ | ⟨e, rfl, rfl⟩ | ⟨i, k, hist, k', rfl, hth, rfl⟩ | ⟨i, k, hist, o, f, rfl, hth, rfl⟩
  · exact ih.spawn k
  · exact ih.tick e
  · -- a round that begins has no history
    have hnil : hist = [] := (admissionContract host).keeps_of_reach hp _ (List.mem_of_getElem? hth)
    refine ih.threads (fun j th hj hne => ?_) fun j th hj => ?_
    · rw [List.getElem?_set]
      split
      · rename_i hij
        subst hij
        obtain rfl : ⟨k, hist, .pure (some k')⟩ = th := Option.some.inj (hth.symm.trans hj)
        exact absurd hnil hne
      · exact hj
    · rw [List.getElem?_set] at hj
      split at hj
      · split at hj
        · obtain rfl := Option.some.inj hj
          exact .inl hnil
        · cases hj
      · exact .inr hj
  · obtain ⟨hboot, hfree⟩ := hok k hist o f hth
    exact ih.acted hth hboot hfree ((admissionContract host).ok_of_reach hp hth)

end Exclusive

/-! ## Runs of an admission -/

section Runs

variable {α β : Type} {l : Hist Daemon}

theorem run_perform_bind {o : DaemonOp} {f : o.Answer → Go α} {b : Except Panic α} : Run (perform o >>= f).run l b ↔
    ∃ (r : Except Panic o.Answer) (l₂ : Hist Daemon), l = l₂ ++ [⟨o, r⟩] ∧ match r with
      | .ok a => Run (f a).run l₂ b
      | .error e => l₂ = [] ∧ b = .error e := by
  refine (run_call_bind (I := Daemon)).trans ⟨?_, ?_⟩
  · rintro ⟨r, l₂, hrun, rfl⟩
    refine ⟨r, l₂, rfl, ?_⟩
    cases r with
    | ok a => exact hrun
    | error e => exact hrun
  · rintro ⟨r, l₂, rfl, hrun⟩
    refine ⟨r, l₂, ?_, rfl⟩
    cases r with
    | ok a => exact hrun
    | error e => exact hrun

theorem run_bindE {p : Go β} {f : β → Go α} {b : Except Panic α} : Run (p >>= f).run l b ↔
    (∃ e, Run p.run l (.error e) ∧ b = .error e) ∨ ∃ l₁ a l₂, Run p.run l₁ (.ok a) ∧ Run (f a).run l₂ b ∧ l = l₂ ++ l₁ := by
  refine (run_bind (I := Daemon)).trans ⟨?_, ?_⟩
  · rintro ⟨l₁, r, l₂, hp, hf, rfl⟩
    cases r with
    | ok a => exact .inr ⟨l₁, a, l₂, hp, hf, rfl⟩
    | error e =>
      obtain ⟨rfl, rfl⟩ := hf
      exact .inl ⟨e, hp, rfl⟩
  · rintro (⟨e, hp, rfl⟩ | ⟨l₁, a, l₂, hp, hf, rfl⟩)
    · exact ⟨l, .error e, [], hp, ⟨rfl, rfl⟩, rfl⟩
    · exact ⟨l₁, .ok a, l₂, hp, hf, rfl⟩

theorem run_locked {key : String} {body : Go α} {b : Except Panic α} : Run (locked key body).run l b ↔
    ∃ u u' l₂, Run body.run l₂ b ∧ l = ⟨DaemonOp.unlock key, u'⟩ :: l₂ ++ [⟨DaemonOp.lock key, u⟩] := by
  refine (run_call_bind (I := Daemon)).trans ⟨?_, ?_⟩
  · rintro ⟨u, l₁, hrun, rfl⟩
    obtain ⟨l₂, r, l₃, hbody, hrest, rfl⟩ := run_bind.1 hrun
    obtain ⟨u', l₄, ⟨rfl, rfl⟩, rfl⟩ := (run_call_bind (I := Daemon)).1 hrest
    exact ⟨u, u', l₂, hbody, rfl⟩
  · rintro ⟨u, u', l₂, hbody, rfl⟩
    refine ⟨u, ⟨DaemonOp.unlock key, u'⟩ :: l₂, run_bind.2 ⟨l₂, b, [⟨DaemonOp.unlock key, u'⟩], hbody, ?_, rfl⟩, rfl⟩
    exact (run_call_bind (I := Daemon)).2 ⟨u', [], ⟨rfl, rfl⟩, rfl⟩

/-- The looks at a repository before it is admitted. -/
def DaemonOp.Inspects (canonical : String) : DaemonOp → Prop
  | .hasLiveByRepo key | .revParse key | .porcelain key => key = canonical
  | _ => False

theorem only_inspect {canonical : String} : OnlyE (I := Daemon) (DaemonOp.Inspects canonical) (inspect canonical) := by
  refine onlyE_bind (onlyE_perform rfl) fun live => ?_
  rcases live with e | _ | _
  · exact onlyE_pure _
  · exact only_snapshot rfl rfl
  · exact onlyE_pure _

/-- No value, but an error or a panic. -/
def Refused (r : Except Panic (Except AcceptError α)) : Prop := ∀ a, r ≠ .ok (.ok a)

/-- What a run of an admission with `fn` under the lock can have done: it was refused before the lock was taken; or under
the lock, which was given back; or admitted, and then `fn` ran under the lock, which was given back however it ended. -/
inductive Critical (repoLocation : String) (fn : Admission → Go (Except AcceptError α)) :
    Hist Daemon → Except Panic (Except AcceptError α) → Prop where
  | unresolved (answer : Except Panic (Except String String)) (r : Except Panic (Except AcceptError α)) (hrefused : Refused r) :
      Critical repoLocation fn [⟨DaemonOp.canonicalize repoLocation, answer⟩] r
  | refused (canonical : String) (u u' : Except Panic Unit) (inspection : Hist Daemon) (hinspects : ∀ ev ∈ inspection, DaemonOp.Inspects canonical ev.op)
      (r : Except Panic (Except AcceptError α)) (hrefused : Refused r) :
      Critical repoLocation fn (⟨DaemonOp.unlock canonical, u'⟩ :: (inspection ++ [⟨DaemonOp.lock canonical, u⟩,
        ⟨DaemonOp.canonicalize repoLocation, (.ok (.ok canonical) : Except Panic (Except String String))⟩])) r
  | admitted (canonical : String) (u u' : Except Panic Unit) (adm : Admission) (inspection critical : Hist Daemon)
      (r : Except Panic (Except AcceptError α)) (hlooked : Run (inspect canonical).run inspection (.ok (.ok adm)))
      (hfn : Run (fn adm).run critical r) :
      Critical repoLocation fn (⟨DaemonOp.unlock canonical, u'⟩ :: (critical ++ inspection ++ [⟨DaemonOp.lock canonical, u⟩,
        ⟨DaemonOp.canonicalize repoLocation, (.ok (.ok canonical) : Except Panic (Except String String))⟩])) r

theorem critical_of_run {repoLocation : String} {fn : Admission → Go (Except AcceptError α)} {r : Except Panic (Except AcceptError α)}
    (h : Run (withRepoLock repoLocation fn).run l r) : Critical repoLocation fn l r := by
  obtain ⟨answer, l₁, rfl, hrest⟩ := run_perform_bind.1 h
  rcases answer with e | err | canonical
  · obtain ⟨rfl, rfl⟩ := hrest
    exact .unresolved _ _ nofun
  · obtain ⟨rfl, rfl⟩ := hrest
    exact .unresolved _ _ nofun
  · obtain ⟨u, u', l₂, hbody, rfl⟩ := run_locked.1 hrest
    rw [List.cons_append, List.cons_append, List.append_assoc]
    rcases run_bindE.1 hbody with ⟨e, hlooked, rfl⟩ | ⟨inspection, admitted, critical, hlooked, hfn, rfl⟩
    · have hinspects := hlooked.only only_inspect
      exact .refused canonical u u' l₂ hinspects (.error e) nofun
    · have hinspects := hlooked.only only_inspect
      cases admitted with
      | error e =>
        obtain ⟨rfl, rfl⟩ := hfn
        exact .refused canonical u u' inspection hinspects (.ok (.error e)) nofun
      | ok adm =>
        exact .admitted canonical u u' adm inspection critical r hlooked hfn

end Runs

/-! ## One live execution in a repository -/

/-- A goroutine that still has something to do. -/
def Unfinished (th : Thread Daemon DaemonThread) : Prop := th.rest ≠ .pure none

/-- From a store in which nothing lives, over every interleaving there is at most one live execution in a repository; a lock
is held only by a goroutine that goes on; and an admission runs its function just where it is admitted, under the lock,
which it gives back. -/
theorem oneLive_of_reach {host : Host} {p : DaemonPool} (hr : (daemon host).Reach NothingLive Scheduled p) :
    (∀ key, liveAt key p.shared.db ≤ 1) ∧
      (∀ key ∈ p.shared.locks, ∃ i th, Running p i th ∧ Unfinished th ∧ Holds key th.hist) ∧
        ∀ (α : Type) (repoLocation : String) (fn : Admission → Go (Except AcceptError α)) (l : Hist Daemon) (r : Except Panic (Except AcceptError α)),
          Run (withRepoLock repoLocation fn).run l r → Critical repoLocation fn l r := by
  have hexclusive := exclusive_of_reach hr
  refine ⟨hexclusive.single, fun key hkey => ?_, fun α repoLocation fn l r => critical_of_run⟩
  obtain ⟨i, th, hrun, hholds⟩ := hexclusive.owned key hkey
  refine ⟨i, th, hrun, fun hfin => ?_, hholds⟩
  exact (admissionContract host).fin_of_reach hr (List.mem_of_getElem? hrun.1) hfin key hholds

/-! ## Two dispatches of one repository -/

def quietWorld : World where
  canonicalize := .ok
  revParse _ := .ok "abc"
  porcelain _ := .ok ""
  gitDiff _ _ := .ok ⟨0, 0, 0⟩
  newID := "exc_1"
  config := ⟨"token", 7860, "127.0.0.1"⟩
  now := 0
  tmuxFails := none
  tokenFails := none
  statementFails _ := false
  ploom := .answered
  panics := false

def freshDaemon : DaemonState := ⟨0, noTables, [], [], 0, [], ⟨[], [], [], []⟩, quietWorld⟩

def anyHost : Host := ⟨.workspaceWrite, "host", fun _ => "error"⟩

def dispatchOf (dispatchID : String) : LaunchRequest := ⟨dispatchID, "/repo", "", "fix", "ask"⟩

/-- The first dispatch has its row and the lock, and the second has found its repository. -/
def twoDispatches : List (Label DaemonThread DaemonEvent) :=
  [.spawn ⟨0, .consume 0 (dispatchOf "d1")⟩, .spawn ⟨0, .consume 0 (dispatchOf "d2")⟩, .act 1, .act 0, .act 0, .act 0, .act 0, .act 0, .act 0, .act 0]

theorem oneLive_of_reach_twoDispatches : ∃ p : DaemonPool, liveAt "/repo" p.shared.db = 1 ∧ (∀ key, liveAt key p.shared.db ≤ 1) ∧
    (∀ key ∈ p.shared.locks, ∃ i th, Running p i th ∧ Unfinished th ∧ Holds key th.hist) ∧
      ∀ (α : Type) (repoLocation : String) (fn : Admission → Go (Except AcceptError α)) (l : Hist Daemon) (r : Except Panic (Except AcceptError α)),
        Run (withRepoLock repoLocation fn).run l r → Critical repoLocation fn l r := by
  have hplay : ((((daemon anyHost).play scheduledB twoDispatches ⟨freshDaemon, [], []⟩).map fun p => liveAt "/repo" p.shared.db)) = some 1 := by
    decide +kernel
  obtain ⟨p, hp, hone⟩ := Option.map_eq_some_iff.1 hplay
  have hinit : NothingLive freshDaemon := ⟨List.nodup_nil, fun r hr => absurd hr List.not_mem_nil, rfl⟩
  exact ⟨p, hone, oneLive_of_reach (Sys.reach_of_play (fun _ _ => scheduled_of_scheduledB) (.init hinit) hp)⟩

end Purdex.Runtime
