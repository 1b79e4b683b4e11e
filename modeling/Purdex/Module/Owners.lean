/-
Whose pane it is: the query for the root frames of a pane walks up from every frame whose process is still its
own, and keeps those that come to init past no other live frame, with the pane's process on the way.
-/
import Purdex.Module.AncestorAgree
import Purdex.Module.FrameOps
import Purdex.Runtime.Daemon
import Mathlib

namespace Purdex.Module

open Purdex.Agent Purdex.Store Purdex.Runtime Conc

/-! ## The query -/

structure PaneOwner where
  frameID : String
  agentType : String
  sessionID : String
  cwd : String
  tmuxPaneID : String
  lastSeenAt : Int
  deriving DecidableEq, Repr

def paneOwner (frame : Frame) : PaneOwner where
  frameID := frame.frameID
  agentType := frame.agentType
  sessionID := frame.sessionID
  cwd := frame.cwd
  tmuxPaneID := frame.paneID
  lastSeenAt := frame.lastSeenAt

section Query

variable (ctx : Int → Option Err)

/-- `ctx.Err()`, by the time it is asked at. -/
def contextErr : Quiet (Option Err) := do
  return ctx (← now)

def ctxGuardedReader (pid : Int) : Quiet (Except Err ProcessInfo) := do
  match ← contextErr ctx with
  | some e => return .error e
  | none => readProcessInfo pid

/-- Alive, with the start time it was stored with. -/
def survives (frame : Frame) : Quiet Bool := do
  if ← isPidAlive frame.pid then
    match ← processStartTime frame.pid with
    | .error _ => return false
    | .ok actualStart => return trimSpace actualStart = trimSpace frame.processStartTime
  else
    return false

def survivorsOf : List Frame → Quiet (Except Err (List Frame))
  | [] => return .ok []
  | frame :: frames => do
    match ← contextErr ctx with
    | some e => return .error e
    | none =>
      let keep ← survives frame
      match ← survivorsOf frames with
      | .error e => return .error e
      | .ok survivors => return .ok (if keep then frame :: survivors else survivors)

/-- The walks of the survivors, with the owners found so far; what ends them early is returned beside these. -/
def ownersFrom (paneID : String) (panePID : Int) : List Frame → List PaneOwner → Quiet (List PaneOwner × Option Err)
  | [], owners => do
    return (owners, ← contextErr ctx)
  | frame :: frames, owners => do
    match ← contextErr ctx with
    | some e => return (owners, some e)
    | none =>
      match ← ctxGuardedReader ctx frame.pid with
      | .error _ => ownersFrom paneID panePID frames owners
      | .ok info =>
        match ← (walkPaneAncestry paneID info.ppid frame.agentType (ctxGuardedReader ctx) ⟨panePID, true⟩).run with
        | .error e => return (owners, some e)
        | .ok res =>
          -- a deadline that passed during the walk shows in it as a process that cannot be read
          match ← contextErr ctx with
          | some e => return (owners, some e)
          | none =>
            if res.verdict = .root ∧ (frame.pid = panePID ∨ res.sawPanePID = true) then
              ownersFrom paneID panePID frames (owners ++ [paneOwner frame])
            else ownersFrom paneID panePID frames owners

def resolvePaneOwners (resolvePanePID : String → Except Err Int) (paneID : String) :
    Quiet (List PaneOwner × Option Err) := do
  match resolvePanePID paneID with
  | .error _ => return ([], none)
  | .ok panePID =>
    match ← (listByPane paneID).run with
    | .error e => return ([], some e)
    | .ok frames =>
      match ← survivorsOf ctx frames with
      | .error e => return ([], some e)
      | .ok survivors => ownersFrom ctx paneID panePID survivors []

end Query

/-! ## A pane that stands still -/

/-- Every operation is answered from the state as it stands; the clock alone goes on, by the count of operations. -/
def frozen (cfg : Config) (s : State) (clock : Nat → Int) : (o : Op) → Nat → o.Res × Nat
  | .now, n => (clock n, n + 1)
  | o, n => ((exec cfg o s).1, n + 1)

/-- A context that is done stays done. -/
def StaysDone (ctx : Int → Option Err) : Prop :=
  ∀ t t', t ≤ t' → ctx t ≠ none → ctx t' ≠ none

/-! ## Ancestors -/

section Ancestors

variable {env : Env}

/-- The parents of a process up to init, each of them read. -/
inductive Chain (env : Env) : Int → List Int → Prop where
  | init (pid : Int) (info : ProcessInfo) : env.processInfo pid = .ok info → info.ppid ≤ 1 → Chain env pid [info.ppid]
  | up (pid : Int) (info : ProcessInfo) (chain : List Int) : env.processInfo pid = .ok info → 1 < info.ppid →
      Chain env info.ppid chain → Chain env pid (info.ppid :: chain)

/-- A process above another, init at most. -/
inductive Above (env : Env) (ancestor : Int) : Int → Prop where
  | parent (pid : Int) (info : ProcessInfo) : env.processInfo pid = .ok info → info.ppid = ancestor → Above env ancestor pid
  | up (pid : Int) (info : ProcessInfo) : env.processInfo pid = .ok info → 1 < info.ppid → Above env ancestor info.ppid →
      Above env ancestor pid

/-- The walk comes to init from here, past stale frames alone. -/
def Rooted (env : Env) (frameAt : Int → Option Frame) : Nat → Int → Prop
  | 0, _ => False
  | depth + 1, ppid => ppid ≤ 1 ∨ (∀ f, frameAt ppid = some f → env.Stale f) ∧
      ∃ info, env.processInfo ppid = .ok info ∧ info.ppid ≠ ppid ∧ Rooted env frameAt depth info.ppid

/-- The walk comes by the pane's process. -/
def Seen (env : Env) (panePID : Int) : Nat → Int → Prop
  | 0, _ => False
  | depth + 1, ppid => ppid = panePID ∨ 1 < ppid ∧ ∃ info, env.processInfo ppid = .ok info ∧ Seen env panePID depth info.ppid

theorem above_of_seen {panePID : Int} : ∀ {depth : Nat} {ppid : Int}, Seen env panePID depth ppid →
    ppid = panePID ∨ 1 < ppid ∧ Above env panePID ppid
  | 0, _, h => h.elim
  | _ + 1, _, .inl h => .inl h
  | _ + 1, _, .inr ⟨hreal, info, hinfo, h⟩ => .inr ⟨hreal, match above_of_seen h with
    | .inl heq => .parent _ info hinfo heq
    | .inr ⟨hup, habove⟩ => .up _ info hinfo hup habove⟩

/-- Above where a walk comes to init there are stale frames alone. -/
theorem Rooted.stale {frameAt : Int → Option Frame} : ∀ {depth : Nat} {ppid pid : Int}, Rooted env frameAt depth ppid →
    ppid = pid ∨ 1 < ppid ∧ Above env pid ppid → 1 < pid → ∀ f, frameAt pid = some f → env.Stale f
  | 0, _, _, h, _, _, _, _ => h.elim
  | depth + 1, ppid, pid, h, hup, hreal, f, hf => by
    have hnot : ¬ ppid ≤ 1 := by
      rcases hup with rfl | ⟨hup, -⟩
      · omega
      · omega
    rcases h with hinit | ⟨hclear, info, hinfo, -, h⟩
    · exact absurd hinit hnot
    · rcases hup with rfl | ⟨-, habove⟩
      · exact hclear f hf
      · refine h.stale ?_ hreal f hf
        cases habove with
        | parent _ info' hinfo' heq =>
          obtain rfl := Except.ok.inj (hinfo.symm.trans hinfo')
          exact .inl heq
        | up _ info' hinfo' hup habove =>
          obtain rfl := Except.ok.inj (hinfo.symm.trans hinfo')
          exact .inr ⟨hup, habove⟩

/-- A process that is its own parent has no chain. -/
theorem Chain.ne_self {pid : Int} {chain : List Int} (h : Chain env pid chain) : 1 < pid →
    ∀ info, env.processInfo pid = .ok info → info.ppid ≠ pid := by
  induction h with
  | init pid info hinfo hinit =>
    intro hreal info' hinfo' heq
    obtain rfl := Except.ok.inj (hinfo.symm.trans hinfo')
    omega
  | up pid info chain hinfo hup _ ih =>
    intro hreal info' hinfo' heq
    obtain rfl := Except.ok.inj (hinfo.symm.trans hinfo')
    exact ih hup info (by rw [heq]; exact hinfo) rfl

/-- A chain short enough, with stale frames alone on it, is walked to its end. -/
theorem Chain.rooted {frameAt : Int → Option Frame} {pid : Int} {chain : List Int} (h : Chain env pid chain) :
    ∀ depth, chain.length ≤ depth → (∀ p ∈ chain, ∀ f, frameAt p = some f → env.Stale f) →
      ∀ info, env.processInfo pid = .ok info → Rooted env frameAt depth info.ppid := by
  induction h with
  | init pid info hinfo hinit =>
    intro depth hdepth _ info' hinfo'
    obtain rfl := Except.ok.inj (hinfo.symm.trans hinfo')
    cases depth with
    | zero => simp at hdepth
    | succ depth => exact .inl hinit
  | up pid info chain hinfo hup hchain ih =>
    intro depth hdepth hstale info' hinfo'
    obtain rfl := Except.ok.inj (hinfo.symm.trans hinfo')
    cases depth with
    | zero => simp at hdepth
    | succ depth =>
      have hnext : ∃ next, env.processInfo info.ppid = .ok next := by
        cases hchain with
        | init _ next hnext _ => exact ⟨next, hnext⟩
        | up _ next _ hnext _ _ => exact ⟨next, hnext⟩
      obtain ⟨next, hnext⟩ := hnext
      refine .inr ⟨hstale _ (by simp), next, hnext, hchain.ne_self hup next hnext, ?_⟩
      exact ih depth (by simpa using hdepth) (fun p hp => hstale p (by simp [hp])) next hnext

theorem Chain.seen {pid panePID : Int} {chain : List Int} (h : Chain env pid chain) (hmem : panePID ∈ chain) :
    ∀ depth, chain.length ≤ depth → ∀ info, env.processInfo pid = .ok info → Seen env panePID depth info.ppid := by
  induction h with
  | init pid info hinfo hinit =>
    intro depth hdepth info' hinfo'
    obtain rfl := Except.ok.inj (hinfo.symm.trans hinfo')
    cases depth with
    | zero => simp at hdepth
    | succ depth => exact .inl (List.mem_singleton.1 hmem).symm
  | up pid info chain hinfo hup hchain ih =>
    intro depth hdepth info' hinfo'
    obtain rfl := Except.ok.inj (hinfo.symm.trans hinfo')
    cases depth with
    | zero => simp at hdepth
    | succ depth =>
      rcases List.mem_cons.1 hmem with rfl | hmem
      · exact .inl rfl
      · have hnext : ∃ next, env.processInfo info.ppid = .ok next := by
          cases hchain with
          | init _ next hnext _ => exact ⟨next, hnext⟩
          | up _ next _ hnext _ _ => exact ⟨next, hnext⟩
        obtain ⟨next, hnext⟩ := hnext
        exact .inr ⟨hup, next, hnext, ih hmem depth (by simpa using hdepth) next hnext⟩

end Ancestors

/-! ## What each part of the query answers -/

section Still

variable {cfg : Config} {s : State} {ctx : Int → Option Err} {h : Hist iface}

/-- The pane and the processes stand still; the clock may say anything. -/
def stillSpec (cfg : Config) (s : State) : Spec iface where
  ans o r := o ≠ .now → r = (exec cfg o s).1
  ok _ _ := True

/-- The context was not done at any time it was asked. -/
def Calm (ctx : Int → Option Err) (h : Hist iface) : Prop :=
  ∀ t : Int, (⟨.now, t⟩ : Event iface) ∈ h → ctx t = none

theorem Calm.suffix {h h' : Hist iface} (hc : Calm ctx h') (hs : h <:+ h') : Calm ctx h :=
  fun t ht => hc t (hs.subset ht)

theorem contextErr_still : wp (stillSpec cfg s) (contextErr ctx) (fun h' e => ∃ t : Int, h' = ⟨.now, t⟩ :: h ∧ e = ctx t) h :=
  wp_call_seq trivial fun t _ => ⟨t, rfl, rfl⟩

theorem readProcessInfo_still (pid : Int) :
    wp (stillSpec cfg s) (readProcessInfo pid) (fun _ r => r = s.env.processInfo pid) h :=
  ⟨trivial, fun _ hans => hans nofun⟩

theorem ctxGuardedReader_still (pid : Int) : wp (stillSpec cfg s) (ctxGuardedReader ctx pid) (fun h' r =>
    (∀ info, r = .ok info → s.env.processInfo pid = .ok info) ∧ (Calm ctx h' → r = s.env.processInfo pid)) h := by
  refine wp_seq contextErr_still fun h₁ e _ he => ?_
  obtain ⟨t, rfl, rfl⟩ := he
  split
  · next e hdone =>
    refine ⟨nofun, fun hcalm => ?_⟩
    exact absurd ((hcalm t (by simp)).symm.trans hdone) nofun
  · exact wp_mono _ (readProcessInfo_still pid) fun _ r _ hr => ⟨fun info heq => hr.symm.trans heq, fun _ => hr⟩

theorem identityGate_still (pid : Int) (startTime : String) :
    wp (stillSpec cfg s) (identityGate pid startTime) (fun _ gate => gate = s.env.gate pid startTime) h := by
  refine wp_call_seq trivial fun alive halive => ?_
  obtain rfl : alive = s.env.isPidAlive pid := halive nofun
  unfold Env.gate
  split
  · refine wp_call_seq trivial fun start hstart => ?_
    obtain rfl : start = s.env.processStartTime pid := hstart nofun
    cases s.env.processStartTime pid <;> rfl
  · rfl

theorem frameGate_still : ∀ frame : Option Frame, wp (stillSpec cfg s) (frameGate frame)
    (fun _ gate => gate = (frame.map s.env.frameGate).getD .dead) h
  | none => rfl
  | some f => identityGate_still f.pid f.processStartTime

theorem findByPanePID_still (paneID : String) (pid : Int) : wpE (stillSpec cfg s) (findByPanePID paneID pid)
    (fun _ found => found = selectByPanePID s.table paneID pid) (fun _ _ => True) h := by
  refine ⟨trivial, fun found hans => ?_⟩
  obtain rfl : found = (s.query (selectByPanePID · paneID pid)).1 := hans nofun
  unfold State.query
  cases s.env.dbFault with
  | some e => exact trivial
  | none => exact rfl

theorem listByPane_still (paneID : String) : wpE (stillSpec cfg s) (listByPane paneID)
    (fun _ frames => frames = selectByPane s.table paneID) (fun _ _ => True) h := by
  refine ⟨trivial, fun frames hans => ?_⟩
  obtain rfl : frames = (s.query (selectByPane · paneID)).1 := hans nofun
  unfold State.query
  cases s.env.dbFault with
  | some e => exact trivial
  | none => exact rfl

/-- What a walk that ended says of a chain: no more than it shows, and all of it where the context held out. -/
def WalkSays (env : Env) (frameAt : Int → Option Frame) (ctx : Int → Option Err) (panePID : Int) (depth : Nat) (ppid : Int)
    (saw : Bool) (h : Hist iface) (res : AncestryResult) : Prop :=
  (res.verdict = .root → Rooted env frameAt depth ppid) ∧
    (res.sawPanePID = true → saw = true ∨ Seen env panePID depth ppid) ∧
    (Calm ctx h → Rooted env frameAt depth ppid →
      res.verdict = .root ∧ (saw = true ∨ Seen env panePID depth ppid → res.sawPanePID = true))

section Says

variable {env : Env} {frameAt : Int → Option Frame} {panePID ppid : Int} {depth : Nat} {saw : Bool} {res : AncestryResult}

/-- A walk that stops short of init is right when the chain does not come there. -/
theorem WalkSays.stopped (hverdict : res.verdict ≠ .root) (hsaw : res.sawPanePID = true → saw = true ∨ ppid = panePID)
    (hnot : Calm ctx h → ¬ Rooted env frameAt (depth + 1) ppid) :
    WalkSays env frameAt ctx panePID (depth + 1) ppid saw h res :=
  ⟨fun heq => absurd heq hverdict, fun heq => (hsaw heq).imp id .inl, fun hcalm hroot => absurd hroot (hnot hcalm)⟩

theorem WalkSays.climbed {saw' : Bool} {info : ProcessInfo} (hreal : 1 < ppid) (hsaw : saw' = true ↔ saw = true ∨ ppid = panePID)
    (hclear : ∀ f, frameAt ppid = some f → env.Stale f) (hinfo : env.processInfo ppid = .ok info) (hself : info.ppid ≠ ppid)
    (htold : WalkSays env frameAt ctx panePID depth info.ppid saw' h res) :
    WalkSays env frameAt ctx panePID (depth + 1) ppid saw h res := by
  obtain ⟨hroot, hseen, hall⟩ := htold
  refine ⟨fun heq => .inr ⟨hclear, info, hinfo, hself, hroot heq⟩, fun heq => ?_, fun hcalm hrooted => ?_⟩
  · rcases hseen heq with hsaw' | hup
    · exact (hsaw.1 hsaw').imp id .inl
    · exact .inr (.inr ⟨hreal, info, hinfo, hup⟩)
  · rcases hrooted with hinit | ⟨-, info', hinfo', -, hrooted⟩
    · omega
    · obtain rfl := Except.ok.inj (hinfo.symm.trans hinfo')
      obtain ⟨hverdict, hsawn⟩ := hall hcalm hrooted
      refine ⟨hverdict, fun hor => hsawn ?_⟩
      rcases hor with hs | heq | ⟨-, info', hinfo', hup⟩
      · exact .inl (hsaw.2 (.inl hs))
      · exact .inl (hsaw.2 (.inr heq))
      · obtain rfl := Except.ok.inj (hinfo.symm.trans hinfo')
        exact .inr hup

end Says

theorem walkFrom_still (paneID agentType : String) (panePID : Int) : ∀ (depth : Nat) (ppid : Int) (saw : Bool) (h : Hist iface),
    wpE (stillSpec cfg s) (walkFrom paneID agentType (ctxGuardedReader ctx) ⟨panePID, true⟩ depth ppid saw)
      (WalkSays s.env (selectByPanePID s.table paneID) ctx panePID depth ppid saw) (fun _ _ => True) h
  | 0, _, _, _ => ⟨nofun, .inl, fun _ h => h.elim⟩
  | depth + 1, ppid, saw, h => by
    unfold walkFrom
    dsimp only
    generalize hsaw' : (saw || (true && ppid == panePID)) = saw'
    have hsaw : saw' = true ↔ saw = true ∨ ppid = panePID := by
      rw [← hsaw']
      simp
    by_cases hinit : ppid ≤ 1
    · rw [if_pos hinit]
      refine ⟨fun _ => .inl hinit, fun heq => (hsaw.1 heq).imp id .inl, fun _ _ => ⟨rfl, fun hor => hsaw.2 ?_⟩⟩
      rcases hor with hs | heq | ⟨hreal, -⟩
      · exact .inl hs
      · exact .inr heq
      · omega
    · rw [if_neg hinit]
      have hreal : 1 < ppid := by omega
      have hclimb : (∀ f, selectByPanePID s.table paneID ppid = some f → s.env.Stale f) → ∀ h : Hist iface,
          wpE (stillSpec cfg s) (do
            match ← quiet (ctxGuardedReader ctx ppid) with
            | .error _ => return ⟨.indeterminate, none, saw'⟩
            | .ok info =>
              if info.ppid = ppid then
                return ⟨.indeterminate, none, saw'⟩
              walkFrom paneID agentType (ctxGuardedReader ctx) ⟨panePID, true⟩ depth info.ppid saw')
            (WalkSays s.env (selectByPanePID s.table paneID) ctx panePID (depth + 1) ppid saw) (fun _ _ => True) h := by
        intro hclear h
        refine wpE_seq ((wpE_lift _).2 (ctxGuardedReader_still ppid)) fun h₁ r _ hr => ?_
        cases r with
        | error e =>
          refine .stopped nofun hsaw.1 fun hcalm hroot => ?_
          rcases hroot with hle | ⟨-, info, hinfo, -⟩
          · omega
          · cases (hr.2 hcalm).trans hinfo
        | ok info =>
          have hinfo := hr.1 info rfl
          by_cases hself : info.ppid = ppid
          · simp only [hself, if_true]
            refine .stopped nofun hsaw.1 fun _ hroot => ?_
            rcases hroot with hle | ⟨-, info', hinfo', hne, -⟩
            · omega
            · obtain rfl := Except.ok.inj (hinfo.symm.trans hinfo')
              exact hne hself
          · simp only [hself, if_false]
            exact wpE_mono _ (walkFrom_still paneID agentType panePID depth info.ppid saw' h₁)
              (fun _ _ _ htold => htold.climbed hreal hsaw hclear hinfo hself) fun _ _ _ _ => trivial
      refine wpE_seq (findByPanePID_still paneID ppid) fun h₁ found _ hfound => ?_
      subst hfound
      refine wpE_seq ((wpE_lift _).2 (frameGate_still _)) fun h₂ gate _ hgate => ?_
      subst hgate
      cases hf : selectByPanePID s.table paneID ppid with
      | none => exact hclimb (fun f hf' => by cases hf.symm.trans hf') h₂
      | some f =>
        have hnot : ¬ s.env.Stale f → ¬ Rooted s.env (selectByPanePID s.table paneID) (depth + 1) ppid := by
          rintro hstale (hle | ⟨hclear, -⟩)
          · omega
          · exact hstale (hclear f hf)
        simp only [Option.map_some, Option.getD_some]
        cases hg : s.env.frameGate f with
        | live =>
          refine .stopped ?_ hsaw.1 fun _ => hnot ?_
          · by_cases htype : f.agentType = agentType <;> simp [htype]
          · simp [Env.Stale, hg]
        | unreadable => exact .stopped nofun hsaw.1 fun _ => hnot (by simp [Env.Stale, hg])
        | dead => exact hclimb (fun f' hf' => Option.some.inj (hf.symm.trans hf') ▸ .inl hg) h₂
        | reused => exact hclimb (fun f' hf' => Option.some.inj (hf.symm.trans hf') ▸ .inr hg) h₂

theorem walkPaneAncestry_still (paneID agentType : String) (panePID startPID : Int) : wp (stillSpec cfg s)
    (walkPaneAncestry paneID startPID agentType (ctxGuardedReader ctx) ⟨panePID, true⟩).run (fun h' res => ∀ r, res = .ok r →
      WalkSays s.env (selectByPanePID s.table paneID) ctx panePID proxyMaxDepth startPID false h' r) h := by
  refine (wp_run _ _).2 (wpE_mono _ (walkFrom_still paneID agentType panePID proxyMaxDepth startPID false h) ?_ ?_)
  · intro h' r _ htold r' hr'
    cases hr'
    exact htold
  · intro h' e _ _ r' hr'
    cases hr'

/-- Alive, with its start time up to the white space around it. -/
def StillItself (env : Env) (frame : Frame) : Prop :=
  env.isPidAlive frame.pid = true ∧
    ∃ actualStart, env.processStartTime frame.pid = .ok actualStart ∧ trimSpace actualStart = trimSpace frame.processStartTime

theorem survives_still (frame : Frame) :
    wp (stillSpec cfg s) (survives frame) (fun _ keep => keep = true ↔ StillItself s.env frame) h := by
  refine wp_call_seq trivial fun alive halive => ?_
  obtain rfl : alive = s.env.isPidAlive frame.pid := halive nofun
  unfold StillItself
  split
  · next halive =>
    refine wp_call_seq trivial fun start hstart => ?_
    obtain rfl : start = s.env.processStartTime frame.pid := hstart nofun
    cases s.env.processStartTime frame.pid with
    | error e => simp
    | ok a => simp [halive]
  · next hdead => simp [hdead]

theorem survivorsOf_still : ∀ (frames : List Frame) (h : Hist iface), wp (stillSpec cfg s) (survivorsOf ctx frames)
    (fun _ res => ∀ l, res = .ok l → ∀ f, f ∈ l ↔ f ∈ frames ∧ StillItself s.env f) h
  | [], _ => fun l hl f => by
    obtain rfl := Except.ok.inj hl
    simp
  | frame :: frames, h => by
    unfold survivorsOf
    refine wp_seq contextErr_still fun h₁ e _ _ => ?_
    split
    · exact nofun
    · refine wp_seq (survives_still frame) fun h₂ keep _ hkeep => ?_
      refine wp_seq (survivorsOf_still frames h₂) fun h₃ rest _ hrest => ?_
      split
      · exact nofun
      · next survivors =>
        intro l hl f
        obtain rfl := Except.ok.inj hl
        have hmem := hrest survivors rfl f
        by_cases hk : keep = true
        · rw [if_pos hk, List.mem_cons, List.mem_cons, hmem]
          refine ⟨?_, fun ⟨hf, hs⟩ => hf.imp id (⟨·, hs⟩)⟩
          rintro (rfl | ⟨hf, hs⟩)
          · exact ⟨.inl rfl, hkeep.1 hk⟩
          · exact ⟨.inr hf, hs⟩
        · rw [if_neg hk, List.mem_cons, hmem]
          refine ⟨fun ⟨hf, hs⟩ => ⟨.inr hf, hs⟩, ?_⟩
          rintro ⟨rfl | hf, hs⟩
          · exact absurd (hkeep.2 hs) hk
          · exact ⟨hf, hs⟩

/-- What makes a survivor an owner: its walk comes to init, and by the pane's process. -/
def IsRoot (s : State) (paneID : String) (panePID : Int) (frame : Frame) : Prop :=
  ∃ info, s.env.processInfo frame.pid = .ok info ∧
    Rooted s.env (selectByPanePID s.table paneID) proxyMaxDepth info.ppid ∧
    (frame.pid = panePID ∨ Seen s.env panePID proxyMaxDepth info.ppid)

/-- The last thing asked was the context, and it was not done. -/
def LastLook (ctx : Int → Option Err) (h : Hist iface) : Prop :=
  ∃ (t : Int) (rest : Hist iface), h = ⟨.now, t⟩ :: rest ∧ ctx t = none

/-- What a query that ended says of the frames it was left with. -/
structure QuerySays (s : State) (ctx : Int → Option Err) (paneID : String) (panePID : Int) (frames : List Frame)
    (owners : List PaneOwner) (h : Hist iface) (out : List PaneOwner × Option Err) : Prop where
  sound : ∀ o ∈ out.1, o ∈ owners ∨ ∃ f ∈ frames, o = paneOwner f ∧ IsRoot s paneID panePID f
  looked : out.2 = none → LastLook ctx h
  complete : out.2 = none → Calm ctx h → ∀ o, (o ∈ owners ∨ ∃ f ∈ frames, o = paneOwner f ∧ IsRoot s paneID panePID f) →
    o ∈ out.1

theorem ownersFrom_still (paneID : String) (panePID : Int) : ∀ (frames : List Frame) (owners : List PaneOwner) (h : Hist iface),
    wp (stillSpec cfg s) (ownersFrom ctx paneID panePID frames owners) (QuerySays s ctx paneID panePID frames owners) h
  | [], owners, h => by
    unfold ownersFrom
    refine wp_seq contextErr_still fun h₁ e _ he => ?_
    obtain ⟨t, rfl, rfl⟩ := he
    exact ⟨fun o ho => .inl ho, fun hdone => ⟨t, h, rfl, hdone⟩, fun _ _ o ho => ho.elim id (by simp)⟩
  | frame :: frames, owners, h => by
    have hearly : ∀ (h' : Hist iface) (e : Err), QuerySays s ctx paneID panePID (frame :: frames) owners h' (owners, some e) :=
      fun _ _ => ⟨fun o ho => .inl ho, nofun, nofun⟩
    -- going on without the frame: it is no root, as far as the context held out
    have hskip : ∀ (h₁ : Hist iface), ((h' : Hist iface) → h₁ <:+ h' → Calm ctx h' → ¬ IsRoot s paneID panePID frame) →
        wp (stillSpec cfg s) (ownersFrom ctx paneID panePID frames owners)
          (QuerySays s ctx paneID panePID (frame :: frames) owners) h₁ := by
      intro h₁ hno
      refine wp_mono _ (ownersFrom_still paneID panePID frames owners h₁) fun h' out hs htold => ⟨fun o ho => ?_, htold.looked, ?_⟩
      · exact (htold.sound o ho).imp id fun ⟨f, hf, hrest⟩ => ⟨f, List.mem_cons_of_mem _ hf, hrest⟩
      · rintro hok hcalm o (ho | ⟨f, hf, rfl, hroot⟩)
        · exact htold.complete hok hcalm o (.inl ho)
        · rcases List.mem_cons.1 hf with rfl | hf
          · exact absurd hroot (hno h' hs hcalm)
          · exact htold.complete hok hcalm _ (.inr ⟨f, hf, rfl, hroot⟩)
    unfold ownersFrom
    refine wp_seq contextErr_still fun h₁ e _ _ => ?_
    split
    · exact hearly _ _
    · refine wp_seq (ctxGuardedReader_still frame.pid) fun h₂ r _ hr => ?_
      split
      · refine hskip h₂ fun h' hs hcalm ⟨info, hinfo, _⟩ => ?_
        exact absurd ((hr.2 (hcalm.suffix hs)).trans hinfo) nofun
      · next info =>
        have hinfo := hr.1 info rfl
        refine wp_seq (walkPaneAncestry_still paneID frame.agentType panePID info.ppid) fun h₃ res hs₃ htold => ?_
        split
        · exact hearly _ _
        · next res =>
          obtain ⟨hroot, hseen, hall⟩ := htold res rfl
          refine wp_seq contextErr_still fun h₄ e hs₄ _ => ?_
          split
          · exact hearly _ _
          · split
            · next hyes =>
              have hframe : IsRoot s paneID panePID frame :=
                ⟨info, hinfo, hroot hyes.1, hyes.2.imp id fun hs => (hseen hs).resolve_left Bool.false_ne_true⟩
              refine wp_mono _ (ownersFrom_still paneID panePID frames _ h₄) fun h' out _ htold => ⟨fun o ho => ?_, htold.looked, ?_⟩
              · rcases htold.sound o ho with ho | ⟨f, hf, hrest⟩
                · rcases List.mem_append.1 ho with ho | ho
                  · exact .inl ho
                  · exact .inr ⟨frame, by simp, List.mem_singleton.1 ho, hframe⟩
                · exact .inr ⟨f, List.mem_cons_of_mem _ hf, hrest⟩
              · rintro hok hcalm o (ho | ⟨f, hf, rfl, hroot⟩)
                · exact htold.complete hok hcalm o (.inl (List.mem_append_left _ ho))
                · rcases List.mem_cons.1 hf with rfl | hf
                  · exact htold.complete hok hcalm _ (.inl (by simp))
                  · exact htold.complete hok hcalm _ (.inr ⟨f, hf, rfl, hroot⟩)
            · next hno =>
              refine hskip h₄ fun h' hs hcalm ⟨info', hinfo', hrooted, hpane⟩ => hno ?_
              obtain rfl := Except.ok.inj (hinfo.symm.trans hinfo')
              obtain ⟨hverdict, hsaw⟩ := hall (hcalm.suffix (hs₄.trans hs)) hrooted
              exact ⟨hverdict, hpane.imp id fun hs => hsaw (.inr hs)⟩

/-- The query fails, or answers with the roots among the survivors of the pane. -/
theorem resolvePaneOwners_still (paneID : String) {panePID : Int} (hpane : s.env.panePID paneID = .ok panePID) :
    wp (stillSpec cfg s) (resolvePaneOwners ctx s.env.panePID paneID) (fun h' out => out.1 = [] ∧ out.2 ≠ none ∨
      ∃ survivors, (∀ f, f ∈ survivors ↔ f ∈ selectByPane s.table paneID ∧ StillItself s.env f) ∧
        QuerySays s ctx paneID panePID survivors [] h' out) h := by
  unfold resolvePaneOwners
  rw [hpane]
  refine wp_seq ((wp_run _ (fun _ r => ∀ frames, r = .ok frames → frames = selectByPane s.table paneID)).2
    (wpE_mono _ (listByPane_still paneID) (fun _ l _ hl => ?_) fun _ e _ _ => ?_)) fun h₁ r _ hr => ?_
  · exact fun l' hl' => (Except.ok.inj hl').symm.trans hl
  · exact nofun
  · split
    · exact .inl ⟨rfl, nofun⟩
    · next frames =>
      obtain rfl := hr frames rfl
      refine wp_seq (survivorsOf_still _ h₁) fun h₂ r _ hr => ?_
      split
      · exact .inl ⟨rfl, nofun⟩
      · next survivors =>
        exact wp_mono _ (ownersFrom_still paneID panePID survivors [] h₂) fun _ _ _ htold => .inr ⟨survivors, hr survivors rfl, htold⟩

end Still

/-! ## Runs -/

/-- What a run knows of the clock: it has not gone back, and what comes next is no earlier. -/
structure InTime (clock : Nat → Int) (n : Nat) (h : Hist iface) : Prop where
  past : ∀ t : Int, (⟨.now, t⟩ : Event iface) ∈ h → ∀ m, n ≤ m → t ≤ clock m
  last : ∀ (t : Int) (rest : Hist iface), h = ⟨.now, t⟩ :: rest → ∀ t' : Int, (⟨.now, t'⟩ : Event iface) ∈ rest → t' ≤ t

theorem frozen_of_ne (cfg : Config) (s : State) (clock : Nat → Int) {o : Op} (ho : o ≠ .now) (n : Nat) :
    frozen cfg s clock o n = ((exec cfg o s).1, n + 1) := by
  cases o
  case now => exact absurd rfl ho
  all_goals rfl

theorem frozen_step {cfg : Config} {s : State} {clock : Nat → Int} (hclock : Monotone clock) (o : Op) (n : Nat)
    (h : Hist iface) (hj : InTime clock n h) (_ : (stillSpec cfg s).ok h o) :
    (stillSpec cfg s).ans o (frozen cfg s clock o n).1 ∧
      InTime clock (frozen cfg s clock o n).2 (⟨o, (frozen cfg s clock o n).1⟩ :: h) := by
  by_cases ho : o = .now
  · subst ho
    refine ⟨fun hne => absurd rfl hne, fun t ht m hm => ?_, fun t rest heq t' ht' => ?_⟩
    · have hn : n ≤ m := Nat.le_of_succ_le hm
      rcases List.mem_cons.1 ht with heq | ht
      · cases heq
        exact hclock hn
      · exact hj.past t ht m hn
    · cases heq
      exact hj.past t' ht' n le_rfl
  · rw [frozen_of_ne cfg s clock ho]
    refine ⟨fun _ => rfl, fun t ht m hm => ?_, fun t rest heq => ?_⟩
    · rcases List.mem_cons.1 ht with heq | ht
      · exact absurd (congrArg Event.op heq).symm ho
      · exact hj.past t ht m (Nat.le_of_succ_le hm)
    · exact absurd (congrArg Event.op (List.cons.inj heq).1) ho

/-- With the clock in time, a context that is not done at the last look never was. -/
theorem InTime.calm {ctx : Int → Option Err} {clock : Nat → Int} {n : Nat} {h : Hist iface} (hj : InTime clock n h)
    (hctx : StaysDone ctx) (hlook : LastLook ctx h) : Calm ctx h := by
  obtain ⟨t, rest, rfl, hlive⟩ := hlook
  intro t' ht'
  rcases List.mem_cons.1 ht' with heq | ht'
  · cases heq
    exact hlive
  · by_contra hdone
    exact hctx t' t (hj.last t rest rfl t' ht') hdone hlive

/-! ## The owners of a pane -/

/-- Start times as hooks store them and as processes are read: without white space around. -/
structure Trimmed (s : State) (paneID : String) : Prop where
  stored : ∀ f ∈ selectByPane s.table paneID, trimSpace f.processStartTime = f.processStartTime
  read : ∀ pid actualStart, s.env.processStartTime pid = .ok actualStart → trimSpace actualStart = actualStart

theorem survives_iff_live {s : State} {paneID : String} (htrim : Trimmed s paneID) {f : Frame}
    (hf : f ∈ selectByPane s.table paneID) : StillItself s.env f ↔ s.env.frameGate f = .live := by
  unfold StillItself Env.frameGate Env.gate
  rw [htrim.stored f hf]
  cases halive : s.env.isPidAlive f.pid with
  | false => simp
  | true =>
    cases hstart : s.env.processStartTime f.pid with
    | error e => simp
    | ok a => simp [htrim.read f.pid a hstart]

/-- The frame of a pid, where the pane has one at most. -/
theorem selectByPanePID_of_mem {t : Table} {paneID : String} {g : Frame} (hg : g ∈ selectByPane t paneID)
    (hone : ∀ f ∈ selectByPane t paneID, ∀ g ∈ selectByPane t paneID, f.pid = g.pid → f = g) :
    selectByPanePID t paneID g.pid = some g := by
  cases hfound : selectByPanePID t paneID g.pid with
  | none => exact absurd rfl (selectByPanePID_none hfound g hg)
  | some f =>
    obtain ⟨hf, hpid⟩ := selectByPanePID_some hfound
    rw [hone f hf g hg hpid]

/-- What the query returns in a run that starts at the first tick of the clock. -/
def queryOwners (cfg : Config) (s : State) (ctx : Int → Option Err) (clock : Nat → Int) (paneID : String) :
    List PaneOwner × Option Err :=
  ((resolvePaneOwners ctx s.env.panePID paneID).eval (frozen cfg s clock) 0).1

/-- Each owner is live, in the tree of the pane's process and below no live frame of the pane but init; and every live
frame that the chain of its processes shows to be so is an owner. -/
structure VerifiedRoots (s : State) (paneID : String) (out : List PaneOwner × Option Err) : Prop where
  sound : ∀ o ∈ out.1, ∃ f ∈ selectByPane s.table paneID, o = paneOwner f ∧ s.env.frameGate f = .live ∧
    (∃ panePID, s.env.panePID paneID = .ok panePID ∧ (f.pid = panePID ∨ Above s.env panePID f.pid)) ∧
    ∀ g ∈ selectByPane s.table paneID, s.env.frameGate g = .live → 1 < g.pid → ¬ Above s.env g.pid f.pid
  complete : out.2 = none → ∀ f ∈ selectByPane s.table paneID, s.env.frameGate f = .live →
    ∀ chain, Chain s.env f.pid chain → chain.length ≤ proxyMaxDepth →
    (∃ panePID, s.env.panePID paneID = .ok panePID ∧ (panePID = f.pid ∨ panePID ∈ chain)) →
    (∀ g ∈ selectByPane s.table paneID, g.pid ∈ chain → s.env.Stale g) → paneOwner f ∈ out.1

theorem above_iff {env : Env} {pid ancestor : Int} {info : ProcessInfo} (hinfo : env.processInfo pid = .ok info) :
    Above env ancestor pid ↔ info.ppid = ancestor ∨ 1 < info.ppid ∧ Above env ancestor info.ppid := by
  constructor
  · intro h
    cases h with
    | parent _ info' hinfo' heq =>
      obtain rfl := Except.ok.inj (hinfo.symm.trans hinfo')
      exact .inl heq
    | up _ info' hinfo' hup habove =>
      obtain rfl := Except.ok.inj (hinfo.symm.trans hinfo')
      exact .inr ⟨hup, habove⟩
  · rintro (heq | ⟨hup, habove⟩)
    · exact .parent _ info hinfo heq
    · exact .up _ info hinfo hup habove

theorem Chain.read {env : Env} {pid : Int} {chain : List Int} (h : Chain env pid chain) :
    ∃ info, env.processInfo pid = .ok info := by
  cases h with
  | init _ info hinfo _ => exact ⟨info, hinfo⟩
  | up _ info _ hinfo _ _ => exact ⟨info, hinfo⟩

/-- The roots among the live frames of a pane are what the claim of an owner is. -/
theorem QuerySays.verified {s : State} {ctx : Int → Option Err} {paneID : String} {panePID : Int} {survivors : List Frame}
    {h : Hist iface} {out : List PaneOwner × Option Err} (htold : QuerySays s ctx paneID panePID survivors [] h out)
    (hpane : s.env.panePID paneID = .ok panePID) (hcalm : out.2 = none → Calm ctx h)
    (hlive : ∀ f, f ∈ survivors ↔ f ∈ selectByPane s.table paneID ∧ s.env.frameGate f = .live)
    (hone : ∀ f ∈ selectByPane s.table paneID, ∀ g ∈ selectByPane s.table paneID, f.pid = g.pid → f = g) :
    VerifiedRoots s paneID out where
  sound o ho := by
    rcases htold.sound o ho with ho | ⟨f, hf, rfl, info, hinfo, hrooted, hin⟩
    · simp at ho
    · obtain ⟨hmem, hgate⟩ := (hlive f).1 hf
      have hup : f.pid = panePID ∨ Above s.env panePID f.pid := hin.imp id fun hseen => (above_iff hinfo).2 (above_of_seen hseen)
      refine ⟨f, hmem, rfl, hgate, ⟨panePID, hpane, hup⟩, fun g hg hglive hreal habove => ?_⟩
      have hgstale : s.env.Stale g :=
        hrooted.stale ((above_iff hinfo).1 habove) hreal g (selectByPanePID_of_mem hg hone)
      rcases hgstale with hdead | hreused
      · exact absurd (hglive.symm.trans hdead) nofun
      · exact absurd (hglive.symm.trans hreused) nofun
  complete hok f hf hgate chain hchain hlength hpanePID hstale := by
    obtain ⟨panePID', hpane', hin⟩ := hpanePID
    obtain rfl := Except.ok.inj (hpane.symm.trans hpane')
    obtain ⟨info, hinfo⟩ := hchain.read
    refine htold.complete hok (hcalm hok) _ (.inr ⟨f, (hlive f).2 ⟨hf, hgate⟩, rfl, info, hinfo, ?_, ?_⟩)
    · refine hchain.rooted _ hlength (fun p hp g hg => ?_) info hinfo
      obtain ⟨hgmem, hgpid⟩ := selectByPanePID_some hg
      exact hstale g hgmem (by rw [hgpid]; exact hp)
    · exact hin.imp Eq.symm fun hmem => hchain.seen hmem _ hlength info hinfo

/-- Every process has the start time its frame was stored with, and the pane runs the given process. -/
def ownersEnv (panePID : Int) : Env := { recycledEnv with processStartTime := fun _ => .ok "t0", panePID := fun _ => .ok panePID }

theorem nested_ids : ([claudeFrame, codexFrame].map (·.frameID)).Nodup := by decide

theorem nested_idents : ([claudeFrame, codexFrame].map (·.ident)).Nodup := by decide

def ownersPane : State where
  table := paneTable [claudeFrame, codexFrame] nested_ids nested_idents
  identitySeq := 0
  mem := Mem.empty
  env := ownersEnv 10

/-- An agent that runs as init, and one below it. -/
def initPane : State where
  table := paneTable [paneFrame "f1" "cc" 1 1, paneFrame "f2" "codex" 11 2] (by decide) (by decide)
  identitySeq := 0
  mem := Mem.empty
  env := ownersEnv 1

end Purdex.Module
