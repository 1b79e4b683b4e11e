/-
"Rebuild all": one rebuild for each group and the other panes of the group after it, under one lock; and which
session those panes are put onto.
-/
import Purdex.Rebuild.Groups
import Purdex.Rebuild.Tail

namespace Purdex.Rebuild

open Conc Json Panes

/-! ## The other panes of a group -/

structure BatchMemberResult where
  paneId : String
  tabId : String
  repointed : Bool
  reason : Option String
  deriving Repr, DecidableEq

/-- The host has to be what the group pinned, and the pane bound as the group is. -/
def repointMember (tabId paneId : String) (binding : SessionBinding) (created : Session) (pinnedHost : Option HostIdentity) :
    RebuildM BatchMemberResult := do
  let w ← Async.read
  match pinHost binding.hostId pinnedHost w with
  | .error err => pure ⟨paneId, tabId, false, some err.message⟩
  | .ok _ =>
    if ¬w.BindingUnchanged tabId paneId binding then pure ⟨paneId, tabId, false, some "the pane binding changed"⟩
    else do
      Async.modify (defaultRepoint tabId paneId created)
      pure ⟨paneId, tabId, true, none⟩

/-- What the rebuild of the source pane left for the others. -/
structure GroupOutcome where
  report : RebuildReport
  created : Option Session
  pinnedHost : Option HostIdentity

def runMember (binding : SessionBinding) (tabOfPane : String → Option String) (outcome : GroupOutcome) (paneId : String) :
    RebuildM BatchMemberResult :=
  let tabId := (tabOfPane paneId).getD ""
  match outcome.created with
  | none => pure ⟨paneId, tabId, false, some "nothing was created"⟩
  | some created =>
    if outcome.report.steps.resume.status = .failed then pure ⟨paneId, tabId, false, some "resume failed"⟩
    else repointMember tabId paneId binding created outcome.pinnedHost

def runMembers (binding : SessionBinding) (tabOfPane : String → Option String) (outcome : GroupOutcome) :
    List String → RebuildM (List BatchMemberResult)
  | [] => pure []
  | paneId :: rest => do
    let member ← runMember binding tabOfPane outcome paneId
    let members ← runMembers binding tabOfPane outcome rest
    pure (member :: members)

/-! ## Groups, one after another -/

structure BatchGroupResult where
  sourcePaneId : String
  binding : SessionBinding
  report : RebuildReport
  members : List BatchMemberResult
  deriving Repr, DecidableEq

def BatchGroup.others (group : BatchGroup) : List String := group.paneIds.filter (· ≠ group.sourcePaneId)

/-- The created session and its host are read off the operation that is stored for the source pane. -/
def runGroup (tabOfPane : String → Option String) (grant : OperationLockGrant) (group : BatchGroup) : RebuildM BatchGroupResult := do
  let binding := group.binding
  let report ← rebuildPane group.hostId group.tabId group.sourcePaneId group.plan (some grant) (some binding)
  await .turn
  let w ← Async.read
  let created := (w.operation group.sourcePaneId).bind (·.createdSession)
  let pinnedHost := (w.operation group.sourcePaneId).bind (·.host)
  let members ← runMembers binding tabOfPane ⟨report, created, pinnedHost⟩ group.others
  pure ⟨group.sourcePaneId, binding, report, members⟩

def runGroups (tabOfPane : String → Option String) (grant : OperationLockGrant) : List BatchGroup → RebuildM (List BatchGroupResult)
  | [] => pure []
  | group :: rest => do
    let result ← runGroup tabOfPane grant group
    await .turn
    let results ← runGroups tabOfPane grant rest
    pure (result :: results)

def BATCH_LOCK_OWNER : String := "rebuild:batch"

inductive BatchStatus where
  | ok
  | blocked
  deriving Repr, DecidableEq

structure BatchReport where
  status : BatchStatus
  blockedBy : Option String
  groups : List BatchGroupResult
  excluded : List BatchCandidate
  deriving Repr, DecidableEq

def tabOf (candidates : List BatchCandidate) (paneId : String) : Option String :=
  (candidates.reverse.find? (·.paneId = paneId)).map (·.tabId)

def runBatchRebuild : RebuildM BatchReport := do
  let w ← Async.read
  let candidates := batchCandidates (collectRecordRows w.tabs)
  let batches := groupForBatch (liveResumeTemplates w) candidates
  match acquireOperationLock BATCH_LOCK_OWNER none w.lock with
  | (none, _) => pure ⟨.blocked, some (w.lock.lockedBy.getD ""), [], batches.excluded⟩
  | (some grant, lock) => do
    Async.modify fun w => { w with lock }
    let results ← runGroups (tabOf candidates) grant batches.groups
    Async.modify fun w => { w with lock := releaseOperationLock (some grant) w.lock }
    pure ⟨.ok, none, results, batches.excluded⟩

/-! ## One group -/

/-- What others do to operations while the batch has the lock: a running one is left to its call, and created sessions stay. -/
structure LeavesHeld (a b : World) : Prop where
  running : ∀ paneId op, a.operation paneId = some op → op.status = .running → b.operation paneId = some op
  held : ∀ paneId, b.holds paneId = a.holds paneId

theorem LeavesHeld.refl (w : World) : LeavesHeld w w := ⟨fun _ _ h _ => h, fun _ => rfl⟩

theorem LeavesHeld.trans {a b c : World} (h : LeavesHeld a b) (h' : LeavesHeld b c) : LeavesHeld a c :=
  ⟨fun paneId op hop hrunning => h'.running paneId op (h.running paneId op hop hrunning) hrunning,
    fun paneId => (h'.held paneId).trans (h.held paneId)⟩

/-- A pane of the group, bound as the group is, is put onto a session that was created for it on the host that it is on. -/
def OntoGroup (group : BatchGroup) (earlier : List Step) (pre post : World) : Prop :=
  ∃ host session tabId paneId, paneId ∈ group.sourcePaneId :: group.paneIds ∧ (host, .ok session) ∈ creates earlier ∧
    pre.hosts.get? group.hostId = some host ∧ (pre.readTerminalPane tabId paneId).map (·.binding) = some group.binding ∧
    PutsOn tabId paneId session pre post

/-- The rebuild of the group is refused, while its source pane holds what an earlier rebuild created, and others wait for it. -/
def StaleSource (grant : OperationLockGrant) (group : BatchGroup) (w : World) : Prop :=
  RebuildRefused group.hostId group.tabId group.sourcePaneId (some grant) (some group.binding) w ∧
    (w.holds group.sourcePaneId).isSome ∧ group.others ≠ []

instance (grant : OperationLockGrant) (group : BatchGroup) (w : World) : Decidable (StaleSource grant group w) :=
  inferInstanceAs (Decidable (_ ∧ _ ∧ _))

section Group

variable {T : Terms Daemon World} {binding : SessionBinding} {tabOfPane : String → Option String} {outcome : GroupOutcome}
  {group : BatchGroup} {grant : OperationLockGrant}

/-- The other panes are written, if at all, while the host is as it was pinned and they are bound as the group is. -/
theorem does_runMembers (paneIds : List String) : ∀ (s : World) (t : List Step), (∀ l created paneId tabId pre, paneId ∈ paneIds →
    outcome.created = some created → (pinHost binding.hostId outcome.pinnedHost pre).isOk → pre.BindingUnchanged tabId paneId binding →
      T.writes (l ++ t) pre (defaultRepoint tabId paneId created pre)) →
    (runMembers binding tabOfPane outcome paneIds).Does T s t fun _ _ t' => ∃ l, t' = l ++ t ∧ creates l = [] ∧ sends l = [] := by
  induction paneIds with
  | nil => exact fun s t _ => does_pure ⟨[], rfl, rfl, rfl⟩
  | cons paneId rest ih =>
    intro s t hwrites
    have hmember : (runMember binding tabOfPane outcome paneId).Does T s t fun _ _ t' =>
        ∃ l, t' = l ++ t ∧ creates l = [] ∧ sends l = [] := by
      unfold runMember
      dsimp only
      cases hcreated : outcome.created with
      | none => exact does_pure ⟨[], rfl, rfl, rfl⟩
      | some created =>
        dsimp only
        by_cases hresumed : outcome.report.steps.resume.status = .failed
        · rw [if_pos hresumed]
          exact does_pure ⟨[], rfl, rfl, rfl⟩
        · rw [if_neg hresumed]
          unfold repointMember
          refine does_read ?_
          cases hpin : pinHost binding.hostId outcome.pinnedHost s with
          | error err => exact does_pure ⟨[], rfl, rfl, rfl⟩
          | ok pinned =>
            dsimp only
            by_cases hbound : s.BindingUnchanged ((tabOfPane paneId).getD "") paneId binding
            · rw [if_neg (not_not.2 hbound)]
              refine does_modify (hwrites [] created paneId _ s (.head _) hcreated (by rw [hpin]; rfl) hbound) ?_
              exact does_pure ⟨[.wrote s _], rfl, rfl, rfl⟩
            · rw [if_pos hbound]
              exact does_pure ⟨[], rfl, rfl, rfl⟩
    refine does_seq hmember ?_
    rintro member s₁ _ ⟨l₁, rfl, hcreates₁, hsends₁⟩
    refine does_seq (ih s₁ (l₁ ++ t) fun l created paneId tabId pre hmem => ?_) ?_
    · rw [← List.append_assoc]
      exact hwrites (l ++ l₁) created paneId tabId pre (.tail _ hmem)
    · rintro members s₂ _ ⟨l₂, rfl, hcreates₂, hsends₂⟩
      refine does_pure ⟨l₂ ++ l₁, by rw [List.append_assoc], ?_, ?_⟩
      · rw [creates_append, hcreates₂, hcreates₁, List.nil_append]
      · rw [sends_append, hsends₂, hsends₁, List.nil_append]

/-- Of the creates in a row only the last was answered with a session. -/
theorem countP_creates_le {l : List Step} (h : ∀ c ∈ (creates l).tail, ∃ text, c.2 = .status 409 text) :
    (creates l).countP (fun c => c.2.isOk) ≤ 1 := by
  cases hl : creates l with
  | nil => exact Nat.zero_le _
  | cons first rest =>
    rw [hl, List.tail_cons] at h
    have hrest : rest.countP (fun c => c.2.isOk) = 0 := by
      refine List.countP_eq_zero.2 fun c hc hok => ?_
      obtain ⟨text, heq⟩ := h c hc
      rw [heq] at hok
      cases hok
    rw [List.countP_cons, hrest]
    split <;> omega

/-- Besides, anything may be written where the source pane is stale. -/
def groupTerms (grant : OperationLockGrant) (group : BatchGroup) (start : World) : Terms Daemon World where
  rely := LeavesHeld
  asks _ _ _ := True
  writes earlier pre post := Untouched pre post ∨ OntoGroup group earlier pre post ∨ StaleSource grant group start

theorem allowsRebuild_groupTerms (grant : OperationLockGrant) (group : BatchGroup) (start : World) :
    AllowsRebuild (groupTerms grant group start) group.hostId group.tabId group.sourcePaneId (some group.binding) start [] where
  refl := LeavesHeld.refl
  trans := LeavesHeld.trans
  turn _ _ := trivial
  quiet _ _ _ h := .inl h
  create _ _ _ _ _ := trivial
  send _ _ _ _ _ _ := trivial
  repoint l pre post h := by
    obtain ⟨identity, content, session, htarget, hcreated, hhost, hbound, rfl⟩ := h
    obtain ⟨_, _, _, hwant⟩ := rebuildTarget_ok htarget
    obtain ⟨now, hnow, _⟩ := id hbound
    rw [List.append_nil]
    refine .inr (.inl ⟨identity, session, group.tabId, group.sourcePaneId, .head _, hcreated, hostUnchanged_iff.1 hhost, ?_,
      putsOn_defaultRepoint hnow⟩)
    rw [(World.bindingUnchanged_iff _).1 hbound, hwant _ rfl]

theorem holds_of_createdSession {w : World} {paneId : String} {created : Session}
    (h : (w.operation paneId).bind (·.createdSession) = some created) :
    w.holds paneId = some (created, (w.operation paneId).bind (·.host)) := by
  obtain ⟨op, hop, hcreated⟩ := Option.bind_eq_some_iff.1 h
  rw [World.holds, hop, Option.bind_some, Option.bind_some, hcreated]
  rfl

theorem does_runGroup (tabOfPane : String → Option String) (grant : OperationLockGrant) (group : BatchGroup) (start : World) :
    (runGroup tabOfPane grant group).Does (groupTerms grant group start) start [] fun _ _ t' =>
      (creates t').countP (fun c => c.2.isOk) ≤ 1 ∧ (sends t').length ≤ 1 := by
  have hT := allowsRebuild_groupTerms grant group start
  unfold runGroup
  refine does_seq (does_rebuildPane hT group.plan (some grant)) ?_
  rintro report s₁ _ ⟨l, rfl, hrebuilt⟩
  refine does_request trivial fun r s₂ hrely => does_read ?_
  have hheld : KeepsHeld LeavesHeld group.sourcePaneId := fun _ _ h => h.held _
  have hrunning : KeepsRunning LeavesHeld group.sourcePaneId := fun _ _ h => h.running _
  refine does_seq (does_runMembers group.others s₂ _ fun l' created paneId tabId pre hmem hcreated hpin hbound => ?_) ?_
  · have hholds := holds_of_createdSession hcreated
    rw [hrely.held] at hholds
    by_cases hrefused : RebuildRefused group.hostId group.tabId group.sourcePaneId (some grant) (some group.binding) start
    · -- what the pane holds is from before the batch
      refine .inr (.inr ⟨hrefused, ?_, List.ne_nil_of_mem hmem⟩)
      rw [← (hrebuilt.1 hrefused).2 hheld, hholds]
      rfl
    · obtain ⟨identity, content, session, _, hran, hsettled⟩ := hrebuilt.2 hrefused
      rw [hsettled hrunning hheld] at hholds
      obtain ⟨_, rfl, heq⟩ := Option.map_eq_some_iff.1 hholds
      obtain ⟨rfl, hpinned⟩ := Prod.mk.inj heq
      rw [← hpinned] at hpin
      obtain ⟨now, hnow, _⟩ := id hbound
      refine .inr (.inl ⟨identity, _, tabId, paneId, .tail _ (List.mem_of_mem_filter hmem), ?_, ?_,
        (World.bindingUnchanged_iff _).1 hbound, putsOn_defaultRepoint hnow⟩)
      · rw [creates_append]
        refine List.mem_append_right _ ?_
        show _ ∈ creates (l ++ [])
        rw [List.append_nil]
        exact (hran.answered _ _).2 ⟨rfl, rfl⟩
      · cases hout : pinHost group.binding.hostId (some identity) pre with
        | error err =>
          rw [hout] at hpin
          cases hpin
        | ok pinned =>
          obtain ⟨hconfigured, hwant⟩ := pinHost_ok hout
          rw [← hwant identity rfl]
          exact hconfigured
  · rintro members s₃ _ ⟨l', rfl, hcreates, hsends⟩
    refine does_pure ?_
    have hcreates' : creates (l' ++ .asked (.turn : Request) r s₁ :: (l ++ [])) = creates l := by
      rw [creates_append, hcreates, List.append_nil]
      rfl
    have hsends' : sends (l' ++ .asked (.turn : Request) r s₁ :: (l ++ [])) = sends l := by
      rw [sends_append, hsends, List.append_nil]
      rfl
    rw [hcreates', hsends']
    by_cases hrefused : RebuildRefused group.hostId group.tabId group.sourcePaneId (some grant) (some group.binding) start
    · obtain ⟨hnothing, _⟩ := hrebuilt.1 hrefused
      rw [hnothing.creates, hnothing.sends]
      exact ⟨Nat.zero_le _, Nat.zero_le _⟩
    · obtain ⟨identity, content, session, _, hran, _⟩ := hrebuilt.2 hrefused
      exact ⟨countP_creates_le hran.retries, hran.once⟩

end Group

/-! ## The whole batch -/

/-- A group that was run, from which state, and what came of it. -/
structure GroupRun where
  group : BatchGroup
  grant : OperationLockGrant
  start : World
  out : Out Daemon World BatchGroupResult

section Batch

variable (env : Env Daemon World) (tabOfPane : String → Option String) (grant : OperationLockGrant)

/-- The runs of the groups, each from the state that the one before it and a turn left. -/
def groupRuns : List BatchGroup → Nat → World → List GroupRun
  | [], _, _ => []
  | group :: rest, n, w =>
    let out := (runGroup tabOfPane grant group).play env n w
    ⟨group, grant, w, out⟩ :: groupRuns rest (out.waits + 1) (env.meanwhile out.waits out.state)

/-- The runs of a batch that starts in `w`; one that is blocked has none. -/
def batchRuns (n : Nat) (w : World) : List GroupRun :=
  let candidates := batchCandidates (collectRecordRows w.tabs)
  match acquireOperationLock BATCH_LOCK_OWNER none w.lock with
  | (none, _) => []
  | (some grant, lock) =>
    groupRuns env (tabOf candidates) grant (groupForBatch (liveResumeTemplates w) candidates).groups n { w with lock }

variable {env tabOfPane grant}

theorem silent_turn {w : World} {r : Daemon.Res .turn} : Silent [.asked (.turn : Request) r w] := silent_nil.turn

/-- Whatever a row of groups did, a group of it did. -/
theorem mem_trace_runGroups (groups : List BatchGroup) : ∀ (n : Nat) (w : World),
    ∀ e ∈ ((runGroups tabOfPane grant groups).play env n w).trace,
      Silent [e] ∨ ∃ run ∈ groupRuns env tabOfPane grant groups n w, e ∈ run.out.trace := by
  induction groups with
  | nil => exact fun _ _ e he => by cases he
  | cons group rest ih =>
    intro n w e he
    let out := (runGroup tabOfPane grant group).play env n w
    let next := (runGroups tabOfPane grant rest).play env (out.waits + 1) (env.meanwhile out.waits out.state)
    have htrace : ((runGroups tabOfPane grant (group :: rest)).play env n w).trace =
        next.trace ++ .asked (.turn : Request) (env.answer out.waits (.turn : Request)) out.state :: out.trace := by
      let after (result : BatchGroupResult) : RebuildM (List BatchGroupResult) :=
        runGroups tabOfPane grant rest >>= fun results => pure (result :: results)
      have hlast : ∀ result n w, ((after result).play env n w).trace = ((runGroups tabOfPane grant rest).play env n w).trace :=
        fun result n w => by rw [play_bind]; rfl
      unfold runGroups
      rw [play_bind]
      show ((await .turn >>= fun _ => after out.value).play env out.waits out.state).trace ++ out.trace = _
      rw [play_bind]
      show ((after out.value).play env (out.waits + 1) (env.meanwhile out.waits out.state)).trace ++ [_] ++ out.trace = _
      rw [hlast, List.append_assoc]
      rfl
    rw [htrace] at he
    rcases List.mem_append.1 he with he | he
    · refine (ih _ _ e he).imp_right ?_
      rintro ⟨run, hrun, hmem⟩
      exact ⟨run, .tail _ hrun, hmem⟩
    · rcases List.mem_cons.1 he with rfl | he
      · exact .inl silent_turn
      · exact .inr ⟨⟨group, grant, w, out⟩, .head _, he⟩

theorem map_group_groupRuns (groups : List BatchGroup) : ∀ (n : Nat) (w : World),
    (groupRuns env tabOfPane grant groups n w).map (·.group) = groups := by
  induction groups with
  | nil => exact fun _ _ => rfl
  | cons group rest ih => exact fun n w => congrArg (group :: ·) (ih _ _)

theorem mem_groupRuns (groups : List BatchGroup) : ∀ (n : Nat) (w : World), ∀ run ∈ groupRuns env tabOfPane grant groups n w,
    ∃ n', run.out = (runGroup tabOfPane run.grant run.group).play env n' run.start := by
  induction groups with
  | nil => exact fun _ _ _ hrun => by cases hrun
  | cons group rest ih =>
    intro n w run hrun
    rcases List.mem_cons.1 hrun with rfl | hrun
    · exact ⟨n, rfl⟩
    · exact ih _ _ run hrun

/-- What a group may write: its own panes, onto its own session, and nothing where it created none. -/
structure GroupSafe (group : BatchGroup) (t : List Step) : Prop where
  written : ∀ later pre post earlier, t = later ++ .wrote pre post :: earlier → Untouched pre post ∨ OntoGroup group earlier pre post
  nothing : (∀ host session, (host, .ok session) ∉ creates t) → Quiet t

/-- A group that does not start from a stale source is safe, and no group creates or resumes twice. -/
theorem safe_runGroup (henv : ∀ n s, LeavesHeld s (env.meanwhile n s)) (group : BatchGroup) (n : Nat) (start : World) :
    let out := (runGroup tabOfPane grant group).play env n start
    ((creates out.trace).countP (fun c => c.2.isOk) ≤ 1 ∧ (sends out.trace).length ≤ 1) ∧
      (¬StaleSource grant group start → GroupSafe group out.trace) := by
  intro out
  obtain ⟨hkept, honce⟩ : (groupTerms grant group start).Kept (out.trace ++ []) ∧
      (creates (out.trace ++ [])).countP (fun c => c.2.isOk) ≤ 1 ∧ (sends (out.trace ++ [])).length ≤ 1 :=
    (does_runGroup tabOfPane grant group start).play henv trivial
  rw [List.append_nil] at hkept honce
  refine ⟨honce, fun hfresh => ?_⟩
  have hwritten : ∀ later pre post earlier, out.trace = later ++ .wrote pre post :: earlier →
      Untouched pre post ∨ OntoGroup group earlier pre post := by
    intro later pre post earlier hsplit
    rw [hsplit] at hkept
    exact (kept_of_append hkept).1.imp_right fun h => h.resolve_right hfresh
  refine ⟨hwritten, fun hnothing pre post hmem => ?_⟩
  obtain ⟨later, earlier, hsplit⟩ := List.append_of_mem hmem
  refine (hwritten later pre post earlier hsplit).resolve_right ?_
  rintro ⟨host, session, _, _, _, hcreated, _⟩
  refine hnothing host session ?_
  rw [hsplit, creates_append]
  exact List.mem_append_right _ hcreated

/-- Around the groups a batch only takes the lock and gives it back. -/
theorem trace_runBatchRebuild {n : Nat} {w : World} {lock : OperationLock}
    (hlock : acquireOperationLock BATCH_LOCK_OWNER none w.lock = (some grant, lock)) :
    let candidates := batchCandidates (collectRecordRows w.tabs)
    let out := (runGroups (tabOf candidates) grant (groupForBatch (liveResumeTemplates w) candidates).groups).play env n { w with lock }
    (runBatchRebuild.play env n w).trace = .wrote out.state { out.state with lock := releaseOperationLock (some grant) out.state.lock } ::
      (out.trace ++ [.wrote w { w with lock }]) := by
  intro candidates out
  let batches := groupForBatch (liveResumeTemplates w) candidates
  let held : RebuildM BatchReport := do
    Async.modify fun w => { w with lock }
    let results ← runGroups (tabOf candidates) grant batches.groups
    Async.modify fun w => { w with lock := releaseOperationLock (some grant) w.lock }
    pure ⟨.ok, none, results, batches.excluded⟩
  have hheld : runBatchRebuild.play env n w = held.play env n w := by
    show Async.play env (match acquireOperationLock BATCH_LOCK_OWNER none w.lock with
      | (none, _) => _
      | (some grant, lock) => _) n w = _
    rw [hlock]
  rw [hheld]
  show ((runGroups (tabOf candidates) grant batches.groups >>= _).play env n { w with lock }).trace ++ [_] = _
  rw [play_bind]
  rfl

/-- A batch does what its groups do, each of which is safe but for a stale source. -/
theorem runBatchRebuild_safe (env : Env Daemon World) (henv : ∀ n s, LeavesHeld s (env.meanwhile n s)) (n : Nat) (w : World) :
    (∀ templates panes, Grouped templates panes (groupForBatch templates panes)) ∧
    ((batchRuns env n w).map (·.group)).Sublist
      (groupForBatch (liveResumeTemplates w) (batchCandidates (collectRecordRows w.tabs))).groups ∧
    (∀ e ∈ (runBatchRebuild.play env n w).trace, Silent [e] ∨ ∃ run ∈ batchRuns env n w, e ∈ run.out.trace) ∧
    ∀ run ∈ batchRuns env n w,
      ((creates run.out.trace).countP (fun c => c.2.isOk) ≤ 1 ∧ (sends run.out.trace).length ≤ 1) ∧
        (¬StaleSource run.grant run.group run.start → GroupSafe run.group run.out.trace) := by
  refine ⟨fun templates panes => grouped_groupForBatch templates panes, ?_⟩
  rcases hlock : acquireOperationLock BATCH_LOCK_OWNER none w.lock with ⟨_ | grant, lock⟩
  · have hruns : batchRuns env n w = [] := by
      unfold batchRuns
      rw [hlock]
    have htrace : (runBatchRebuild.play env n w).trace = [] := by
      show (Async.play env (match acquireOperationLock BATCH_LOCK_OWNER none w.lock with
        | (none, _) => _
        | (some grant, lock) => _) n w).trace = _
      rw [hlock]
      rfl
    rw [hruns, htrace]
    exact ⟨List.nil_sublist _, by simp, by simp⟩
  · have hruns : batchRuns env n w = groupRuns env (tabOf (batchCandidates (collectRecordRows w.tabs))) grant
        (groupForBatch (liveResumeTemplates w) (batchCandidates (collectRecordRows w.tabs))).groups n { w with lock } := by
      unfold batchRuns
      rw [hlock]
    rw [hruns, trace_runBatchRebuild hlock]
    refine ⟨(map_group_groupRuns _ _ _).symm ▸ List.Sublist.refl _, fun e he => ?_, fun run hrun => ?_⟩
    · have hlocked : ∀ {pre post : World}, Untouched pre post → Silent [.wrote pre post] := fun h => silent_nil.wrote h
      rcases List.mem_cons.1 he with rfl | he
      · exact .inl (hlocked ⟨rfl, rfl⟩)
      · rcases List.mem_append.1 he with he | he
        · exact mem_trace_runGroups _ _ _ e he
        · obtain rfl := List.mem_singleton.1 he
          exact .inl (hlocked ⟨rfl, rfl⟩)
    · obtain ⟨n', hout⟩ := mem_groupRuns _ _ _ run hrun
      rw [hout]
      exact safe_runGroup henv run.group n' run.start

end Batch

/-- What the pane showed before and after each write. -/
def shown (tabId paneId : String) (t : List Step) : List (Option TmuxSessionContent × Option TmuxSessionContent) :=
  t.filterMap fun
    | .wrote pre post => some (pre.readTerminalPane tabId paneId, post.readTerminalPane tabId paneId)
    | _ => none

theorem shown_of_quiet {t : List Step} (h : Quiet t) (tabId paneId : String) : ∀ p ∈ shown tabId paneId t, p.1 = p.2 := by
  intro p hp
  obtain ⟨e, he, hshown⟩ := List.mem_filterMap.1 hp
  cases e with
  | asked => cases hshown
  | wrote pre post =>
    obtain rfl := Option.some.inj hshown
    show pre.readTerminalPane tabId paneId = post.readTerminalPane tabId paneId
    rw [World.readTerminalPane, World.readTerminalPane, (h pre post he).1]

/-- Two dead panes of one session, and one of another before them. -/
def threeLost : World :=
  { lostWorld with
    tabs := (Record.empty.set "t2" ⟨"t2", false, false, .split "s" .h [.leaf ⟨"a", .tmuxSession lostPane⟩, .leaf ⟨"b", .tmuxSession lostPane⟩]⟩).set
      "t1" ⟨"t1", false, false, .leaf ⟨"c", .tmuxSession { lostPane with sessionCode := "gone" }⟩⟩ }

/-- The first of the two was rebuilt alone, and its resume was lost. -/
def rebuiltOnce : World :=
  ((rebuildPane "h" "t2" "a" ⟨true, true, true⟩ none none).play (daemonSaying (.rejected "offline")) 0 threeLost).state

/-- It is closed while the batch waits for its first create. -/
def closing : Env Daemon World where
  answer := (daemonSaying (.ok ())).answer
  meanwhile n s := if n = 0 then { s with tabs := s.tabs.set "t2" ⟨"t2", false, false, .leaf ⟨"b", .tmuxSession lostPane⟩⟩ } else s

/-- The group of the closed pane is refused, and its other pane is put onto the session of the earlier rebuild. -/
theorem not_safe_closing : ¬∀ run ∈ batchRuns closing 0 rebuiltOnce, GroupSafe run.group run.out.trace := by
  intro h
  have hstale : ∃ run ∈ batchRuns closing 0 rebuiltOnce, creates run.out.trace = [] ∧ ¬∀ p ∈ shown "t2" "b" run.out.trace, p.1 = p.2 := by
    decide
  obtain ⟨run, hrun, hcreates, hshown⟩ := hstale
  have hquiet : Quiet run.out.trace := (h run hrun).nothing fun host session hmem => by
    rw [hcreates] at hmem
    cases hmem
  exact hshown (shown_of_quiet hquiet "t2" "b")

/-- In that batch the group before it is safe. -/
theorem safe_before_closing : ∃ run ∈ batchRuns closing 0 rebuiltOnce, GroupSafe run.group run.out.trace ∧ run.out.value.report.repointed = true := by
  have hgroup : ∃ run ∈ batchRuns closing 0 rebuiltOnce, ¬StaleSource run.grant run.group run.start ∧ run.out.value.report.repointed = true := by
    decide
  obtain ⟨run, hrun, hfresh, hrepointed⟩ := hgroup
  have henv : ∀ n s, LeavesHeld s (closing.meanwhile n s) := by
    intro n s
    show LeavesHeld s (if n = 0 then _ else s)
    split
    · exact ⟨fun _ _ h _ => h, fun _ => rfl⟩
    · exact LeavesHeld.refl s
  exact ⟨run, hrun, ((runBatchRebuild_safe closing henv 0 rebuiltOnce).2.2.2 run hrun).2 hfresh, hrepointed⟩

end Purdex.Rebuild
