/-
Retrying the resume and attaching without it: what both may do to the session that the rebuild created, over any
sequence of rebuilds, retries and attaches of a pane.
-/
import Purdex.Rebuild.Runs

namespace Purdex.Rebuild

open Conc Json Panes

/-! ## The tail -/

/-- Why the code is not provably the created session's any more, as the daemon on the pinned host has it. -/
def targetIdentityRefusal (pinned : PinnedTransport) (created : Session) : RebuildM (Option String) :=
  if created.generation = "" then
    pure (some s!"this rebuild never learnt which tmux generation session {created.code} belongs to, so it cannot be re-attached")
  else do
    let answer ← pinned.getSession created.code
    match answer with
    | .error err =>
      pure (some s!"could not confirm which tmux generation session {created.code} on {pinned.hostId} belongs to: {err.message}")
    | .ok none => pure (some s!"session {created.code} no longer exists on {pinned.hostId}")
    | .ok (some live) =>
      if live.generation = "" then
        pure (some s!"{pinned.hostId} could not report which tmux generation session {created.code} belongs to")
      else if live.generation ≠ created.generation then
        pure (some s!"session {created.code} on {pinned.hostId} now belongs to tmux generation {live.generation}, not the {created.generation} this rebuild created")
      else pure none

/-- A refusal stays on the report, be a resume wanted or not. -/
def refuseTail (report : RebuildReport) (withResume : Bool) (reason : String) (refusal : Option Refusal) : RebuildReport :=
  { report with
    steps := { report.steps with
      resume := if withResume = true ∨ refusal.isSome then ⟨.failed, some reason, refusal⟩ else skipped (some "not requested")
      repoint := failed reason }
    repointed := false }

def publishTailRefusal (paneId : String) (withResume : Bool) (reason : String) (refusal : Option Refusal) : RebuildM RebuildReport := do
  let w ← Async.read
  match w.operation paneId with
  | none => pure (refusedReport "" .resume reason)
  | some op => do
    let report := refuseTail { op.report with repointed := false } withResume reason refusal
    publish paneId report op.createdSession
    pure report

/-- An operation that a retry can act on: what it created, and where. -/
def RebuildOperation.target (op : RebuildOperation) : Option (Session × HostIdentity) :=
  match op.createdSession, op.host with
  | some created, some host => some (created, host)
  | _, _ => none

def unrecorded (paneId : String) (op : Option RebuildOperation) : RebuildReport :=
  refusedReport ((op.map (·.hostId)).getD "") .resume s!"no completed rebuild is recorded for pane {paneId}"

def runResumeTail (paneId : String) (withResume : Bool) : RebuildM RebuildReport := do
  let w ← Async.read
  match w.operation paneId with
  | none => pure (unrecorded paneId none)
  | some op =>
    match op.target with
    | none => pure (unrecorded paneId (some op))
    | some (created, host) => do
      Async.modify fun w => w.patchOperation paneId fun op => { op with status := .running }
      let report := { op.report with repointed := false }
      match pinHost op.hostId (some host) w with
      | .error err => do
        let report := refuseTail report withResume err.message none
        publish paneId report (some created)
        pure report
      | .ok identity => do
        let pinned : PinnedTransport := ⟨op.hostId, identity⟩
        let refusal ← targetIdentityRefusal pinned created
        await .turn
        match refusal with
        | some reason => do
          let report := refuseTail report withResume reason none
          publish paneId report (some created)
          pure report
        | none => do
          let ctx : StepContext :=
            { tabId := op.tabId, paneId, pinned, binding := op.binding, resumeCommand := op.resumeCommand
              created := some created, fallbackCode := op.binding.sessionCode, report }
          runSteps ctx withResume

def resumeTail (paneId : String) (withResume : Bool) : RebuildM RebuildReport := do
  let held (holder : String) := publishTailRefusal paneId withResume s!"another operation is already running ({holder})" none
  let w ← Async.read
  match w.operation paneId with
  | none => pure (unrecorded paneId none)
  | some op =>
    match op.target with
    | none => pure (unrecorded paneId (some op))
    | some (created, _) =>
      if op.status = .running then pure (refusedReport op.hostId .resume s!"a rebuild is already running for pane {paneId}")
      else if op.report.steps.resume.refusal = some .generation then do
        let reason := op.report.steps.resume.error.getD s!"session {created.code} belongs to another tmux generation"
        publishTailRefusal paneId withResume reason (some .generation)
      else withOperationLock (paneOwner paneId) (runResumeTail paneId withResume) held none

def retryResume (paneId : String) : RebuildM RebuildReport := resumeTail paneId true

def attachAnyway (paneId : String) : RebuildM RebuildReport := resumeTail paneId false

/-! ## What a tail may do -/

/-- The daemon of the host said that the code is still of the generation that the session was created in. -/
def Confirmed (host : HostIdentity) (created : Session) (t : List Step) : Prop :=
  created.generation ≠ "" ∧ ∃ live pre, .asked (.getSession host created.code : Request) (.ok live : Response Session) pre ∈ t ∧
    live.generation = created.generation

theorem Confirmed.append {host : HostIdentity} {created : Session} {t : List Step} (h : Confirmed host created t) (l : List Step) :
    Confirmed host created (l ++ t) := by
  obtain ⟨hne, live, pre, hmem, hlive⟩ := h
  exact ⟨hne, live, pre, List.mem_append_right _ hmem, hlive⟩

/-- The report of the pane's operation says that the daemon refused the keystroke. -/
def Refused (paneId : String) (w : World) : Prop :=
  ∃ op ∈ w.operation paneId, op.report.steps.resume.refusal = some .generation

instance (paneId : String) (w : World) : Decidable (Refused paneId w) := inferInstanceAs (Decidable (∃ op ∈ w.operation paneId, _))

/-- What others do to the operation of a pane: a running one is left to its call, the created session stays, and
so does a refusal. -/
structure LeavesOperation (paneId : String) (a b : World) : Prop where
  running : ∀ op, a.operation paneId = some op → op.status = .running → b.operation paneId = some op
  held : b.holds paneId = a.holds paneId
  refused : Refused paneId a → Refused paneId b

theorem LeavesOperation.refl (paneId : String) (w : World) : LeavesOperation paneId w w := ⟨fun _ h _ => h, rfl, id⟩

theorem LeavesOperation.trans {paneId : String} {a b c : World} (h : LeavesOperation paneId a b) (h' : LeavesOperation paneId b c) :
    LeavesOperation paneId a c :=
  ⟨fun op hop hrunning => h'.running op (h.running op hop hrunning) hrunning, h'.held.trans h.held, h'.refused ∘ h.refused⟩

/-- Keystrokes and re-points are for the session that the pane holds in `start`, and confirmed. -/
def tailTerms (paneId : String) (start : World) : Terms Daemon World where
  rely := LeavesOperation paneId
  asks earlier _ o :=
    match o with
    | .turn => True
    | .create .. => False
    | .getSession host code => ∃ created, start.holds paneId = some (created, some host) ∧ code = created.code
    | .sendKeys host code _ expected => ∃ created, start.holds paneId = some (created, some host) ∧ code = created.code ∧
      expected = created.generation ∧ Confirmed host created earlier
  writes earlier pre post := Untouched pre post ∨ ∃ created host tabId hostId, start.holds paneId = some (created, some host) ∧
    Confirmed host created earlier ∧ pre.hosts.get? hostId = some host ∧ PutsOn tabId paneId created pre post

theorem plain_tailTerms (paneId : String) (start : World) : Plain (tailTerms paneId start) where
  refl := LeavesOperation.refl paneId
  trans := LeavesOperation.trans
  turn _ _ := trivial
  quiet _ _ _ h := .inl h

section Rules

variable {T : Terms Daemon World} {s : World} {t : List Step}

theorem does_getSession {pinned : PinnedTransport} {code : String} {Q : Except ApiError (Option Session) → World → List Step → Prop}
    (hhost : HostUnchanged pinned s) (hasks : T.asks t s (.getSession pinned.identity code))
    (hanswer : ∀ answer r s', T.rely s s' → (∀ live, answer = .ok (some live) → r = .ok live) →
      Q answer s' (.asked (.getSession pinned.identity code) r s :: t)) : (pinned.getSession code).Does T s t Q := by
  refine does_asserted hhost (does_request hasks fun r s' hrely => ?_)
  cases r with
  | ok live => exact hanswer _ _ s' hrely fun live' heq => by rw [Option.some.inj (Except.ok.inj heq)]
  | status status text =>
    refine hanswer _ _ s' hrely fun live heq => ?_
    split at heq <;> cases heq
  | rejected message => exact hanswer _ _ s' hrely nofun

theorem does_targetIdentityRefusal (hT : Plain T) {pinned : PinnedTransport} {created : Session} (hhost : HostUnchanged pinned s)
    (hasks : T.asks t s (.getSession pinned.identity created.code)) :
    (targetIdentityRefusal pinned created).Does T s t fun refusal s' t' => T.rely s s' ∧
      ∃ l, t' = l ++ t ∧ Silent l ∧ (refusal = none → Confirmed pinned.identity created t') := by
  unfold targetIdentityRefusal
  by_cases hunknown : created.generation = ""
  · rw [if_pos hunknown]
    exact ⟨hT.refl s, [], rfl, silent_nil, nofun⟩
  · rw [if_neg hunknown]
    refine does_bind.2 (does_getSession hhost hasks fun answer r s' hrely hlive => ?_)
    have hasked : Silent [.asked (.getSession pinned.identity created.code : Request) r s] := ⟨rfl, rfl, quiet_nil.asked⟩
    rcases answer with err | _ | live
    · exact ⟨hrely, _, rfl, hasked, nofun⟩
    · exact ⟨hrely, _, rfl, hasked, nofun⟩
    · obtain rfl := hlive live rfl
      dsimp only
      by_cases hempty : live.generation = ""
      · rw [if_pos hempty]
        exact ⟨hrely, _, rfl, hasked, nofun⟩
      · rw [if_neg hempty]
        by_cases hsame : live.generation = created.generation
        · rw [if_neg (not_not.2 hsame)]
          exact ⟨hrely, _, rfl, hasked, fun _ => ⟨hunknown, live, s, .head _, hsame⟩⟩
        · rw [if_pos hsame]
          exact ⟨hrely, _, rfl, hasked, nofun⟩

theorem target_eq_some {op : RebuildOperation} {created : Session} {host : HostIdentity} :
    op.target = some (created, host) ↔ op.createdSession = some created ∧ op.host = some host := by
  unfold RebuildOperation.target
  cases op.createdSession <;> cases op.host <;> simp

theorem does_publishTailRefusal (hT : Plain T) (paneId : String) (withResume : Bool) (reason : String) (refusal : Option Refusal) :
    (publishTailRefusal paneId withResume reason refusal).Does T s t fun _ s' t' => (∃ l, t' = l ++ t ∧ Silent l) ∧
      s'.holds paneId = s.holds paneId ∧ (refusal = some .generation → (s.operation paneId).isSome → Refused paneId s') ∧
      ∀ other, other ≠ paneId → s'.operation other = s.operation other := by
  unfold publishTailRefusal
  refine does_read ?_
  cases hop : s.operation paneId with
  | none => exact ⟨⟨[], rfl, silent_nil⟩, rfl, fun _ => nofun, fun _ _ => rfl⟩
  | some op =>
    let report := refuseTail { op.report with repointed := false } withResume reason refusal
    have hpublished : (s.finishOperation paneId fun prev => { prev with report, createdSession := op.createdSession }).operation paneId =
        some { op with report, status := .done } := by
      rw [World.finishOperation, operation_patchOperation, if_pos rfl, hop]
      rfl
    refine does_modify (hT.quiet _ (untouched_patchOperation _)) ⟨⟨[.wrote s _], rfl, silent_nil.wrote (untouched_patchOperation _)⟩,
      ?_, fun hrefusal _ => ⟨_, hpublished, ?_⟩, fun other hother => (operation_patchOperation _ _).trans (if_neg hother)⟩
    · rw [World.holds, hpublished, World.holds, hop]
      rfl
    · show (refuseTail _ withResume reason refusal).steps.resume.refusal = _
      rw [hrefusal]
      simp [refuseTail]

end Rules

section Tail

variable {paneId : String} {start s : World} {t : List Step}

/-- A report that is published leaves the pane what it holds. -/
theorem holds_finishOperation {w : World} {op : RebuildOperation} (hop : w.operation paneId = some op) (report : RebuildReport)
    (created : Option Session) :
    (w.finishOperation paneId fun op => { op with report, createdSession := created }).holds paneId = created.map (·, op.host) := by
  rw [World.holds, World.finishOperation, operation_patchOperation, if_pos rfl, hop]
  rfl

theorem does_runResumeTail (hstart : s.holds paneId = start.holds paneId) (withResume : Bool) :
    (runResumeTail paneId withResume).Does (tailTerms paneId start) s t fun _ s' _ =>
      s'.holds paneId = s.holds paneId := by
  have hT := plain_tailTerms paneId start
  have hrunning : KeepsRunning (tailTerms paneId start).rely paneId := fun a b h => h.running
  unfold runResumeTail
  refine does_read ?_
  cases hop : s.operation paneId with
  | none => exact does_pure rfl
  | some op =>
    dsimp only
    cases htarget : op.target with
    | none => exact does_pure rfl
    | some target =>
      obtain ⟨created, host⟩ := target
      obtain ⟨hcreated, hhost⟩ := target_eq_some.1 htarget
      have hheld : s.holds paneId = some (created, some host) := by
        rw [World.holds, hop, Option.bind_some, hcreated, hhost]
        rfl
      let op₁ : RebuildOperation := { op with status := .running }
      let s₁ := s.patchOperation paneId fun op => { op with status := .running }
      have hop₁ : s₁.operation paneId = some op₁ := by
        rw [operation_patchOperation, if_pos rfl, hop]
        rfl
      -- the operation is this call's own from here to its report
      have hown : ∀ s', LeavesOperation paneId s₁ s' → s'.operation paneId = some op₁ := fun s' h => h.running op₁ hop₁ rfl
      refine does_modify (hT.quiet _ (untouched_patchOperation _)) ?_
      cases hpin : pinHost op.hostId (some host) s with
      | error err =>
        refine does_modify (hT.quiet _ (untouched_patchOperation _)) (does_pure ?_)
        rw [holds_finishOperation hop₁, hheld, hhost]
        rfl
      | ok identity =>
        obtain ⟨hconfigured, hwant⟩ := pinHost_ok hpin
        obtain rfl := hwant host rfl
        have hunchanged : HostUnchanged ⟨op.hostId, identity⟩ s₁ := by
          refine hostUnchanged_iff.2 ?_
          show s₁.hosts.get? op.hostId = some identity
          rw [← hconfigured]
          simp only [s₁, World.patchOperation]
          split <;> rfl
        refine does_seq (does_targetIdentityRefusal hT hunchanged ⟨created, hstart ▸ hheld, rfl⟩) ?_
        rintro refusal s₂ _ ⟨hrely₂, l₂, rfl, hl₂, hconfirmed⟩
        refine does_request (hT.turn _ _) fun r s₃ hrely₃ => ?_
        have hop₃ := hown s₃ (hrely₂.trans hrely₃)
        cases refusal with
        | some reason =>
          refine does_modify (hT.quiet _ (untouched_patchOperation _)) (does_pure ?_)
          rw [holds_finishOperation hop₃, hheld, hhost]
          rfl
        | none =>
          have hconfirmed₃ := (hconfirmed rfl).append [.asked (.turn : Request) r s₂]
          refine does_mono ?_ (does_runSteps hT (fun _ keys => ⟨created, hstart ▸ hheld, rfl, rfl, hconfirmed₃⟩)
            fun l report session pre post h => ?_)
          · rintro report s' _ ⟨_, hsettled⟩
            rw [World.holds, hsettled hrunning op₁ hop₃ rfl, hheld]
            show some (created, op.host) = _
            rw [hhost]
          · obtain rfl := Option.some.inj h.is_created
            obtain ⟨content, hcontent, _⟩ := h.bound
            rw [h.post]
            exact .inr ⟨created, identity, op.tabId, op.hostId, hstart ▸ hheld, hconfirmed₃.append l, hostUnchanged_iff.1 h.host,
              putsOn_defaultRepoint hcontent⟩

/-- A tail leaves the pane what it holds, and does nothing at all where the keystroke was refused. -/
theorem does_resumeTail (paneId : String) (start : World) (withResume : Bool) :
    (resumeTail paneId withResume).Does (tailTerms paneId start) start [] fun _ s' t' =>
      s'.holds paneId = start.holds paneId ∧ (Refused paneId start → Silent t' ∧ Refused paneId s') := by
  have hT := plain_tailTerms paneId start
  unfold resumeTail
  refine does_read ?_
  cases hop : start.operation paneId with
  | none => exact does_pure ⟨rfl, fun h => ⟨silent_nil, h⟩⟩
  | some op =>
    dsimp only
    cases htarget : op.target with
    | none => exact does_pure ⟨rfl, fun h => ⟨silent_nil, h⟩⟩
    | some target =>
      obtain ⟨created, host⟩ := target
      dsimp only
      by_cases hrunning : op.status = .running
      · rw [if_pos hrunning]
        exact does_pure ⟨rfl, fun h => ⟨silent_nil, h⟩⟩
      · rw [if_neg hrunning]
        by_cases hrefusal : op.report.steps.resume.refusal = some .generation
        · rw [if_pos hrefusal]
          refine does_mono ?_ (does_publishTailRefusal hT paneId withResume _ _)
          rintro _ s' _ ⟨⟨l, rfl, hl⟩, hheld, hkept, _⟩
          rw [List.append_nil]
          exact ⟨hheld, fun _ => ⟨hl, hkept rfl (by rw [hop]; rfl)⟩⟩
        · rw [if_neg hrefusal]
          have hnot : ¬Refused paneId start := by
            rintro ⟨op', hop', h⟩
            obtain rfl := Option.some.inj (hop.symm.trans hop')
            exact hrefusal h
          refine does_withOperationLock hT (P := fun _ s' _ => s'.holds paneId = start.holds paneId) (fun _ => ?_)
            (fun lock _ => ?_) fun _ s₁ _ _ s₂ lock hheld hrely => ⟨?_, fun h => absurd h hnot⟩
          · refine does_mono ?_ (does_publishTailRefusal hT paneId withResume _ _)
            rintro _ s' _ ⟨_, hheld, _⟩
            exact ⟨hheld, fun h => absurd h hnot⟩
          · have hsame : World.holds { start with lock } paneId = start.holds paneId := rfl
            exact does_runResumeTail hsame withResume
          · have hsame : World.holds { s₂ with lock } paneId = s₁.holds paneId := hrely.held
            exact hsame.trans hheld

end Tail

/-! ## Sequences of calls -/

/-- The calls for one pane; what only a rebuild is told is given with it. -/
inductive PaneCall where
  | rebuildPane (hostId tabId : String) (plan : RebuildPlan) (lockGrant : Option OperationLockGrant)
    (expectedBinding : Option SessionBinding)
  | retryResume
  | attachAnyway

/-- A call, with all that happens while it waits, or what happens between two calls. -/
inductive PaneEvent where
  | call (c : PaneCall) (env : Env Daemon World)
  | edit (f : World → World)

def PaneCall.run (paneId : String) : PaneCall → RebuildM RebuildReport
  | .rebuildPane hostId tabId plan lockGrant expectedBinding => Rebuild.rebuildPane hostId tabId paneId plan lockGrant expectedBinding
  | .retryResume => Rebuild.retryResume paneId
  | .attachAnyway => Rebuild.attachAnyway paneId

def PaneCall.lockGrant : PaneCall → Option OperationLockGrant
  | .rebuildPane _ _ _ lockGrant _ => lockGrant
  | _ => none

/-- What the event's own call did, and the stores after it. -/
def servePane (paneId : String) : PaneEvent → World → List Step × World
  | .call c env, w =>
    let out := (c.run paneId).play env 0 w
    (out.trace, out.state)
  | .edit f, w => ([], f w)

/-- Everything may happen around the calls of the pane but what only they do to its operation. -/
def PaneEvent.Fair (paneId : String) (w : World) : PaneEvent → Prop
  | .call _ env => ∀ n s, LeavesOperation paneId s (env.meanwhile n s)
  | .edit f => LeavesOperation paneId w (f w)

/-- Nothing was rebuilt on the pane yet. -/
def Unrebuilt (paneId : String) (w : World) : Prop := w.operation paneId = none

abbrev PaneRuns (paneId : String) : World → List (Served World PaneEvent (List Step)) → Prop :=
  Serves (servePane paneId) (Unrebuilt paneId) (PaneEvent.Fair paneId)

def PaneEvent.IsTail : PaneEvent → Prop
  | .call .retryResume _ | .call .attachAnyway _ => True
  | _ => False

def PaneEvent.IsRebuild : PaneEvent → Prop
  | .call (.rebuildPane ..) _ => True
  | _ => False

/-- A rebuild that was served created the session on the host, as that was configured when it began. -/
def CreatedBy (earlier : List (Served World PaneEvent (List Step))) (host : HostIdentity) (created : Session) : Prop :=
  ∃ e ∈ earlier, ∃ hostId tabId plan lockGrant expectedBinding env,
    e.request = .call (.rebuildPane hostId tabId plan lockGrant expectedBinding) env ∧ e.pre.hosts.get? hostId = some host ∧
      (host, .ok created) ∈ creates e.reply

/-- The call began an operation for the pane. -/
def Begins (paneId : String) (t : List Step) : Prop := ∃ pre op, op.paneId = paneId ∧ .wrote pre (pre.beginOperation op) ∈ t

section Calls

variable {paneId hostId tabId : String} {plan : RebuildPlan} {lockGrant : Option OperationLockGrant}
  {expectedBinding : Option SessionBinding} {env : Env Daemon World} {w : World}

/-- Anything may be asked and written. -/
def freeTerms (paneId : String) : Terms Daemon World where
  rely := LeavesOperation paneId
  asks _ _ _ := True
  writes _ _ _ := True

theorem Begins.of_suffix {t t' : List Step} (h : Begins paneId t) (hsuffix : t <:+ t') : Begins paneId t' := by
  obtain ⟨pre, op, hid, hmem⟩ := h
  exact ⟨pre, op, hid, hsuffix.subset hmem⟩

theorem does_of_begins {α : Type} {p : RebuildM α} {s : World} {t : List Step} {Q : World → Prop} (h : Begins paneId t) :
    p.Does (freeTerms paneId) s t fun _ s' t' => Begins paneId t' ∨ Q s' :=
  does_mono (fun _ _ _ hsuffix => .inl (h.of_suffix hsuffix)) (does_extends (fun _ _ _ => trivial) (fun _ _ _ => trivial) p s t)

theorem publishRefusal_begins (report : RebuildReport) {s : World} {t : List Step} :
    (publishRefusal hostId tabId paneId plan report).Does (freeTerms paneId) s t fun _ s' t' =>
      Begins paneId t' ∨ (Refused paneId s → Refused paneId s') := by
  unfold publishRefusal
  refine does_read ?_
  split
  next => exact does_pure (.inr id)
  next =>
    exact does_modify trivial (does_of_begins ⟨s, _, rfl, .head _⟩)

/-- A rebuild that begins no operation leaves the refusal of the last one. -/
theorem rebuildPane_begins (s : World) (t : List Step) :
    (rebuildPane hostId tabId paneId plan lockGrant expectedBinding).Does (freeTerms paneId) s t fun _ s' t' =>
      Begins paneId t' ∨ (Refused paneId s → Refused paneId s') := by
  have hT : Plain (freeTerms paneId) := ⟨LeavesOperation.refl paneId, LeavesOperation.trans, fun _ _ => trivial, fun _ _ _ _ => trivial⟩
  unfold rebuildPane
  refine does_read ?_
  split
  next => exact publishRefusal_begins _
  next =>
    refine does_withOperationLock hT (P := fun _ s' t' => Begins paneId t' ∨ (Refused paneId s → Refused paneId s'))
      (fun _ => publishRefusal_begins _) (fun lock _ => ?_) ?_
    · unfold runRebuild
      refine does_read ?_
      split
      next => exact publishRefusal_begins _
      next => exact does_modify trivial (does_of_begins ⟨_, _, rfl, .head _⟩)
    · rintro _ s₁ t₁ r s₂ lock hP hrely
      refine hP.imp (fun h => h.of_suffix ((List.suffix_cons _ _).trans (List.suffix_cons _ _))) fun h hrefused => ?_
      exact hrely.refused (h hrefused)

/-- What a rebuild of the pane leaves it holding is what it held, or what the run created. -/
theorem held_rebuildPane (henv : ∀ n s, LeavesOperation paneId s (env.meanwhile n s)) (hostId tabId : String) (plan : RebuildPlan)
    (lockGrant : Option OperationLockGrant) (expectedBinding : Option SessionBinding) :
    let out := (rebuildPane hostId tabId paneId plan lockGrant expectedBinding).play env 0 w
    out.state.holds paneId = w.holds paneId ∨ ∃ (identity : HostIdentity) (created : Option Session), w.hosts.get? hostId = some identity ∧
      out.state.holds paneId = created.map (·, some identity) ∧ ∀ session ∈ created, (identity, .ok session) ∈ creates out.trace := by
  intro out
  have hallows := allowsRebuild_rebuildTerms (LeavesOperation.refl paneId) LeavesOperation.trans hostId tabId paneId expectedBinding w
  obtain ⟨_, l, htrace, hrebuilt⟩ := (does_rebuildPane hallows plan lockGrant).play henv trivial
  rw [List.append_nil, List.append_nil] at htrace
  have hheld : KeepsHeld (LeavesOperation paneId) paneId := fun _ _ h => h.held
  by_cases hrefused : RebuildRefused hostId tabId paneId lockGrant expectedBinding w
  · exact .inl ((hrebuilt.1 hrefused).2 hheld)
  · obtain ⟨identity, content, created, htarget, hran, hholds⟩ := hrebuilt.2 hrefused
    refine .inr ⟨identity, created, (rebuildTarget_ok htarget).1, hholds (fun _ _ h => h.running) hheld, fun session hsession => ?_⟩
    have hmem := (hran.answered identity session).2 ⟨rfl, hsession⟩
    rw [← htrace] at hmem
    exact hmem

/-- A tail from `w` kept to its terms. -/
theorem kept_resumeTail (henv : ∀ n s, LeavesOperation paneId s (env.meanwhile n s)) (withResume : Bool) :
    let out := (resumeTail paneId withResume).play env 0 w
    (tailTerms paneId w).Kept out.trace ∧ out.state.holds paneId = w.holds paneId ∧
      (Refused paneId w → Silent out.trace ∧ Refused paneId out.state) := by
  intro out
  obtain ⟨hkept, hheld, hrefused⟩ := (does_resumeTail paneId w withResume).play henv trivial
  rw [List.append_nil] at hkept hrefused
  exact ⟨hkept, hheld, hrefused⟩

end Calls

/-! ## Over whole sequences -/

/-- What a pane holds was created by a rebuild of it, on the host that goes with it. -/
def HeldCreated (paneId : String) (s : World) (t : List (Served World PaneEvent (List Step))) : Prop :=
  ∀ created host, s.holds paneId = some (created, some host) → CreatedBy t host created

theorem CreatedBy.cons {t : List (Served World PaneEvent (List Step))} {host : HostIdentity} {created : Session}
    (h : CreatedBy t host created) (e : Served World PaneEvent (List Step)) : CreatedBy (e :: t) host created := by
  obtain ⟨e', he', hcreated⟩ := h
  exact ⟨e', .tail _ he', hcreated⟩

theorem heldCreated_runs {paneId : String} {s : World} {t : List (Served World PaneEvent (List Step))} (h : PaneRuns paneId s t) :
    HeldCreated paneId s t := by
  induction h with
  | init hfresh =>
    intro created host hheld
    rw [World.holds, show World.operation _ paneId = none from hfresh] at hheld
    cases hheld
  | @step s t k _ hfair ih =>
    have hsame : (servePane paneId k s).2.holds paneId = s.holds paneId →
        HeldCreated paneId (servePane paneId k s).2 (⟨k, s, (servePane paneId k s).1⟩ :: t) := by
      intro hsame created host hheld
      exact (ih created host (hsame ▸ hheld)).cons _
    cases k with
    | edit f => exact hsame (LeavesOperation.held hfair)
    | call c env =>
      cases c with
      | retryResume => exact hsame (kept_resumeTail hfair true).2.1
      | attachAnyway => exact hsame (kept_resumeTail hfair false).2.1
      | rebuildPane hostId tabId plan lockGrant expectedBinding =>
        rcases held_rebuildPane hfair hostId tabId plan lockGrant expectedBinding with hheld | ⟨identity, created, hhost, hheld, hcreates⟩
        · exact hsame hheld
        · intro session host hholds
          obtain ⟨session', hcreated, heq⟩ := Option.map_eq_some_iff.1 (hheld.symm.trans hholds)
          obtain ⟨rfl, hidentity⟩ := Prod.mk.inj heq
          obtain rfl := Option.some.inj hidentity
          exact ⟨_, .head _, hostId, tabId, plan, lockGrant, expectedBinding, env, rfl, hhost, hcreates _ hcreated⟩

/-- Retries and attaches never touch a stranger's session. -/
structure TailSafe (paneId : String) (s : World) (t : List (Served World PaneEvent (List Step))) : Prop where
  sent : ∀ later e earlier, t = later ++ e :: earlier → e.request.IsTail → ∀ after host code keys expected r pre before,
    e.reply = after ++ .asked (.sendKeys host code keys expected : Request) r pre :: before →
      ∃ created, CreatedBy earlier host created ∧ code = created.code ∧ expected = created.generation ∧ Confirmed host created before
  written : ∀ later e earlier, t = later ++ e :: earlier → e.request.IsTail → ∀ after pre post before,
    e.reply = after ++ .wrote pre post :: before → Untouched pre post ∨ ∃ created host tabId hostId, CreatedBy earlier host created ∧
      Confirmed host created before ∧ pre.hosts.get? hostId = some host ∧ PutsOn tabId paneId created pre post
  refused : ∀ later e earlier, t = later ++ e :: earlier → Refused paneId e.pre →
    (∀ x ∈ later ++ [e], x.request.IsRebuild → ¬Begins paneId x.reply) →
      Refused paneId s ∧ ∀ x ∈ later ++ [e], x.request.IsTail → Silent x.reply

/-- What was served at any point was served after a sequence of calls, and went on from there. -/
theorem runs_split {paneId : String} {s : World} {t : List (Served World PaneEvent (List Step))} (h : PaneRuns paneId s t) :
    ∀ later e earlier, t = later ++ e :: earlier → PaneRuns paneId e.pre earlier ∧ PaneEvent.Fair paneId e.pre e.request ∧
      e.reply = (servePane paneId e.request e.pre).1 := by
  induction h with
  | init => exact fun later e earlier heq => by simp at heq
  | @step s t k hruns hfair ih =>
    intro later e earlier heq
    cases later with
    | nil =>
      obtain ⟨rfl, rfl⟩ := List.cons.inj heq
      exact ⟨hruns, hfair, rfl⟩
    | cons first rest => exact ih rest e earlier (List.cons.inj heq).2

/-- A tail's reply is the trace of a run that kept to its terms. -/
theorem kept_of_isTail {paneId : String} {k : PaneEvent} {w : World} (htail : k.IsTail) (hfair : k.Fair paneId w) :
    (tailTerms paneId w).Kept (servePane paneId k w).1 ∧
      (Refused paneId w → Silent (servePane paneId k w).1 ∧ Refused paneId (servePane paneId k w).2) := by
  cases k with
  | edit f => exact htail.elim
  | call c env =>
    cases c with
    | rebuildPane => exact htail.elim
    | retryResume =>
      obtain ⟨hkept, _, hrefused⟩ := kept_resumeTail hfair true
      exact ⟨hkept, hrefused⟩
    | attachAnyway =>
      obtain ⟨hkept, _, hrefused⟩ := kept_resumeTail hfair false
      exact ⟨hkept, hrefused⟩

/-- A refusal outlasts every event but a rebuild that begins an operation. -/
theorem refused_serve {paneId : String} {k : PaneEvent} {w : World} (hfair : k.Fair paneId w)
    (hkeeps : k.IsRebuild → ¬Begins paneId (servePane paneId k w).1) (hrefused : Refused paneId w) :
    Refused paneId (servePane paneId k w).2 := by
  cases k with
  | edit f => exact LeavesOperation.refused hfair hrefused
  | call c env =>
    cases c with
    | retryResume => exact ((kept_resumeTail hfair true).2.2 hrefused).2
    | attachAnyway => exact ((kept_resumeTail hfair false).2.2 hrefused).2
    | rebuildPane hostId tabId plan lockGrant expectedBinding =>
      have henv : ∀ n s, LeavesOperation paneId s (env.meanwhile n s) := hfair
      have hdoes : (rebuildPane hostId tabId paneId plan lockGrant expectedBinding).Does (freeTerms paneId) w [] _ := rebuildPane_begins w []
      obtain ⟨_, hbegins⟩ := hdoes.play henv trivial
      rw [List.append_nil] at hbegins
      exact (hbegins.resolve_left (hkeeps trivial)) hrefused

/-- From a refusal on, tails are silent until a rebuild begins an operation. -/
theorem refused_runs {paneId : String} {s : World} {t : List (Served World PaneEvent (List Step))} (h : PaneRuns paneId s t) :
    ∀ later e earlier, t = later ++ e :: earlier → Refused paneId e.pre →
      (∀ x ∈ later ++ [e], x.request.IsRebuild → ¬Begins paneId x.reply) →
        Refused paneId s ∧ ∀ x ∈ later ++ [e], x.request.IsTail → Silent x.reply := by
  induction h with
  | init => exact fun later e earlier heq => by simp at heq
  | @step s t k _ hfair ih =>
    intro later e earlier heq hrefused hkeeps
    cases later with
    | nil =>
      obtain ⟨rfl, rfl⟩ := List.cons.inj heq
      refine ⟨refused_serve hfair (hkeeps _ (.head _)) hrefused, fun x hx htail => ?_⟩
      obtain rfl := List.mem_singleton.1 hx
      exact ((kept_of_isTail htail hfair).2 hrefused).1
    | cons first rest =>
      obtain ⟨rfl, hrest⟩ := List.cons.inj heq
      obtain ⟨hstill, hsilent⟩ := ih rest e earlier hrest hrefused fun x hx => hkeeps x (.tail _ hx)
      refine ⟨refused_serve hfair (hkeeps _ (.head _)) hstill, fun x hx htail => ?_⟩
      rcases List.mem_cons.1 hx with rfl | hx
      · exact ((kept_of_isTail htail hfair).2 hstill).1
      · exact hsilent x hx htail

theorem tailSafe_runs {paneId : String} {s : World} {t : List (Served World PaneEvent (List Step))} (h : PaneRuns paneId s t) :
    TailSafe paneId s t where
  sent later e earlier hsplit htail after host code keys expected r pre before hreply := by
    obtain ⟨hruns, hfair, heq⟩ := runs_split h later e earlier hsplit
    have hkept := (kept_of_isTail htail hfair).1
    rw [← heq, hreply] at hkept
    obtain ⟨created, hheld, hcode, hexpected, hconfirmed⟩ := (kept_of_append hkept).1
    exact ⟨created, heldCreated_runs hruns created host hheld, hcode, hexpected, hconfirmed⟩
  written later e earlier hsplit htail after pre post before hreply := by
    obtain ⟨hruns, hfair, heq⟩ := runs_split h later e earlier hsplit
    have hkept := (kept_of_isTail htail hfair).1
    rw [← heq, hreply] at hkept
    refine (kept_of_append hkept).1.imp_right ?_
    rintro ⟨created, host, tabId, hostId, hheld, hconfirmed, hhost, hputs⟩
    exact ⟨created, host, tabId, hostId, heldCreated_runs hruns created host hheld, hconfirmed, hhost, hputs⟩
  refused := refused_runs h

/-- A pane whose session is gone. -/
def lostPane : TmuxSessionContent where
  hostId := "h"
  sessionCode := "dead"
  mode := .terminal
  cachedName := "work"
  tmuxInstance := "g1"
  terminated := some .sessionClosed
  rebuild := some ⟨"work", "g1", some "/w", some .user, some ⟨"cc", some "abc-1", none, 0⟩, none, none, 0⟩

def lostWorld : World where
  tabs := Record.empty.set "t" ⟨"t", false, false, .leaf ⟨"p", .tmuxSession lostPane⟩⟩
  hosts := Record.empty.set "h" ⟨"10.0.0.1", 7860, none⟩
  sessions := Record.empty
  operations := Record.empty
  lock := .free
  agents := Record.empty

/-- A daemon that creates a session and knows it again, and what it says to keystrokes. -/
def daemonSaying (keys : Response Unit) : Env Daemon World where
  answer _ o :=
    match o with
    | .create .. => .ok ⟨"new", "work", some "g2"⟩
    | .getSession .. => .ok ⟨"new", "work", some "g2"⟩
    | .sendKeys .. => keys
    | .turn => ()
  meanwhile _ s := s

/-- The keystroke is lost, then refused on a retry, and the pane is not attached after that. -/
def lostThenRefused : World × List (Served World PaneEvent (List Step)) :=
  serveAll (servePane "p") [.call (.rebuildPane "h" "t" ⟨true, true, true⟩ none none) (daemonSaying (.rejected "offline")),
    .call .retryResume (daemonSaying (.status 409 "Conflict")), .call .attachAnyway (daemonSaying (.ok ()))] lostWorld []

theorem tailSafe_lostThenRefused : TailSafe "p" lostThenRefused.1 lostThenRefused.2 ∧ Refused "p" lostThenRefused.1 ∧
    lostThenRefused.2.map (fun e => sends e.reply) =
      [[], [(⟨"10.0.0.1", 7860, none⟩, "new", "g2")], [(⟨"10.0.0.1", 7860, none⟩, "new", "g2")]] :=
  ⟨tailSafe_runs (.step (.step (.step (.init rfl) fun _ _ => LeavesOperation.refl _ _) fun _ _ => LeavesOperation.refl _ _)
    fun _ _ => LeavesOperation.refl _ _), by decide, by decide⟩

end Purdex.Rebuild
