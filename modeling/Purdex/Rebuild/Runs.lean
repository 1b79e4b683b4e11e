/-
One run of a rebuild: which session it may put the pane onto, and what it leaves alone, however the tabs and
the hosts change while it waits.
-/
import Purdex.Rebuild.Engine

namespace Purdex.Rebuild

open Conc Json Panes

/-! ## Turns -/

/-- The creates of a run, newest first: the host each went to, and its answer. -/
def creates (t : List Step) : List (HostIdentity × Response Session) :=
  t.filterMap fun
    | .asked (.create host _ _ _) r _ => some (host, r)
    | _ => none

/-- The keystrokes of a run, newest first: the host, the session and the generation of each. -/
def sends (t : List Step) : List (HostIdentity × String × String) :=
  t.filterMap fun
    | .asked (.sendKeys host code _ expected) _ _ => some (host, code, expected)
    | _ => none

/-- No write of the run reached a pane or a cached session. -/
def Quiet (t : List Step) : Prop := ∀ pre post, .wrote pre post ∈ t → Untouched pre post

theorem creates_append (l t : List Step) : creates (l ++ t) = creates l ++ creates t := List.filterMap_append

theorem sends_append (l t : List Step) : sends (l ++ t) = sends l ++ sends t := List.filterMap_append

theorem Quiet.append {l t : List Step} (hl : Quiet l) (ht : Quiet t) : Quiet (l ++ t) := by
  intro pre post hmem
  rcases List.mem_append.1 hmem with hmem | hmem
  · exact hl pre post hmem
  · exact ht pre post hmem

theorem quiet_nil : Quiet [] := nofun

theorem Quiet.wrote {t : List Step} {pre post : World} (h : Untouched pre post) (ht : Quiet t) : Quiet (.wrote pre post :: t) := by
  intro pre' post' hmem
  rcases List.mem_cons.1 hmem with heq | hmem
  · obtain ⟨rfl, rfl⟩ := Turn.wrote.inj heq
    exact h
  · exact ht pre' post' hmem

theorem Quiet.asked {t : List Step} {o : Request} {r : Daemon.Res o} {pre : World} (ht : Quiet t) : Quiet (.asked o r pre :: t) := by
  intro pre' post' hmem
  rcases List.mem_cons.1 hmem with heq | hmem
  · cases heq
  · exact ht pre' post' hmem

/-! ## The create -/

/-- The environment composes, waiting is always allowed, and so is a write that reaches no pane. -/
structure Plain (T : Terms Daemon World) : Prop where
  refl : ∀ s, T.rely s s
  trans : ∀ {a b c}, T.rely a b → T.rely b c → T.rely a c
  turn : ∀ t s, T.asks t s .turn
  quiet : ∀ t {pre post}, Untouched pre post → T.writes t pre post

/-- What attempts at a create come to: only a duplicate name is followed by another. -/
inductive Attempts (host : HostIdentity) : Nat → List Step → Except ApiError Session → Prop where
  | unsent {left err} : ¬isDuplicateName err → Attempts host left [] (.error err)
  | created {left name cwd session pre} :
    Attempts host left [.asked (.create host name cwd "terminal") (.ok session) pre] (.ok session)
  | failed {left name cwd r err pre} : (∀ session, r ≠ .ok session) →
    Attempts host left [.asked (.create host name cwd "terminal") r pre] (.error err)
  | retried {left name cwd text pre l outcome} : Attempts host left l outcome →
    Attempts host (left + 1) (l ++ [.asked (.create host name cwd "terminal") (.status 409 text) pre]) outcome

section Attempts

variable {host : HostIdentity} {left : Nat} {l : List Step} {outcome : Except ApiError Session}

theorem Attempts.length (h : Attempts host left l outcome) : (creates l).length ≤ left + 1 := by
  induction h with
  | unsent => simp [creates]
  | created => simp [creates]
  | failed => simp [creates]
  | retried _ ih =>
    rw [creates_append, List.length_append]
    exact Nat.add_le_add_right ih 1

theorem Attempts.retries (h : Attempts host left l outcome) : ∀ c ∈ (creates l).tail, ∃ text, c.2 = .status 409 text := by
  induction h with
  | unsent => simp [creates]
  | created => simp [creates]
  | failed => simp [creates]
  | @retried _ _ _ text _ l _ _ ih =>
    rw [creates_append]
    intro c hc
    cases hl : creates l with
    | nil =>
      rw [hl] at hc
      cases hc
    | cons first rest =>
      rw [hl] at hc ih
      rcases List.mem_append.1 hc with hc | hc
      · exact ih c hc
      · obtain rfl := List.mem_singleton.1 hc
        exact ⟨text, rfl⟩

theorem Attempts.sends (h : Attempts host left l outcome) : Rebuild.sends l = [] := by
  induction h with
  | unsent => rfl
  | created => rfl
  | failed => rfl
  | retried _ ih => rw [sends_append, ih]; rfl

theorem Attempts.quiet (h : Attempts host left l outcome) : Quiet l := by
  induction h with
  | unsent => exact quiet_nil
  | created => exact quiet_nil.asked
  | failed => exact quiet_nil.asked
  | retried _ ih => exact ih.append quiet_nil.asked

/-- The session that came of the attempts is the one that any of them was answered with. -/
theorem Attempts.answered (h : Attempts host left l outcome) (c : HostIdentity) (session : Session) :
    (c, .ok session) ∈ creates l ↔ c = host ∧ outcome = .ok session := by
  induction h with
  | unsent => simp [creates]
  | created => simp [creates, eq_comm]
  | failed hr =>
    simp only [creates, List.filterMap_cons, List.filterMap_nil, List.mem_singleton, Prod.mk.injEq, reduceCtorEq, and_false,
      iff_false, not_and]
    exact fun _ heq => hr session heq.symm
  | retried _ ih =>
    rw [creates_append, List.mem_append, ih]
    simp [creates]

end Attempts

section Rules

variable {T : Terms Daemon World} {s : World} {t : List Step}

theorem does_unlessChanged {α : Type} {pinned : PinnedTransport} {send : RebuildM (Except ApiError α)}
    {Q : Except ApiError α → World → List Step → Prop} (hchanged : Q (.error pinned.changed) s t)
    (hsend : HostUnchanged pinned s → send.Does T s t Q) : (unlessChanged pinned send).Does T s t Q := by
  show (if HostUnchanged pinned s then send else pure (.error pinned.changed)).Does T s t Q
  split
  next h => exact hsend h
  next => exact hchanged

theorem does_asserted {α : Type} {pinned : PinnedTransport} {send : RebuildM (Except ApiError α)}
    {Q : Except ApiError α → World → List Step → Prop} (h : HostUnchanged pinned s) (hsend : send.Does T s t Q) :
    (pinned.asserted send).Does T s t Q := by
  unfold PinnedTransport.asserted
  refine does_read ?_
  rw [if_pos h]
  exact hsend

/-- One attempt. -/
theorem does_createSession {pinned : PinnedTransport} {name cwd : String}
    {Q : Except ApiError Session → World → List Step → Prop} (hasks : T.asks t s (.create pinned.identity name cwd "terminal"))
    (hchanged : Q (.error pinned.changed) s t)
    (hok : ∀ session s', T.rely s s' →
      Q (.ok session) s' (.asked (.create pinned.identity name cwd "terminal") (.ok session) s :: t))
    (hfailed : ∀ r err s', T.rely s s' → (∀ session, r ≠ .ok session) → (isDuplicateName err → ∃ text, r = .status 409 text) →
      Q (.error err) s' (.asked (.create pinned.identity name cwd "terminal") r s :: t)) :
    (unlessChanged pinned (pinned.createSession name cwd "terminal")).Does T s t Q := by
  refine does_unlessChanged hchanged fun hhost => does_asserted hhost (does_request hasks fun r s' hrely => ?_)
  cases r with
  | ok session => exact hok session s' hrely
  | status status text =>
    refine hfailed _ _ s' hrely nofun fun hdup => ⟨text, ?_⟩
    rw [Option.some.inj (show some status = some 409 from hdup)]
  | rejected message => exact hfailed _ _ s' hrely nofun nofun

theorem does_createFrom (hT : Plain T) {pinned : PinnedTransport} {baseName cwd : String}
    (hasks : ∀ t s name, T.asks t s (.create pinned.identity name cwd "terminal")) (left : Nat) : ∀ (attempt : Nat) (s : World)
    (t : List Step), (createFrom pinned baseName cwd attempt left).Does T s t fun outcome s' t' =>
      T.rely s s' ∧ ∃ l, t' = l ++ t ∧ Attempts pinned.identity left l outcome := by
  induction left with
  | zero =>
    intro attempt s t
    unfold createFrom
    exact does_createSession (hasks _ _ _) ⟨hT.refl s, [], rfl, .unsent nofun⟩
      (fun session s' hrely => ⟨hrely, _, rfl, .created⟩) (fun r err s' hrely hr _ => ⟨hrely, _, rfl, .failed hr⟩)
  | succ left ih =>
    intro attempt s t
    unfold createFrom
    refine does_bind.2 (does_createSession (hasks _ _ _) ⟨hT.refl s, [], rfl, .unsent nofun⟩
      (fun session s' hrely => ⟨hrely, _, rfl, .created⟩) (fun r err s' hrely hr hretry => ?_))
    by_cases hdup : isDuplicateName err
    · obtain ⟨text, rfl⟩ := hretry hdup
      dsimp only
      rw [if_pos hdup]
      refine does_mono ?_ (ih _ _ _)
      rintro outcome s'' t' ⟨hrely', l, rfl, hl⟩
      exact ⟨hT.trans hrely hrely', _, by rw [List.append_assoc]; rfl, .retried hl⟩
    · dsimp only
      rw [if_neg hdup]
      exact ⟨hrely, _, rfl, .failed hr⟩

/-! ## The resume and the re-point -/

theorem does_sendKeys {pinned : PinnedTransport} {code command expected : String} {Q : Except ApiError Unit → World → List Step → Prop}
    (hexpected : expected ≠ "") (hasks : T.asks t s (.sendKeys pinned.identity code (command ++ "\n") expected))
    (hchanged : Q (.error pinned.changed) s t)
    (hsent : ∀ outcome r s', T.rely s s' →
      Q outcome s' (.asked (.sendKeys pinned.identity code (command ++ "\n") expected) r s :: t)) :
    (unlessChanged pinned (pinned.sendKeys code command expected)).Does T s t Q := by
  refine does_unlessChanged hchanged fun hhost => ?_
  unfold PinnedTransport.sendKeys
  rw [if_neg hexpected]
  refine does_asserted hhost (does_request hasks fun r s' hrely => ?_)
  cases r with
  | ok => exact hsent _ _ s' hrely
  | status status text => exact hsent _ _ s' hrely
  | rejected message => exact hsent _ _ s' hrely

/-- A keystroke at most, under the generation of the session it is for. -/
def Keystroke (ctx : StepContext) (l : List Step) : Prop :=
  l = [] ∨ ∃ keys r pre, l = [.asked (.sendKeys ctx.pinned.identity ctx.code keys ctx.expectedTmuxInstance) r pre]

theorem does_runResumeStep (hT : Plain T) {ctx : StepContext} {enabled : Bool}
    (hasks : enabled = true → ∀ keys, T.asks t s (.sendKeys ctx.pinned.identity ctx.code keys ctx.expectedTmuxInstance)) :
    (runResumeStep ctx enabled).Does T s t fun report s' t' =>
      T.rely s s' ∧ (∃ step, report = ctx.report.withResume step) ∧ ∃ l, t' = l ++ t ∧ Keystroke ctx l := by
  have hnone : ∀ step, T.rely s s ∧ (∃ step', ctx.report.withResume step = ctx.report.withResume step') ∧
      ∃ l, t = l ++ t ∧ Keystroke ctx l := fun step => ⟨hT.refl s, ⟨step, rfl⟩, [], rfl, .inl rfl⟩
  unfold runResumeStep
  by_cases henabled : enabled = false
  · rw [if_pos henabled]
    exact hnone _
  · rw [if_neg henabled]
    by_cases hcommand : ctx.resumeCommand = ""
    · rw [if_pos hcommand]
      exact hnone _
    · rw [if_neg hcommand]
      by_cases hempty : ctx.expectedTmuxInstance = ""
      · rw [if_pos hempty]
        exact hnone _
      · rw [if_neg hempty]
        refine does_bind.2 (does_sendKeys hempty (hasks (by simpa using henabled) _) (hnone _) fun outcome r s' hrely => ?_)
        cases outcome with
        | ok => exact ⟨hrely, ⟨_, rfl⟩, _, rfl, .inr ⟨_, _, _, rfl⟩⟩
        | error err => exact ⟨hrely, ⟨_, rfl⟩, _, rfl, .inr ⟨_, _, _, rfl⟩⟩

/-- The pane is still bound as it was, on the host as it was pinned, and shows the created session next. -/
structure Repoint (ctx : StepContext) (report : RebuildReport) (created : Session) (pre post : World) : Prop where
  is_created : ctx.created = some created
  resumed : report.steps.resume.status ≠ .failed
  host : HostUnchanged ctx.pinned pre
  bound : pre.BindingUnchanged ctx.tabId ctx.paneId ctx.binding
  post : post = defaultRepoint ctx.tabId ctx.paneId created pre

theorem does_runRepointStep {ctx : StepContext}
    (hwrites : ∀ created post, Repoint ctx ctx.report created s post → T.writes t s post) :
    (runRepointStep ctx).Does T s t fun report s' t' =>
      (∃ step, report = ctx.report.withRepoint step ∧ s' = s ∧ t' = t) ∨
      (∃ created, Repoint ctx ctx.report created s s' ∧ report = { ctx.report.withRepoint .ok with repointed := true } ∧
        t' = .wrote s s' :: t) := by
  unfold runRepointStep
  by_cases hfailed : ctx.report.steps.resume.status = .failed
  · rw [if_pos hfailed]
    exact .inl ⟨_, rfl, rfl, rfl⟩
  · rw [if_neg hfailed]
    cases hcreated : ctx.created with
    | none => exact .inl ⟨_, rfl, rfl, rfl⟩
    | some created =>
      refine does_read ?_
      by_cases hhost : HostUnchanged ctx.pinned s
      · rw [if_neg (not_not.2 hhost)]
        by_cases hbound : s.BindingUnchanged ctx.tabId ctx.paneId ctx.binding
        · rw [if_neg (not_not.2 hbound)]
          have hrepoint : Repoint ctx ctx.report created s (defaultRepoint ctx.tabId ctx.paneId created s) :=
            ⟨hcreated, hfailed, hhost, hbound, rfl⟩
          exact does_modify (hwrites _ _ hrepoint) (.inr ⟨created, hrepoint, rfl, rfl⟩)
        · rw [if_pos hbound]
          exact .inl ⟨_, rfl, rfl, rfl⟩
      · rw [if_pos hhost]
        exact .inl ⟨_, rfl, rfl, rfl⟩

/-- What the resume and the re-point did. -/
structure Stepped (ctx : StepContext) (report : RebuildReport) (l : List Step) : Prop where
  created : report.created = ctx.report.created
  creates : creates l = []
  keystroke : ∃ k, Keystroke ctx k ∧ sends l = sends k
  repointed : (Quiet l ∧ report.repointed = ctx.report.repointed) ∨
    (report.repointed = true ∧ ∃ created pre post, Turn.wrote pre post ∈ l ∧ Repoint ctx report created pre post)
  published : ∃ pre post, Turn.wrote pre post ∈ l ∧
    post = pre.finishOperation ctx.paneId fun op => { op with report, createdSession := ctx.created }

/-- A running operation is its own call's. -/
def KeepsRunning (rely : World → World → Prop) (paneId : String) : Prop :=
  ∀ a b, rely a b → ∀ op, a.operation paneId = some op → op.status = .running → b.operation paneId = some op

theorem does_runSteps (hT : Plain T) {ctx : StepContext} {runResume : Bool}
    (hasks : runResume = true → ∀ keys, T.asks t s (.sendKeys ctx.pinned.identity ctx.code keys ctx.expectedTmuxInstance))
    (hwrites : ∀ l report created pre post, Repoint ctx report created pre post → T.writes (l ++ t) pre post) :
    (runSteps ctx runResume).Does T s t fun report s' t' => (∃ l, t' = l ++ t ∧ Stepped ctx report l) ∧
      (KeepsRunning T.rely ctx.paneId → ∀ op, s.operation ctx.paneId = some op → op.status = .running →
        s'.operation ctx.paneId = some { op with report, createdSession := ctx.created, status := .done }) := by
  refine does_seq (does_runResumeStep hT hasks) ?_
  rintro _ s₁ _ ⟨hrely₁, ⟨step, rfl⟩, l, rfl, hl⟩
  refine does_request (hT.turn _ _) fun r s₂ hrely₂ => ?_
  refine does_seq (does_runRepointStep fun created post h => ?_) ?_
  · exact hwrites (.asked (.turn : Request) r s₁ :: l) _ created s₂ post ⟨h.is_created, h.resumed, h.host, h.bound, h.post⟩
  have hkeep : KeepsRunning T.rely ctx.paneId → ∀ op, s.operation ctx.paneId = some op → op.status = .running →
      s₂.operation ctx.paneId = some op := by
    intro hkeeps op hop hrunning
    exact hkeeps _ _ (hT.trans hrely₁ hrely₂) op hop hrunning
  have hcreates : creates l = [] := by
    rcases hl with rfl | ⟨_, _, _, rfl⟩
    · rfl
    · rfl
  have hquiet : Quiet l := by
    rcases hl with rfl | ⟨_, _, _, rfl⟩
    · exact quiet_nil
    · exact quiet_nil.asked
  rintro report s₃ _ (⟨step', rfl, rfl, rfl⟩ | ⟨created, hrepoint, rfl, rfl⟩)
  · refine does_modify (hT.quiet _ (untouched_patchOperation _)) ⟨⟨.wrote s₃ _ :: .asked (.turn : Request) r s₁ :: l, rfl, ?_⟩,
      fun hkeeps op hop hrunning => ?_⟩
    · exact ⟨rfl, hcreates, ⟨l, hl, rfl⟩, .inl ⟨(hquiet.asked).wrote (untouched_patchOperation _), rfl⟩, ⟨_, _, .head _, rfl⟩⟩
    · rw [World.finishOperation, operation_patchOperation, if_pos rfl, hkeep hkeeps op hop hrunning]
      rfl
  · refine does_modify (hT.quiet _ (untouched_patchOperation _))
      ⟨⟨.wrote s₃ _ :: .wrote s₂ s₃ :: .asked (.turn : Request) r s₁ :: l, rfl, ?_⟩, fun hkeeps op hop hrunning => ?_⟩
    · refine ⟨rfl, hcreates, ⟨l, hl, rfl⟩, .inr ⟨rfl, created, s₂, s₃, .tail _ (.head _), ?_⟩, ⟨_, _, .head _, rfl⟩⟩
      exact ⟨hrepoint.is_created, hrepoint.resumed, hrepoint.host, hrepoint.bound, hrepoint.post⟩
    · rw [World.finishOperation, operation_patchOperation, if_pos rfl, hrepoint.post, operation_defaultRepoint,
        hkeep hkeeps op hop hrunning]
      rfl

/-! ## Refusals -/

/-- Nothing was sent, and no write reached a pane or a cached session. -/
structure Silent (l : List Step) : Prop where
  creates : creates l = []
  sends : sends l = []
  quiet : Quiet l

theorem silent_nil : Silent [] := ⟨rfl, rfl, quiet_nil⟩

theorem Silent.append {l l' : List Step} (h : Silent l) (h' : Silent l') : Silent (l ++ l') where
  creates := by rw [creates_append, h.creates, h'.creates, List.nil_append]
  sends := by rw [sends_append, h.sends, h'.sends, List.nil_append]
  quiet := h.quiet.append h'.quiet

theorem Silent.wrote {l : List Step} {pre post : World} (hsame : Untouched pre post) (h : Silent l) : Silent (.wrote pre post :: l) :=
  ⟨h.creates, h.sends, h.quiet.wrote hsame⟩

theorem Silent.turn {l : List Step} {r : Daemon.Res .turn} {pre : World} (h : Silent l) : Silent (.asked (.turn : Request) r pre :: l) :=
  ⟨h.creates, h.sends, h.quiet.asked⟩

theorem holds_of_operation {w w' : World} {paneId : String} (h : w'.operation paneId = w.operation paneId) :
    w'.holds paneId = w.holds paneId := by rw [World.holds, h, World.holds]

/-- A refusal is written where nothing is lost by it. -/
theorem does_publishRefusal (hT : Plain T) (hostId tabId paneId : String) (plan : RebuildPlan) (report : RebuildReport) :
    (publishRefusal hostId tabId paneId plan report).Does T s t fun report' s' t' => report' = report ∧
      (∃ l, t' = l ++ t ∧ Silent l) ∧ s'.lock = s.lock ∧ (∀ other, s'.holds other = s.holds other) ∧
        (∀ other op, s.operation other = some op → op.Kept → s'.operation other = some op) := by
  unfold publishRefusal
  refine does_read ?_
  by_cases hkept : ∃ existing ∈ s.operation paneId, existing.Kept
  · rw [if_pos hkept]
    exact ⟨rfl, ⟨[], rfl, silent_nil⟩, rfl, fun _ => rfl, fun _ _ hop _ => hop⟩
  · rw [if_neg hkept]
    let op := refusalOperation hostId tabId paneId plan report s
    have hid : op.paneId = paneId := rfl
    have hat : ∀ other, ((s.beginOperation op).finishOperation paneId fun op => { op with report }).operation other =
        if other = paneId then some { op with status := .done } else s.operation other := by
      intro other
      rw [World.finishOperation, operation_patchOperation, operation_beginOperation, operation_beginOperation, hid, if_pos rfl]
      by_cases hother : other = paneId
      · rw [if_pos hother, if_pos hother]
        rfl
      · rw [if_neg hother, if_neg hother, if_neg hother]
    refine does_modify (hT.quiet _ (untouched_beginOperation _)) (does_modify (hT.quiet _ (untouched_patchOperation _)) ?_)
    refine ⟨rfl, ⟨[.wrote _ _, .wrote _ _], rfl, (silent_nil.wrote (untouched_beginOperation _)).wrote (untouched_patchOperation _)⟩,
      ?_, fun other => ?_, fun other existing hop hkeeps => ?_⟩
    · unfold World.finishOperation World.patchOperation
      split <;> rfl
    · by_cases hother : other = paneId
      · subst hother
        have hnone : s.holds other = none := by
          unfold World.holds
          cases hop : s.operation other with
          | none => rfl
          | some existing =>
            cases hcreated : existing.createdSession with
            | none => simp [hcreated]
            | some _ => exact absurd ⟨existing, hop, .inr (by rw [hcreated]; rfl)⟩ hkept
        rw [hnone, World.holds, hat, if_pos rfl]
        rfl
      · exact holds_of_operation (by rw [hat, if_neg hother])
    · rw [hat, if_neg ?_]
      · exact hop
      · rintro rfl
        exact hkept ⟨existing, hop, hkeeps⟩

/-! ## The lock -/

theorem does_withOperationLock (hT : Plain T) {α : Type} {owner : String} {body : RebuildM α} {onRefused : String → RebuildM α}
    {parent : Option OperationLockGrant} {P Q : α → World → List Step → Prop}
    (hrefused : (acquireOperationLock owner parent s.lock).1 = none → (onRefused (s.lock.lockedBy.getD "")).Does T s t Q)
    (hbody : ∀ lock, (acquireOperationLock owner parent s.lock).1 ≠ none → body.Does T { s with lock } (.wrote s { s with lock } :: t) P)
    (hdone : ∀ a s₁ t₁ r s₂ lock, P a s₁ t₁ → T.rely s₁ s₂ →
      Q a { s₂ with lock } (.wrote s₂ { s₂ with lock } :: .asked (.turn : Request) r s₁ :: t₁)) :
    (withOperationLock owner body onRefused parent).Does T s t Q := by
  unfold withOperationLock
  refine does_read ?_
  generalize hout : acquireOperationLock owner parent s.lock = out at hrefused hbody ⊢
  obtain ⟨_ | grant, lock⟩ := out
  · exact hrefused rfl
  · refine does_modify (hT.quiet _ ⟨rfl, rfl⟩) (does_seq (hbody lock nofun) fun a s₁ t₁ hP => ?_)
    exact does_request (hT.turn _ _) fun r s₂ hrely => does_modify (hT.quiet _ ⟨rfl, rfl⟩) (hdone a s₁ t₁ r s₂ _ hP hrely)

end Rules

/-! ## The whole run -/

theorem rebuildTarget_ok {hostId tabId paneId : String} {expectedBinding : Option SessionBinding} {w : World} {identity : HostIdentity}
    {content : TmuxSessionContent} (h : rebuildTarget hostId tabId paneId expectedBinding w = .ok (identity, content)) :
    w.hosts.get? hostId = some identity ∧ w.readTerminalPane tabId paneId = some content ∧ content.hostId = hostId ∧
      ∀ want ∈ expectedBinding, content.binding = want := by
  unfold rebuildTarget at h
  split at h
  next => cases h
  next pinned hpin =>
    split at h
    next => cases h
    next found hfound =>
      by_cases hhost : found.hostId = hostId
      · rw [if_neg (not_not.2 hhost)] at h
        split at h
        next hwant =>
          obtain ⟨rfl, rfl⟩ := Prod.mk.inj (Except.ok.inj h)
          exact ⟨(pinHost_ok hpin).1, hfound, hhost, fun want hmem => bindingEquals_iff.1 (hwant want hmem)⟩
        next => cases h
      · rw [if_pos hhost] at h
        cases h

/-- The pane, bound as it was at the start, is put onto a session that was created on the host as it was pinned there and
still is. -/
def Repoints (hostId tabId paneId : String) (expectedBinding : Option SessionBinding) (start : World) (earlier : List Step)
    (pre post : World) : Prop :=
  ∃ identity content session, rebuildTarget hostId tabId paneId expectedBinding start = .ok (identity, content) ∧
    (identity, .ok session) ∈ creates earlier ∧ HostUnchanged ⟨hostId, identity⟩ pre ∧
    pre.BindingUnchanged tabId paneId content.binding ∧ post = defaultRepoint tabId paneId session pre

theorem Repoints.append {hostId tabId paneId : String} {expectedBinding : Option SessionBinding} {start pre post : World}
    {l : List Step} (h : Repoints hostId tabId paneId expectedBinding start l pre post) (t : List Step) :
    Repoints hostId tabId paneId expectedBinding start (l ++ t) pre post := by
  obtain ⟨identity, content, session, htarget, hcreated, hrest⟩ := h
  exact ⟨identity, content, session, htarget, by rw [creates_append]; exact List.mem_append_left _ hcreated, hrest⟩

/-- What a run did that came to its operation, and the session it created. -/
structure Ran (tabId paneId : String) (identity : HostIdentity) (created : Option Session) (report : RebuildReport)
    (l : List Step) : Prop where
  answered : ∀ host session, (host, .ok session) ∈ creates l ↔ host = identity ∧ created = some session
  attempts : (creates l).length ≤ CREATE_ATTEMPT_CAP
  retries : ∀ c ∈ (creates l).tail, ∃ text, c.2 = .status 409 text
  once : (sends l).length ≤ 1
  named : report.created = created.map Session.summary
  repointed : (Quiet l ∧ report.repointed = false) ∨ (report.repointed = true ∧ report.steps.resume.status ≠ .failed ∧
    ∃ session pre post, created = some session ∧ Turn.wrote pre post ∈ l ∧ PutsOn tabId paneId session pre post)
  published : ∃ pre post, Turn.wrote pre post ∈ l ∧
    post = pre.finishOperation paneId fun op => { op with report, createdSession := created }

/-- What a run did that was refused. -/
structure RefusedRun (report : RebuildReport) (l : List Step) : Prop extends Silent l where
  created : report.created = none
  repointed : report.repointed = false

theorem Keystroke.length {ctx : StepContext} {l : List Step} (h : Keystroke ctx l) : (sends l).length ≤ 1 := by
  rcases h with rfl | ⟨_, _, _, rfl⟩
  · simp [sends]
  · simp [sends]

/-- The attempts that the session in the context came of, where there were any. -/
def Created (ctx : StepContext) (l : List Step) : Prop :=
  (l = [] ∧ ctx.created = none) ∨ ∃ outcome, Attempts ctx.pinned.identity (CREATE_ATTEMPT_CAP - 1) l outcome ∧
    ∀ session, outcome = .ok session ↔ ctx.created = some session

/-- The operation that begins, the attempts and the steps after them. -/
theorem ran_of_stepped {ctx : StepContext} {report : RebuildReport} {l₀ l₁ l₂ : List Step} (h : Stepped ctx report l₂) (hl₀ : Silent l₀)
    (hl₁ : Created ctx l₁) (hnamed : ctx.report.created = ctx.created.map Session.summary) (hfresh : ctx.report.repointed = false) :
    Ran ctx.tabId ctx.paneId ctx.pinned.identity ctx.created report (l₂ ++ (l₁ ++ l₀)) := by
  have hcreates : creates (l₂ ++ (l₁ ++ l₀)) = creates l₁ := by
    rw [creates_append, creates_append, h.creates, hl₀.creates, List.nil_append, List.append_nil]
  have hquiet : Quiet (l₁ ++ l₀) := by
    refine Quiet.append ?_ hl₀.quiet
    rcases hl₁ with ⟨rfl, _⟩ | ⟨outcome, hl₁, _⟩
    · exact quiet_nil
    · exact hl₁.quiet
  have hsends : sends (l₁ ++ l₀) = [] := by
    rw [sends_append, hl₀.sends, List.append_nil]
    rcases hl₁ with ⟨rfl, _⟩ | ⟨outcome, hl₁, _⟩
    · rfl
    · exact hl₁.sends
  refine ⟨fun host session => ?_, ?_, ?_, ?_, by rw [h.created, hnamed], ?_, ?_⟩
  · rw [hcreates]
    rcases hl₁ with ⟨rfl, hnone⟩ | ⟨outcome, hl₁, hcreated⟩
    · simp [creates, hnone]
    · rw [hl₁.answered, hcreated]
  · rw [hcreates]
    rcases hl₁ with ⟨rfl, _⟩ | ⟨outcome, hl₁, _⟩
    · exact Nat.zero_le _
    · exact hl₁.length
  · rw [hcreates]
    rcases hl₁ with ⟨rfl, _⟩ | ⟨outcome, hl₁, _⟩
    · exact nofun
    · exact hl₁.retries
  · obtain ⟨k, hk, hsent⟩ := h.keystroke
    rw [sends_append, hsends, hsent, List.append_nil]
    exact hk.length
  · rcases h.repointed with ⟨hquiet₂, hsame⟩ | ⟨hrepointed, session, pre, post, hmem, hrepoint⟩
    · exact .inl ⟨hquiet₂.append hquiet, hsame.trans hfresh⟩
    · refine .inr ⟨hrepointed, hrepoint.resumed, session, pre, post, hrepoint.is_created, List.mem_append_left _ hmem, ?_⟩
      obtain ⟨content, hcontent, _⟩ := hrepoint.bound
      rw [hrepoint.post]
      exact putsOn_defaultRepoint hcontent
  · obtain ⟨pre, post, hmem, hpost⟩ := h.published
    exact ⟨pre, post, List.mem_append_left _ hmem, hpost⟩

section Operation

variable {T : Terms Daemon World} {s : World} {t : List Step}

/-- From the begin of its operation on. -/
theorem does_runOperation (hT : Plain T) {ctx : StepContext} {plan : RebuildPlan} {baseName cwd : String} {l₀ : List Step}
    (hl₀ : Silent l₀) (hcreated : ctx.created = none) (hnamed : ctx.report.created = none) (hfresh : ctx.report.repointed = false)
    (hcreate : ∀ t s name, T.asks t s (.create ctx.pinned.identity name cwd "terminal"))
    (hsend : ∀ t s code keys expected, T.asks t s (.sendKeys ctx.pinned.identity code keys expected))
    (hrepoint : ∀ l created pre post, (ctx.pinned.identity, .ok created) ∈ creates l → HostUnchanged ctx.pinned pre →
      pre.BindingUnchanged ctx.tabId ctx.paneId ctx.binding → post = defaultRepoint ctx.tabId ctx.paneId created pre →
      T.writes (l ++ t) pre post) :
    (runOperation ctx plan baseName cwd).Does T s (l₀ ++ t) fun report s' t' =>
      ∃ l created, t' = l ++ t ∧ Ran ctx.tabId ctx.paneId ctx.pinned.identity created report l ∧
        (KeepsRunning T.rely ctx.paneId → ∀ op, s.operation ctx.paneId = some op → op.status = .running →
          s'.operation ctx.paneId = some { op with report, createdSession := created, status := .done }) := by
  unfold runOperation
  by_cases hplan : plan.createSession = false
  · rw [if_pos hplan]
    refine does_mono ?_ (does_runSteps hT (fun _ _ => hsend _ _ _ _ _) fun l report created pre post h => ?_)
    · rintro report s' _ ⟨⟨l, rfl, hl⟩, hsettled⟩
      refine ⟨l ++ ([] ++ l₀), none, by simp, ?_, fun hkeeps op hop hrunning => ?_⟩
      · have h := ran_of_stepped hl hl₀ (.inl ⟨rfl, hcreated⟩) (by simp [hcreated, hnamed, RebuildReport.withCreate]) hfresh
        simpa only [hcreated] using h
      · simpa only [hcreated] using hsettled hkeeps op hop hrunning
    · exact absurd h.is_created (by simp [hcreated])
  · rw [if_neg hplan]
    refine does_seq (does_createFrom hT hcreate _ _ _ _) ?_
    rintro outcome s₁ _ ⟨hrely, l₁, rfl, hl₁⟩
    cases outcome with
    | error err =>
      let ctx' : StepContext := { ctx with report := ctx.report.withCreate (failed err.message) }
      let post := s₁.finishOperation ctx.paneId fun op => { op with report := ctx'.report, createdSession := none }
      refine does_modify (hT.quiet _ (untouched_patchOperation _)) ?_
      refine ⟨[.wrote s₁ post] ++ (l₁ ++ l₀), none, ?_, ?_, fun hkeeps op hop hrunning => ?_⟩
      · rw [List.append_assoc, List.append_assoc]
        rfl
      · have hl : Stepped ctx' ctx'.report [.wrote s₁ post] := by
          refine ⟨rfl, rfl, ⟨[], .inl rfl, rfl⟩, .inl ⟨quiet_nil.wrote (untouched_patchOperation _), rfl⟩, ⟨s₁, post, .head _, ?_⟩⟩
          rw [show ctx'.created = none from hcreated]
        have h := ran_of_stepped hl hl₀ (.inr ⟨_, hl₁, by simp [ctx', hcreated]⟩)
          (by simp [ctx', hcreated, hnamed, RebuildReport.withCreate]) hfresh
        simpa only [ctx', hcreated] using h
      · rw [World.finishOperation, operation_patchOperation, if_pos rfl, hkeeps _ _ hrely op hop hrunning]
        rfl
    | ok created =>
      have hmem : (ctx.pinned.identity, .ok created) ∈ creates l₁ := (hl₁.answered _ _).2 ⟨rfl, rfl⟩
      refine does_mono ?_ (does_runSteps hT (fun _ _ => hsend _ _ _ _ _) fun l report session pre post h => ?_)
      · rintro report s' _ ⟨⟨l, rfl, hl⟩, hsettled⟩
        refine ⟨l ++ (l₁ ++ l₀), some created, by simp, ?_, fun hkeeps op hop hrunning => ?_⟩
        · exact ran_of_stepped hl hl₀ (.inr ⟨_, hl₁, by simp⟩) rfl hfresh
        · exact hsettled hkeeps op (hkeeps _ _ hrely op hop hrunning) hrunning
      · obtain rfl := Option.some.inj h.is_created
        have hcreates : (ctx.pinned.identity, .ok created) ∈ creates (l ++ (l₁ ++ l₀)) := by
          rw [creates_append, creates_append]
          exact List.mem_append_right _ (List.mem_append_left _ hmem)
        have hwrites := hrepoint (l ++ (l₁ ++ l₀)) created pre post hcreates h.host h.bound h.post
        simpa only [List.append_assoc] using hwrites

end Operation

/-- A pane goes on holding the session that it holds. -/
def KeepsHeld (rely : World → World → Prop) (paneId : String) : Prop := ∀ a b, rely a b → b.holds paneId = a.holds paneId

/-- What a rebuild comes to that begins in `start`, where it is refused and where not. -/
def Rebuilt (rely : World → World → Prop) (hostId tabId paneId : String) (expectedBinding : Option SessionBinding) (start : World)
    (refused : Prop) (report : RebuildReport) (l : List Step) (s' : World) : Prop :=
  (refused → RefusedRun report l ∧ (KeepsHeld rely paneId → s'.holds paneId = start.holds paneId)) ∧
  (¬refused → ∃ identity content created, rebuildTarget hostId tabId paneId expectedBinding start = .ok (identity, content) ∧
    Ran tabId paneId identity created report l ∧
      (KeepsRunning rely paneId → KeepsHeld rely paneId → s'.holds paneId = created.map (·, some identity)))

/-- Silent turns before and after a run are as nothing. -/
theorem Rebuilt.pad {rely : World → World → Prop} {hostId tabId paneId : String} {expectedBinding : Option SessionBinding}
    {start s' s'' : World} {refused : Prop} {report : RebuildReport} {l before after : List Step}
    (h : Rebuilt rely hostId tabId paneId expectedBinding start refused report l s') (hbefore : Silent before) (hafter : Silent after)
    (hheld : KeepsHeld rely paneId → s''.holds paneId = s'.holds paneId) :
    Rebuilt rely hostId tabId paneId expectedBinding start refused report (after ++ (l ++ before)) s'' := by
  have hcreates : creates (after ++ (l ++ before)) = creates l := by
    rw [creates_append, creates_append, hafter.creates, hbefore.creates, List.nil_append, List.append_nil]
  have hsends : sends (after ++ (l ++ before)) = sends l := by
    rw [sends_append, sends_append, hafter.sends, hbefore.sends, List.nil_append, List.append_nil]
  refine ⟨fun hrefused => ?_, fun hran => ?_⟩
  · obtain ⟨hdeclined, hholds⟩ := h.1 hrefused
    exact ⟨⟨hafter.append (hdeclined.toSilent.append hbefore), hdeclined.created, hdeclined.repointed⟩,
      fun hkeeps => (hheld hkeeps).trans (hholds hkeeps)⟩
  · obtain ⟨identity, content, created, htarget, hran, hholds⟩ := h.2 hran
    refine ⟨identity, content, created, htarget, ?_, fun hrunning hkeeps => (hheld hkeeps).trans (hholds hrunning hkeeps)⟩
    refine ⟨fun host session => by rw [hcreates, hran.answered], by rw [hcreates]; exact hran.attempts,
      by rw [hcreates]; exact hran.retries, by rw [hsends]; exact hran.once, hran.named, ?_, ?_⟩
    · rcases hran.repointed with ⟨hquiet, hnot⟩ | ⟨hrepointed, hresumed, session, pre, post, hcreated, hmem, hputs⟩
      · exact .inl ⟨hafter.quiet.append (hquiet.append hbefore.quiet), hnot⟩
      · refine .inr ⟨hrepointed, hresumed, session, pre, post, hcreated, ?_, hputs⟩
        exact List.mem_append_right _ (List.mem_append_left _ hmem)
    · obtain ⟨pre, post, hmem, hpost⟩ := hran.published
      exact ⟨pre, post, List.mem_append_right _ (List.mem_append_left _ hmem), hpost⟩

/-- What the terms of a caller have to allow. -/
structure AllowsRebuild (T : Terms Daemon World) (hostId tabId paneId : String) (expectedBinding : Option SessionBinding) (start : World)
    (t : List Step) : Prop extends Plain T where
  create : ∀ t s host name cwd, T.asks t s (.create host name cwd "terminal")
  send : ∀ t s host code keys expected, T.asks t s (.sendKeys host code keys expected)
  repoint : ∀ l pre post, Repoints hostId tabId paneId expectedBinding start l pre post → T.writes (l ++ t) pre post

section Run

variable {T : Terms Daemon World} {s : World} {t : List Step} {hostId tabId paneId : String} {expectedBinding : Option SessionBinding}

theorem does_runRebuild (hT : AllowsRebuild T hostId tabId paneId expectedBinding s t) (plan : RebuildPlan) :
    (runRebuild hostId tabId paneId plan expectedBinding).Does T s t fun report s' t' => ∃ l, t' = l ++ t ∧
      Rebuilt T.rely hostId tabId paneId expectedBinding s (¬(rebuildTarget hostId tabId paneId expectedBinding s).isOk) report l s' := by
  unfold runRebuild
  refine does_read ?_
  rcases htarget : rebuildTarget hostId tabId paneId expectedBinding s with message | ⟨identity, content⟩
  · refine does_mono ?_ (does_publishRefusal hT.toPlain hostId tabId paneId plan _)
    rintro _ s' _ ⟨rfl, ⟨l, rfl, hl⟩, _, hholds, _⟩
    exact ⟨l, rfl, fun _ => ⟨⟨hl, rfl, rfl⟩, fun _ => hholds paneId⟩, fun hok => absurd nofun hok⟩
  · obtain ⟨_, _, hhost, _⟩ := rebuildTarget_ok htarget
    refine does_modify (hT.quiet _ (untouched_beginOperation _)) ?_
    refine does_mono ?_ (does_runOperation hT.toPlain (silent_nil.wrote (untouched_beginOperation _)) rfl rfl rfl
      (fun _ _ _ => hT.create _ _ _ _ _) (fun _ _ _ _ _ => hT.send _ _ _ _ _ _) fun l created pre post hmem hunchanged hbound hpost => ?_)
    · rintro report s' _ ⟨l, created, rfl, hran, hsettled⟩
      refine ⟨l, rfl, fun hnot => absurd rfl hnot, fun _ => ⟨identity, content, created, htarget, hran, fun hkeeps _ => ?_⟩⟩
      rw [World.holds, hsettled hkeeps _ ((operation_beginOperation _).trans (if_pos rfl)) rfl]
      rfl
    · refine hT.repoint l pre post ⟨identity, content, created, htarget, hmem, hunchanged, ?_, hpost⟩
      rw [← hhost] at hbound
      exact hbound

/-- A rebuild is refused, or comes to its operation. -/
theorem does_rebuildPane (hT : AllowsRebuild T hostId tabId paneId expectedBinding s t) (plan : RebuildPlan)
    (lockGrant : Option OperationLockGrant) :
    (rebuildPane hostId tabId paneId plan lockGrant expectedBinding).Does T s t fun report s' t' => ∃ l, t' = l ++ t ∧
      Rebuilt T.rely hostId tabId paneId expectedBinding s (RebuildRefused hostId tabId paneId lockGrant expectedBinding s)
        report l s' := by
  unfold rebuildPane
  have hrefuse : ∀ reason, RebuildRefused hostId tabId paneId lockGrant expectedBinding s →
      (publishRefusal hostId tabId paneId plan (refusedReport hostId .create reason)).Does T s t fun report s' t' => ∃ l, t' = l ++ t ∧
        Rebuilt T.rely hostId tabId paneId expectedBinding s (RebuildRefused hostId tabId paneId lockGrant expectedBinding s)
          report l s' := by
    intro reason hrefused
    refine does_mono ?_ (does_publishRefusal hT.toPlain hostId tabId paneId plan _)
    rintro _ s' _ ⟨rfl, ⟨l, rfl, hl⟩, _, hholds, _⟩
    exact ⟨l, rfl, fun _ => ⟨⟨hl, rfl, rfl⟩, fun _ => hholds paneId⟩, fun hran => absurd hrefused hran⟩
  refine does_read ?_
  by_cases hbusy : PaneBusy paneId s
  · rw [if_pos hbusy]
    exact hrefuse _ (.inl hbusy)
  · rw [if_neg hbusy]
    refine does_withOperationLock hT.toPlain (fun hheld => hrefuse _ (.inr (.inl hheld))) (P := fun report s' t' => ∃ l, t' = l ++ t ∧
      Rebuilt T.rely hostId tabId paneId expectedBinding s (RebuildRefused hostId tabId paneId lockGrant expectedBinding s) report l s')
      (fun lock hfree => ?_) ?_
    · have hrefused : RebuildRefused hostId tabId paneId lockGrant expectedBinding s ↔
          ¬(rebuildTarget hostId tabId paneId expectedBinding s).isOk := by
        simp only [RebuildRefused, hbusy, hfree, false_or]
      have hlocked : Silent [.wrote s { s with lock }] := silent_nil.wrote ⟨rfl, rfl⟩
      have hallows : AllowsRebuild T hostId tabId paneId expectedBinding { s with lock } (.wrote s { s with lock } :: t) := by
        refine ⟨hT.toPlain, hT.create, hT.send, fun l pre post hrepoints => ?_⟩
        have hwrites := hT.repoint _ pre post (hrepoints.append [.wrote s { s with lock }])
        rw [List.append_assoc] at hwrites
        exact hwrites
      refine does_mono ?_ (does_runRebuild hallows plan)
      rintro report s' _ ⟨l, rfl, h⟩
      rw [propext hrefused]
      exact ⟨_, by rw [List.nil_append, List.append_assoc]; rfl, Rebuilt.pad h hlocked silent_nil fun _ => rfl⟩
    · rintro report s₁ _ r s₂ lock ⟨l, rfl, h⟩ hrely
      have hreleased : Silent [.wrote s₂ { s₂ with lock }, .asked (.turn : Request) r s₁] := silent_nil.turn.wrote ⟨rfl, rfl⟩
      have hholds : KeepsHeld T.rely paneId → World.holds { s₂ with lock } paneId = s₁.holds paneId := fun hkeeps => hkeeps s₁ s₂ hrely
      exact ⟨_, by rw [List.append_nil]; rfl, h.pad silent_nil hreleased hholds⟩

end Run

/-! ## Whatever happens meanwhile -/

/-- Writes that leave panes alone or re-point. -/
def rebuildTerms (rely : World → World → Prop) (hostId tabId paneId : String) (expectedBinding : Option SessionBinding)
    (start : World) : Terms Daemon World where
  rely := rely
  asks _ _ _ := True
  writes earlier pre post := Untouched pre post ∨ Repoints hostId tabId paneId expectedBinding start earlier pre post

theorem allowsRebuild_rebuildTerms {rely : World → World → Prop} (hrefl : ∀ w, rely w w)
    (htrans : ∀ {a b c}, rely a b → rely b c → rely a c) (hostId tabId paneId : String) (expectedBinding : Option SessionBinding)
    (start : World) :
    AllowsRebuild (rebuildTerms rely hostId tabId paneId expectedBinding start) hostId tabId paneId expectedBinding start [] where
  refl := hrefl
  trans := htrans
  turn _ _ := trivial
  quiet _ _ _ h := .inl h
  create _ _ _ _ _ := trivial
  send _ _ _ _ _ _ := trivial
  repoint l pre post h := by
    rw [List.append_nil]
    exact .inr h

/-- The pane, bound as it was at the start and on the host as it was then, is put onto a session that a create of the
run was answered with. -/
def OntoCreated (hostId tabId paneId : String) (start : World) (earlier : List Step) (pre post : World) : Prop :=
  ∃ host content session, start.hosts.get? hostId = some host ∧ start.readTerminalPane tabId paneId = some content ∧
    content.hostId = hostId ∧ (host, .ok session) ∈ creates earlier ∧ pre.hosts.get? hostId = some host ∧
    (pre.readTerminalPane tabId paneId).map (·.binding) = some content.binding ∧ PutsOn tabId paneId session pre post

theorem Repoints.ontoCreated {hostId tabId paneId : String} {expectedBinding : Option SessionBinding} {start pre post : World}
    {l : List Step} (h : Repoints hostId tabId paneId expectedBinding start l pre post) :
    OntoCreated hostId tabId paneId start l pre post := by
  obtain ⟨identity, content, session, htarget, hcreated, hhost, hbound, rfl⟩ := h
  obtain ⟨hpinned, hfound, hcontent, _⟩ := rebuildTarget_ok htarget
  obtain ⟨now, hnow, _⟩ := id hbound
  exact ⟨identity, content, session, hpinned, hfound, hcontent, hcreated, hostUnchanged_iff.1 hhost,
    (World.bindingUnchanged_iff _).1 hbound, putsOn_defaultRepoint hnow⟩

/-- A run re-points only onto the session it created, and names that session whatever came after. -/
structure Guarded (hostId tabId paneId : String) (start : World) (report : RebuildReport) (t : List Step) : Prop where
  writes : ∀ later pre post earlier, t = later ++ .wrote pre post :: earlier → Untouched pre post ∨
    (report.steps.resume.status ≠ .failed ∧ report.repointed = true ∧ OntoCreated hostId tabId paneId start earlier pre post)
  repointed : report.repointed = true → ∃ session pre post, .wrote pre post ∈ t ∧ PutsOn tabId paneId session pre post ∧
    report.created = some session.summary
  named : ∀ host session, (host, .ok session) ∈ creates t → report.created = some session.summary ∧
    ∃ pre post, .wrote pre post ∈ t ∧ post.operation paneId = (pre.operation paneId).map fun op =>
      { op with report, createdSession := some session, status := .done }
  attempts : (creates t).length ≤ 5
  retries : ∀ c ∈ (creates t).tail, ∃ text, c.2 = .status 409 text

theorem rebuildPane_guarded (env : Env Daemon World) (n : Nat) (start : World) (hostId tabId paneId : String) (plan : RebuildPlan)
    (lockGrant : Option OperationLockGrant) (expectedBinding : Option SessionBinding) :
    let out := (rebuildPane hostId tabId paneId plan lockGrant expectedBinding).play env n start
    Guarded hostId tabId paneId start out.value out.trace := by
  intro out
  have hdoes := does_rebuildPane (allowsRebuild_rebuildTerms (fun _ => trivial) (fun _ _ => trivial) hostId tabId paneId expectedBinding start) plan lockGrant
  obtain ⟨hkept, l, htrace, hrebuilt⟩ : (rebuildTerms (fun _ _ => True) hostId tabId paneId expectedBinding start).Kept (out.trace ++ []) ∧
      ∃ l, out.trace ++ [] = l ++ [] ∧ Rebuilt (fun _ _ => True) hostId tabId paneId expectedBinding start
        (RebuildRefused hostId tabId paneId lockGrant expectedBinding start) out.value l out.state :=
    hdoes.play (fun _ _ => trivial) trivial
  rw [List.append_nil, List.append_nil] at htrace
  rw [List.append_nil, htrace] at hkept
  rw [htrace]
  have hwrote : ∀ later pre post earlier, l = later ++ .wrote pre post :: earlier →
      Untouched pre post ∨ OntoCreated hostId tabId paneId start earlier pre post := by
    rintro later pre post earlier rfl
    exact (kept_of_append hkept).1.imp_right Repoints.ontoCreated
  by_cases hrefused : RebuildRefused hostId tabId paneId lockGrant expectedBinding start
  · obtain ⟨hdeclined, _⟩ := hrebuilt.1 hrefused
    refine ⟨fun later pre post earlier hsplit => .inl (hdeclined.quiet pre post (by simp [hsplit])), fun h => ?_, fun host session h => ?_,
      ?_, ?_⟩
    · rw [hdeclined.repointed] at h
      cases h
    · rw [hdeclined.creates] at h
      cases h
    · rw [hdeclined.creates]
      exact Nat.zero_le _
    · rw [hdeclined.creates]
      exact nofun
  · obtain ⟨identity, content, created, _, hran, _⟩ := hrebuilt.2 hrefused
    refine ⟨fun later pre post earlier hsplit => ?_, fun h => ?_, fun host session h => ?_, hran.attempts, hran.retries⟩
    · rcases hran.repointed with ⟨hquiet, _⟩ | ⟨hrepointed, hresumed, _⟩
      · exact .inl (hquiet pre post (by simp [hsplit]))
      · exact (hwrote later pre post earlier hsplit).imp_right fun honto => ⟨hresumed, hrepointed, honto⟩
    · rcases hran.repointed with ⟨_, hnot⟩ | ⟨_, _, session, pre, post, hcreated, hmem, hputs⟩
      · rw [hnot] at h
        cases h
      · exact ⟨session, pre, post, hmem, hputs, by rw [hran.named, hcreated]; rfl⟩
    · obtain ⟨_, hcreated⟩ := (hran.answered host session).1 h
      obtain ⟨pre, post, hmem, rfl⟩ := hran.published
      refine ⟨by rw [hran.named, hcreated]; rfl, pre, _, hmem, ?_⟩
      rw [World.finishOperation, operation_patchOperation, if_pos rfl, hcreated]

end Purdex.Rebuild
