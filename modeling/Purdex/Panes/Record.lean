/-
The writers of a pane's rebuild record: which of them may overwrite what, over any sequence of patches.
-/
import Purdex.Panes.Binding

namespace Purdex.Panes

/-! ## Patches -/

/-- What a qualifying SessionStart says about the agent. -/
structure AgentGroup where
  tmuxInstance : String
  cwd : Option String
  cwdSource : Option CwdSource
  agent : Option RebuildAgent
  deriving Repr, DecidableEq

/-- The daemon's answer to who owns the pane. -/
structure AgentBackfill where
  tmuxInstance : String
  agent : RebuildAgent
  cwd : Option String
  deriving Repr, DecidableEq

inductive RebuildField where
  | cwd
  | resumeCommandOverride
  | sessionName
  deriving Repr, DecidableEq

inductive RebuildPatch where
  | agentGroup (record : AgentGroup)
  | agentBackfill (record : AgentBackfill)
  | field (field : RebuildField) (value : String)
  | probeCwd (cwd : String)
  | unverified (unverified : Bool)
  deriving Repr, DecidableEq

def PaneRebuildRecord.value (prev : PaneRebuildRecord) : RebuildField → Option String
  | .cwd => prev.cwd
  | .resumeCommandOverride => prev.resumeCommandOverride
  | .sessionName => some prev.sessionName

/-- An empty session id names no session. -/
def RebuildAgent.identity (a : RebuildAgent) : String × String := (a.type, a.sessionId.getD "")

def identityInvalidates (prev next : Option RebuildAgent) : Bool :=
  match prev with
  | none => false
  | some p => next.map (·.type) ≠ some p.type || p.sessionId.getD "" ≠ (next.bind (·.sessionId)).getD ""

/-- `s || t` on strings. -/
def orElse (s t : String) : String := if s = "" then t else s

/-- An absent or an empty string. -/
def Falsy (s : Option String) : Prop := s.getD "" = ""

instance (s : Option String) : Decidable (Falsy s) := inferInstanceAs (Decidable (_ = _))

/-- The answer of the daemon under the first of the four modes that matches. -/
def backfilled (prev : PaneRebuildRecord) (record : AgentBackfill) (now : Nat) : Option PaneRebuildRecord :=
  match prev.agent with
  | none =>
    let takesCwd := record.cwd.isSome ∧ (prev.cwd = none ∨ prev.cwdSource = some .paneProbe)
    some { prev with
      tmuxInstance := orElse record.tmuxInstance prev.tmuxInstance
      agent := some record.agent
      cwd := if takesCwd then record.cwd else prev.cwd
      cwdSource := if takesCwd then some .agentBackfill else prev.cwdSource
      unverified := none
      capturedAt := now }
  | some agent =>
    let identityMatches := agent.type = record.agent.type ∧ agent.sessionId.getD "" = record.agent.sessionId.getD ""
    if prev.unverified = some true ∧ ¬identityMatches then
      let keepsUserCwd := prev.cwd.isSome ∧ prev.cwdSource = some .user
      some {
        sessionName := prev.sessionName
        tmuxInstance := orElse record.tmuxInstance prev.tmuxInstance
        cwd := if keepsUserCwd then prev.cwd else record.cwd
        cwdSource := if keepsUserCwd then some .user else record.cwd.map fun _ => .agentBackfill
        agent := some record.agent
        resumeCommandOverride := none
        unverified := none
        capturedAt := now }
    else if prev.unverified = some true then some { prev with unverified := none }
    else none

/-- The record that a patch leaves, or nothing where the pane stays as it is. -/
def patched (prev : PaneRebuildRecord) (patch : RebuildPatch) (now : Nat) : Option PaneRebuildRecord :=
  match patch with
  | .agentGroup record => some {
      sessionName := prev.sessionName
      tmuxInstance := orElse record.tmuxInstance prev.tmuxInstance
      cwd := record.cwd
      cwdSource := record.cwd.map fun _ => record.cwdSource.getD .agentSessionStart
      agent := record.agent
      resumeCommandOverride := if identityInvalidates prev.agent record.agent then none else prev.resumeCommandOverride
      unverified := none
      capturedAt := now }
  | .agentBackfill record => backfilled prev record now
  | .field field value =>
    let promotesCwdSource := field = .cwd ∧ prev.cwdSource ≠ some .user
    if prev.value field = some value ∧ ¬promotesCwdSource then none
    else match field with
      | .cwd => some { prev with cwd := some value, cwdSource := some .user, capturedAt := now }
      | .resumeCommandOverride =>
        some { prev with resumeCommandOverride := if value = "" then none else some value, capturedAt := now }
      | .sessionName => some { prev with sessionName := value, capturedAt := now }
  | .probeCwd cwd =>
    if ¬Falsy prev.cwd then none
    else some { prev with cwd := some cwd, cwdSource := some .paneProbe, capturedAt := now }
  | .unverified unverified =>
    if prev.unverified = some unverified then none
    else some { prev with unverified := some unverified, capturedAt := now }

namespace TmuxSessionContent

variable (c : TmuxSessionContent)

/-- The record of the pane, which the first write creates. -/
def record : PaneRebuildRecord := c.rebuild.getD {
  sessionName := c.cachedName
  tmuxInstance := c.tmuxInstance
  cwd := none
  cwdSource := none
  agent := none
  resumeCommandOverride := none
  unverified := none
  capturedAt := 0 }

def applyRebuildPatch (patch : RebuildPatch) (now : Nat) : TmuxSessionContent :=
  match patched c.record patch now with
  | none => c
  | some next => { c with rebuild := some next }

theorem record_applyRebuildPatch (patch : RebuildPatch) (now : Nat) :
    (c.applyRebuildPatch patch now).record = (patched c.record patch now).getD c.record := by
  unfold applyRebuildPatch
  cases patched c.record patch now <;> rfl

end TmuxSessionContent

/-- A write about the session lands on the terminal panes that answer to its binding and are alive. -/
def AcceptsSessionScopedWrite (b : SessionBinding) (c : TmuxSessionContent) : Prop :=
  (c.hostId = b.hostId ∧ c.sessionCode = b.sessionCode ∧ generationMatchesLegacy c.tmuxInstance b.tmuxInstance) ∧
    c.mode = .terminal ∧ c.terminated = none

instance (b : SessionBinding) : DecidablePred (AcceptsSessionScopedWrite b) := fun _ => inferInstanceAs (Decidable (_ ∧ _ ∧ _))

def setPaneRebuild (b : SessionBinding) (patch : RebuildPatch) (now : Nat) (tabs : Tabs) : Tabs :=
  tabs.mapContent (onTmuxPane (AcceptsSessionScopedWrite b) fun c => c.applyRebuildPatch patch now)

/-! ## The ranking -/

def CwdSourced (r : PaneRebuildRecord) : Prop := r.cwd.isSome ↔ r.cwdSource.isSome

/-- All of a record but when it was captured. -/
def PaneRebuildRecord.undated (r : PaneRebuildRecord) : PaneRebuildRecord := { r with capturedAt := 0 }

def TmuxSessionContent.undated (c : TmuxSessionContent) : TmuxSessionContent :=
  { c with rebuild := c.rebuild.map (·.undated) }

namespace RebuildPatch

def IsGroup : RebuildPatch → Prop
  | agentGroup _ => True
  | _ => False

/-- The writers that a user's cwd gives way to. -/
def WritesCwd : RebuildPatch → Prop
  | agentGroup _ => True
  | field f _ => f = .cwd
  | _ => False

/-- The daemon agrees with a record that was flagged. -/
def Confirms (r : PaneRebuildRecord) : RebuildPatch → Prop
  | agentBackfill b => r.unverified = some true ∧ ∃ a ∈ r.agent, a.identity = b.agent.identity
  | _ => False

end RebuildPatch

/-- What one patch does, by the rank of its writer. An agent group replaces `capturedAt` as part of its unit. -/
structure Ranked (c : TmuxSessionContent) (patch : RebuildPatch) (now : Nat) : Prop where
  userKept : c.record.cwdSource = some .user → ¬patch.WritesCwd →
    (c.applyRebuildPatch patch now).record.cwd = c.record.cwd ∧ (c.applyRebuildPatch patch now).record.cwdSource = some .user
  overrideDropped : ∀ a ∈ c.record.agent, (c.applyRebuildPatch patch now).record.agent.map (·.identity) ≠ some a.identity →
    (c.applyRebuildPatch patch now).record.resumeCommandOverride = none
  backfilled : ∀ b, patch = .agentBackfill b →
    (∀ later, ((c.applyRebuildPatch patch now).applyRebuildPatch patch later).undated = (c.applyRebuildPatch patch now).undated) ∧
      (c.applyRebuildPatch patch now).record.agent.isSome ∧ (c.applyRebuildPatch patch now).record.unverified ≠ some true
  confirmed : patch.Confirms c.record → (c.applyRebuildPatch patch now).record.capturedAt = c.record.capturedAt
  idle : ¬patch.IsGroup → (c.applyRebuildPatch patch now).record.undated = c.record.undated →
    (c.applyRebuildPatch patch now).record.capturedAt = c.record.capturedAt

/-- A pane and the patches that are applied to it, each at its time. -/
def RanksWriters : TmuxSessionContent → List (RebuildPatch × Nat) → Prop
  | c, [] => CwdSourced c.record
  | c, (patch, now) :: rest => CwdSourced c.record ∧ Ranked c patch now ∧ RanksWriters (c.applyRebuildPatch patch now) rest

/-- A probe of a cwd that a user cleared, or that found nothing and finds nothing again, and clearing an
override that is not there. -/
def Misapplied (r : PaneRebuildRecord) (now : Nat) : RebuildPatch → Prop
  | .probeCwd cwd => Falsy r.cwd ∧
    (r.cwdSource = some .user ∨ r.cwd = some cwd ∧ r.cwdSource = some .paneProbe ∧ now ≠ r.capturedAt)
  | .field f value => f = .resumeCommandOverride ∧ value = "" ∧ r.resumeCommandOverride = none ∧ now ≠ r.capturedAt
  | _ => False

/-- No patch of the sequence meets a record that it is misapplied to. -/
def NoneMisapplied : TmuxSessionContent → List (RebuildPatch × Nat) → Prop
  | _, [] => True
  | c, (patch, now) :: rest => ¬Misapplied c.record now patch ∧ NoneMisapplied (c.applyRebuildPatch patch now) rest

section Patched

variable {r next : PaneRebuildRecord} {patch : RebuildPatch} {b : AgentBackfill} {now : Nat}

/-- What the answer of the daemon does, under the mode that takes it. -/
theorem backfilled_cases (h : backfilled r b now = some next) :
    (r.agent = none ∧ next.agent = some b.agent ∧ next.unverified = none ∧
      ((b.cwd.isSome ∧ (r.cwd = none ∨ r.cwdSource = some .paneProbe) ∧ next.cwd = b.cwd ∧ next.cwdSource = some .agentBackfill) ∨
        (next.cwd = r.cwd ∧ next.cwdSource = r.cwdSource))) ∨
    (∃ a, r.agent = some a ∧ a.identity ≠ b.agent.identity ∧ next.agent = some b.agent ∧ next.unverified = none ∧
      next.resumeCommandOverride = none ∧
      ((r.cwd.isSome ∧ r.cwdSource = some .user ∧ next.cwd = r.cwd ∧ next.cwdSource = some .user) ∨
        (¬(r.cwd.isSome ∧ r.cwdSource = some .user) ∧ next.cwd = b.cwd ∧ next.cwdSource = b.cwd.map fun _ => .agentBackfill))) ∨
    (r.agent.isSome ∧ r.unverified = some true ∧ next = { r with unverified := none }) := by
  unfold backfilled at h
  cases hagent : r.agent with
  | none =>
    rw [hagent] at h
    obtain rfl := Option.some.inj h
    refine .inl ⟨rfl, rfl, rfl, ?_⟩
    by_cases htakes : b.cwd.isSome ∧ (r.cwd = none ∨ r.cwdSource = some .paneProbe)
    · exact .inl ⟨htakes.1, htakes.2, if_pos htakes, if_pos htakes⟩
    · exact .inr ⟨if_neg htakes, if_neg htakes⟩
  | some a =>
    rw [hagent] at h
    dsimp only at h
    split at h
    · obtain rfl := Option.some.inj h
      refine .inr (.inl ⟨a, rfl, ?_, rfl, rfl, rfl, ?_⟩)
      · rename_i hreplaces
        intro heq
        exact hreplaces.2 (Prod.mk.inj heq)
      · by_cases hkeeps : r.cwd.isSome ∧ r.cwdSource = some .user
        · exact .inl ⟨hkeeps.1, hkeeps.2, if_pos hkeeps, if_pos hkeeps⟩
        · exact .inr ⟨hkeeps, if_neg hkeeps, if_neg hkeeps⟩
    · split at h
      · obtain rfl := Option.some.inj h
        exact .inr (.inr ⟨rfl, ‹_›, rfl⟩)
      · cases h

/-- A confirmed agent is not asked for again. -/
theorem backfilled_eq_none (hagent : r.agent.isSome) (hverified : r.unverified ≠ some true) : backfilled r b now = none := by
  obtain ⟨a, ha⟩ := Option.isSome_iff_exists.1 hagent
  unfold backfilled
  rw [ha]
  dsimp only
  rw [if_neg fun h => hverified h.1, if_neg hverified]

theorem agent_backfilled (h : backfilled r b now = some next) : next.agent.isSome ∧ next.unverified = none := by
  rcases backfilled_cases h with ⟨_, hagent, hflag, _⟩ | ⟨_, _, _, hagent, hflag, _⟩ | ⟨hagent, _, rfl⟩
  · exact ⟨by rw [hagent]; rfl, hflag⟩
  · exact ⟨by rw [hagent]; rfl, hflag⟩
  · exact ⟨hagent, rfl⟩

theorem cwdSourced_patched (hr : CwdSourced r) (h : patched r patch now = some next) : CwdSourced next := by
  cases patch with
  | agentGroup g =>
    obtain rfl := Option.some.inj h
    show g.cwd.isSome ↔ (g.cwd.map fun _ => g.cwdSource.getD .agentSessionStart).isSome
    rw [Option.isSome_map]
  | agentBackfill b =>
    rcases backfilled_cases h with ⟨_, _, _, hcwd⟩ | ⟨_, _, _, _, _, _, hcwd⟩ | ⟨_, _, rfl⟩
    · rcases hcwd with ⟨hsome, _, hcwd, hsource⟩ | ⟨hcwd, hsource⟩
      · rw [CwdSourced, hcwd, hsource]
        exact iff_of_true hsome rfl
      · rw [CwdSourced, hcwd, hsource]
        exact hr
    · rcases hcwd with ⟨hsome, _, hcwd, hsource⟩ | ⟨_, hcwd, hsource⟩
      · rw [CwdSourced, hcwd, hsource]
        exact iff_of_true hsome rfl
      · rw [CwdSourced, hcwd, hsource, Option.isSome_map]
    · exact hr
  | field f value =>
    simp only [patched] at h
    split at h
    · cases h
    · cases f <;> obtain rfl := Option.some.inj h
      · exact iff_of_true rfl rfl
      · exact hr
      · exact hr
  | probeCwd cwd =>
    simp only [patched] at h
    split at h
    · cases h
    · obtain rfl := Option.some.inj h
      exact iff_of_true rfl rfl
  | unverified flag =>
    simp only [patched] at h
    split at h
    · cases h
    · obtain rfl := Option.some.inj h
      exact hr

/-- A user's cwd gives way to another edit, to an agent group, and to a misapplied probe. -/
theorem userCwd_patched (hr : CwdSourced r) (huser : r.cwdSource = some .user) (hwrites : ¬patch.WritesCwd)
    (happlied : ¬Misapplied r now patch) (h : patched r patch now = some next) :
    next.cwd = r.cwd ∧ next.cwdSource = some .user := by
  have hcwd : r.cwd.isSome := hr.2 (by rw [huser]; rfl)
  cases patch with
  | agentGroup g => exact absurd trivial hwrites
  | agentBackfill b =>
    rcases backfilled_cases h with ⟨_, _, _, hcwd'⟩ | ⟨_, _, _, _, _, _, hcwd'⟩ | ⟨_, _, rfl⟩
    · rcases hcwd' with ⟨_, htakes, _, _⟩ | ⟨hcwd', hsource⟩
      · rcases htakes with hnone | hprobe
        · rw [hnone] at hcwd
          cases hcwd
        · rw [huser] at hprobe
          cases hprobe
      · exact ⟨hcwd', hsource.trans huser⟩
    · rcases hcwd' with ⟨_, _, hcwd', hsource⟩ | ⟨hkeeps, _, _⟩
      · exact ⟨hcwd', hsource⟩
      · exact absurd ⟨hcwd, huser⟩ hkeeps
    · exact ⟨rfl, huser⟩
  | field f value =>
    simp only [patched] at h
    split at h
    · cases h
    · cases f <;> obtain rfl := Option.some.inj h
      · exact absurd rfl hwrites
      · exact ⟨rfl, huser⟩
      · exact ⟨rfl, huser⟩
  | probeCwd cwd =>
    simp only [patched] at h
    split at h
    · cases h
    · exact absurd ⟨Decidable.not_not.1 ‹_›, .inl huser⟩ happlied
  | unverified flag =>
    simp only [patched] at h
    split at h
    · cases h
    · obtain rfl := Option.some.inj h
      exact ⟨rfl, huser⟩

theorem identityInvalidates_eq {a : RebuildAgent} {g : Option RebuildAgent} (ha : g.map (·.identity) ≠ some a.identity) :
    identityInvalidates (some a) g = true := by
  cases g with
  | none => rfl
  | some a' =>
    simp only [Option.map_some, ne_eq, Option.some.injEq, RebuildAgent.identity, Prod.mk.injEq, not_and] at ha
    by_cases htype : a'.type = a.type
    · have hid := ha htype
      simp [identityInvalidates, htype, Ne.symm hid]
    · simp [identityInvalidates, htype]

/-- An override does not outlive the identity that it was written against. -/
theorem override_patched {a : RebuildAgent} (ha : r.agent = some a) (h : patched r patch now = some next)
    (hchanged : next.agent.map (·.identity) ≠ some a.identity) : next.resumeCommandOverride = none := by
  have hkept : next.agent = r.agent → next.resumeCommandOverride = none := by
    intro heq
    rw [heq, ha] at hchanged
    exact absurd rfl hchanged
  cases patch with
  | agentGroup g =>
    obtain rfl := Option.some.inj h
    show (if identityInvalidates r.agent g.agent = true then none else r.resumeCommandOverride) = none
    rw [ha, if_pos (identityInvalidates_eq hchanged)]
  | agentBackfill b =>
    rcases backfilled_cases h with ⟨hnone, _⟩ | ⟨_, _, _, _, _, hdropped, _⟩ | ⟨_, _, rfl⟩
    · rw [ha] at hnone
      cases hnone
    · exact hdropped
    · exact hkept rfl
  | field f value =>
    simp only [patched] at h
    split at h
    · cases h
    · cases f <;> obtain rfl := Option.some.inj h <;> exact hkept rfl
  | probeCwd cwd =>
    simp only [patched] at h
    split at h
    · cases h
    · obtain rfl := Option.some.inj h
      exact hkept rfl
  | unverified flag =>
    simp only [patched] at h
    split at h
    · cases h
    · obtain rfl := Option.some.inj h
      exact hkept rfl

theorem capturedAt_confirms (hconfirms : patch.Confirms r) (h : patched r patch now = some next) : next.capturedAt = r.capturedAt := by
  cases patch with
  | agentBackfill b =>
    obtain ⟨_, a, ha, hidentity⟩ := hconfirms
    rcases backfilled_cases h with ⟨hnone, _⟩ | ⟨a', ha', hdiffers, _⟩ | ⟨_, _, rfl⟩
    · rw [ha] at hnone
      cases hnone
    · rw [ha] at ha'
      obtain rfl := Option.some.inj ha'
      exact absurd hidentity hdiffers
    · rfl
  | agentGroup | field | probeCwd | unverified => exact hconfirms.elim

/-- A patch that only re-stamps the record is misapplied to it. -/
theorem capturedAt_idle (hgroup : ¬patch.IsGroup) (happlied : ¬Misapplied r now patch) (h : patched r patch now = some next)
    (hidle : next.undated = r.undated) : next.capturedAt = r.capturedAt := by
  cases patch with
  | agentGroup g => exact absurd trivial hgroup
  | agentBackfill b =>
    have hagent : next.agent = r.agent := (congrArg PaneRebuildRecord.agent hidle :)
    rcases backfilled_cases h with ⟨hnone, hsome, _⟩ | ⟨a, ha, hdiffers, hsome, _⟩ | ⟨_, _, rfl⟩
    · rw [hnone, hsome] at hagent
      cases hagent
    · rw [ha, hsome] at hagent
      obtain rfl := Option.some.inj hagent
      exact absurd rfl hdiffers
    · rfl
  | field f value =>
    simp only [patched] at h
    split at h
    · cases h
    · rename_i hwrites
      cases f <;> obtain rfl := Option.some.inj h
      · have hcwd : some value = r.cwd := congrArg PaneRebuildRecord.cwd hidle
        have hsource : some .user = r.cwdSource := congrArg PaneRebuildRecord.cwdSource hidle
        exact absurd ⟨hcwd.symm, fun hpromotes => hpromotes.2 hsource.symm⟩ hwrites
      · have hoverride : (if value = "" then none else some value) = r.resumeCommandOverride :=
          congrArg PaneRebuildRecord.resumeCommandOverride hidle
        by_cases hempty : value = ""
        · rw [if_pos hempty] at hoverride
          by_contra hstamp
          exact happlied ⟨rfl, hempty, hoverride.symm, hstamp⟩
        · rw [if_neg hempty] at hoverride
          exact absurd ⟨hoverride.symm, fun hpromotes => by cases hpromotes.1⟩ hwrites
      · have hname : value = r.sessionName := congrArg PaneRebuildRecord.sessionName hidle
        exact absurd ⟨congrArg some hname.symm, fun hpromotes => by cases hpromotes.1⟩ hwrites
  | probeCwd cwd =>
    simp only [patched] at h
    split at h
    · cases h
    · obtain rfl := Option.some.inj h
      have hcwd : some cwd = r.cwd := congrArg PaneRebuildRecord.cwd hidle
      have hsource : some .paneProbe = r.cwdSource := congrArg PaneRebuildRecord.cwdSource hidle
      by_contra hstamp
      exact happlied ⟨Decidable.not_not.1 ‹_›, .inr ⟨hcwd.symm, hsource.symm, hstamp⟩⟩
  | unverified flag =>
    simp only [patched] at h
    split at h
    · cases h
    · obtain rfl := Option.some.inj h
      have hflag : some flag = r.unverified := congrArg PaneRebuildRecord.unverified hidle
      exact absurd hflag.symm ‹_›

end Patched

section Ranking

variable {c : TmuxSessionContent} {patch : RebuildPatch} {now : Nat}

/-- What holds of a record that stays and of a record that replaces it holds after the patch. -/
theorem after_patch (motive : PaneRebuildRecord → Prop) (stays : motive c.record)
    (replaced : ∀ next, patched c.record patch now = some next → motive next) : motive (c.applyRebuildPatch patch now).record := by
  rw [TmuxSessionContent.record_applyRebuildPatch]
  cases h : patched c.record patch now with
  | none => exact stays
  | some next => exact replaced next h

theorem cwdSourced_applyRebuildPatch (hr : CwdSourced c.record) : CwdSourced (c.applyRebuildPatch patch now).record :=
  after_patch CwdSourced hr fun _ h => cwdSourced_patched hr h

/-- After the daemon's answer the agent is known and confirmed, and the answer says nothing new. -/
theorem backfilled_applyRebuildPatch (b : AgentBackfill) :
    (∀ later, ((c.applyRebuildPatch (.agentBackfill b) now).applyRebuildPatch (.agentBackfill b) later).undated =
      (c.applyRebuildPatch (.agentBackfill b) now).undated) ∧
      (c.applyRebuildPatch (.agentBackfill b) now).record.agent.isSome ∧
        (c.applyRebuildPatch (.agentBackfill b) now).record.unverified ≠ some true := by
  have hknown : (c.applyRebuildPatch (.agentBackfill b) now).record.agent.isSome ∧
      (c.applyRebuildPatch (.agentBackfill b) now).record.unverified ≠ some true := by
    cases h : backfilled c.record b now with
    | none =>
      have heq : c.applyRebuildPatch (.agentBackfill b) now = c := by
        rw [TmuxSessionContent.applyRebuildPatch, patched, h]
      rw [heq]
      unfold backfilled at h
      cases hagent : c.record.agent with
      | none =>
        rw [hagent] at h
        cases h
      | some a =>
        rw [hagent] at h
        dsimp only at h
        split at h
        · cases h
        · split at h
          · cases h
          · exact ⟨rfl, ‹_›⟩
    | some next =>
      obtain ⟨hagent, hflag⟩ := agent_backfilled h
      rw [TmuxSessionContent.record_applyRebuildPatch, patched, h, Option.getD_some, hflag]
      exact ⟨hagent, nofun⟩
  refine ⟨fun later => congrArg _ ?_, hknown⟩
  rw [TmuxSessionContent.applyRebuildPatch.eq_def _ _ later, patched, backfilled_eq_none hknown.1 hknown.2]

/-- A writer keeps to its rank exactly where its patch is not misapplied. -/
theorem ranked_iff (hr : CwdSourced c.record) : Ranked c patch now ↔ ¬Misapplied c.record now patch := by
  constructor
  · intro h happlied
    cases patch with
    | agentGroup | agentBackfill | unverified => exact happlied
    | field f value =>
      obtain ⟨rfl, rfl, hnone, hstamp⟩ := happlied
      have hafter : (c.applyRebuildPatch (.field .resumeCommandOverride "") now).record = { c.record with capturedAt := now } := by
        rw [TmuxSessionContent.record_applyRebuildPatch, patched, if_neg]
        · rw [Option.getD_some, if_pos rfl, ← hnone]
        · rintro ⟨hsame, _⟩
          rw [PaneRebuildRecord.value, hnone] at hsame
          cases hsame
      refine hstamp ?_
      have hidle := h.idle id (by rw [hafter]; rfl)
      rw [hafter] at hidle
      exact hidle
    | probeCwd cwd =>
      obtain ⟨hfalsy, hover⟩ := happlied
      have hafter : (c.applyRebuildPatch (.probeCwd cwd) now).record =
          { c.record with cwd := some cwd, cwdSource := some .paneProbe, capturedAt := now } := by
        rw [TmuxSessionContent.record_applyRebuildPatch, patched, if_neg (not_not.2 hfalsy), Option.getD_some]
      rcases hover with huser | ⟨hcwd, hprobe, hstamp⟩
      · have hkept := (h.userKept huser id).2
        rw [hafter] at hkept
        cases hkept
      · refine hstamp ?_
        have hidle := h.idle id (by rw [hafter, ← hcwd, ← hprobe]; rfl)
        rw [hafter] at hidle
        exact hidle
  · intro happlied
    refine ⟨fun huser hwrites => ?_, fun a ha hchanged => ?_, ?_, fun hconfirms => ?_, fun hgroup hidle => ?_⟩
    · exact after_patch (fun r => r.cwd = c.record.cwd ∧ r.cwdSource = some .user) ⟨rfl, huser⟩
        fun _ h => userCwd_patched hr huser hwrites happlied h
    · revert hchanged
      refine after_patch (fun r => r.agent.map (·.identity) ≠ some a.identity → r.resumeCommandOverride = none) ?_ ?_
      · intro hchanged
        rw [Option.mem_def.1 ha] at hchanged
        exact absurd rfl hchanged
      · exact fun _ h hchanged => override_patched ha h hchanged
    · rintro b rfl
      exact backfilled_applyRebuildPatch b
    · exact after_patch (fun r => r.capturedAt = c.record.capturedAt) rfl fun _ h => capturedAt_confirms hconfirms h
    · revert hidle
      exact after_patch (fun r => r.undated = c.record.undated → r.capturedAt = c.record.capturedAt) (fun _ => rfl)
        fun _ h hidle => capturedAt_idle hgroup happlied h hidle

end Ranking

/-- The writers keep to their ranks over a sequence of patches exactly where the record starts out with a
source for its cwd and no patch is misapplied. -/
theorem ranksWriters_iff (c : TmuxSessionContent) (patches : List (RebuildPatch × Nat)) :
    RanksWriters c patches ↔ CwdSourced c.record ∧ NoneMisapplied c patches := by
  induction patches generalizing c with
  | nil => exact (and_iff_left trivial).symm
  | cons p rest ih =>
    obtain ⟨patch, now⟩ := p
    rw [RanksWriters, NoneMisapplied, ih]
    constructor
    · rintro ⟨hr, hranked, _, hrest⟩
      exact ⟨hr, (ranked_iff hr).1 hranked, hrest⟩
    · rintro ⟨hr, happlied, hrest⟩
      exact ⟨hr, (ranked_iff hr).2 happlied, cwdSourced_applyRebuildPatch hr, hrest⟩

/-- A pane whose user cleared the cwd that a probe had found. -/
def clearedCwd : TmuxSessionContent where
  hostId := "h"
  sessionCode := "$1"
  mode := .terminal
  cachedName := "work"
  tmuxInstance := "i"
  terminated := none
  rebuild := some ⟨"work", "i", some "", some .user, none, none, none, 3⟩

/-- The next probe writes over what the user cleared. -/
theorem clearedCwd_probed : ¬RanksWriters clearedCwd [(.probeCwd "/work", 4)] := by
  intro h
  exact absurd (h.2.1.userKept rfl id) (by decide)

end Purdex.Panes
