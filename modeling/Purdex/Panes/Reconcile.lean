/-
What a `sessions` payload decides: each pane on its own, whatever its siblings.
-/
import Purdex.Panes.Binding

namespace Purdex.Panes

open Json

/-! ## The decision -/

structure ReconcileSession where
  code : String
  tmuxInstance : Option String
  deriving Repr, DecidableEq

structure TerminateDecision where
  hostId : String
  sessionCode : String
  expectedTmuxInstance : String
  reason : TerminatedReason
  deriving Repr, DecidableEq

structure AdoptDecision where
  sessionCode : String
  tmuxInstance : String
  deriving Repr, DecidableEq

/-- What was decided so far. The keys of the decisions have no separator in their parts, so that they are
triples here. -/
structure ReconcileOutcome where
  terminate : List TerminateDecision
  seenTerminate : List (String × String × TerminatedReason)
  adoptInstance : List AdoptDecision
  seenAdopt : List String

namespace ReconcileOutcome

def empty : ReconcileOutcome := ⟨[], [], [], []⟩

def pushTerminate (out : ReconcileOutcome) (hostId sessionCode expectedTmuxInstance : String) (reason : TerminatedReason) :
    ReconcileOutcome :=
  if (sessionCode, expectedTmuxInstance, reason) ∈ out.seenTerminate then out
  else { out with
    seenTerminate := (sessionCode, expectedTmuxInstance, reason) :: out.seenTerminate
    terminate := out.terminate ++ [⟨hostId, sessionCode, expectedTmuxInstance, reason⟩] }

end ReconcileOutcome

/-- The generations by code; a later entry of the payload replaces an earlier one. -/
def liveInstances (sessions : List ReconcileSession) (code : String) : Option String :=
  (sessions.reverse.find? (·.code = code)).map (·.tmuxInstance.getD "")

def reconcilePane (hostId : String) (sessions : List ReconcileSession) (out : ReconcileOutcome) (pane : SessionBinding) :
    ReconcileOutcome :=
  if pane.hostId ≠ hostId then out
  else match liveInstances sessions pane.sessionCode with
    | none => out.pushTerminate hostId pane.sessionCode pane.tmuxInstance .sessionClosed
    | some live =>
      if pane.tmuxInstance = "" then
        if live ≠ "" ∧ pane.sessionCode ∉ out.seenAdopt then
          { out with
            seenAdopt := pane.sessionCode :: out.seenAdopt
            adoptInstance := out.adoptInstance ++ [⟨pane.sessionCode, live⟩] }
        else out
      else if live ≠ "" ∧ live ≠ pane.tmuxInstance then
        out.pushTerminate hostId pane.sessionCode pane.tmuxInstance .tmuxRestarted
      else out

def reconcileSessionsPayload (hostId : String) (sessions : List ReconcileSession) (panes : List SessionBinding) : ReconcileOutcome :=
  panes.foldl (reconcilePane hostId sessions) .empty

/-- The bindings of the panes that are live. -/
def livePanes (tabs : Tabs) : List SessionBinding :=
  tabs.panes.filterMap fun pane => match pane.content with
    | .tmuxSession c => if c.terminated = none then some c.binding else none
    | _ => none

/-- Adoptions go first: a pane that has taken the live generation is not matched by a sibling's restart. -/
def applyOutcome (hostId : String) (out : ReconcileOutcome) (tabs : Tabs) : Tabs :=
  let adopted := out.adoptInstance.foldl (fun tabs d => adoptTmuxInstance hostId d.sessionCode d.tmuxInstance tabs) tabs
  out.terminate.foldl (fun tabs d => markTerminatedForGeneration hostId d.sessionCode d.expectedTmuxInstance d.reason tabs) adopted

def applySessionsPayload (hostId : String) (sessions : List ReconcileSession) (tabs : Tabs) : Tabs :=
  applyOutcome hostId (reconcileSessionsPayload hostId sessions (livePanes tabs)) tabs

/-! ## The rule -/

/-- What a payload means for one live pane. -/
def paneRule (hostId : String) (sessions : List ReconcileSession) (c : TmuxSessionContent) : TmuxSessionContent :=
  if c.hostId ≠ hostId then c
  else match sessions.find? (·.code = c.sessionCode) with
    | none => { c with terminated := some .sessionClosed }
    | some s =>
      let live := s.tmuxInstance.getD ""
      if live = "" then c
      else if c.tmuxInstance = "" then { c with tmuxInstance := live }
      else if live ≠ c.tmuxInstance then { c with terminated := some .tmuxRestarted }
      else c

/-- The payload decides a live pane by the rule; a pane that is terminated keeps its reason, and what is
not a session stays as it is. -/
def DecidedAlone (hostId : String) (sessions : List ReconcileSession) : PaneContent → PaneContent → Prop
  | .tmuxSession c, after =>
    match c.terminated with
    | none => after = .tmuxSession (paneRule hostId sessions c)
    | some _ => ∃ tmuxInstance, after = .tmuxSession { c with tmuxInstance }
  | content, after => after = content

/-- Pane by pane, the store after the payload is what the payload makes of each pane alone. -/
def DecidesEach (hostId : String) (sessions : List ReconcileSession) (tabs : Tabs) : Prop :=
  ∃ f, applySessionsPayload hostId sessions tabs = tabs.mapContent f ∧
    ∀ pane ∈ tabs.panes, DecidedAlone hostId sessions pane.content (f pane.content)

/-! ## Decisions -/

/-- The decision about one pane. -/
def decision (hostId : String) (sessions : List ReconcileSession) (pane : SessionBinding) : Option (TerminateDecision ⊕ AdoptDecision) :=
  if pane.hostId ≠ hostId then none
  else match liveInstances sessions pane.sessionCode with
    | none => some (.inl ⟨hostId, pane.sessionCode, pane.tmuxInstance, .sessionClosed⟩)
    | some live =>
      if live = "" then none
      else if pane.tmuxInstance = "" then some (.inr ⟨pane.sessionCode, live⟩)
      else if live ≠ pane.tmuxInstance then some (.inl ⟨hostId, pane.sessionCode, pane.tmuxInstance, .tmuxRestarted⟩)
      else none

section Decisions

variable {hostId code expected : String} {sessions : List ReconcileSession} {reason : TerminatedReason} {out : ReconcileOutcome}
  {panes : List SessionBinding}

/-- What was seen was decided. -/
structure Seen (hostId : String) (sessions : List ReconcileSession) (out : ReconcileOutcome) : Prop where
  terminate : ∀ code expected reason, (code, expected, reason) ∈ out.seenTerminate → ⟨hostId, code, expected, reason⟩ ∈ out.terminate
  adopt : ∀ code ∈ out.seenAdopt, ∀ live, liveInstances sessions code = some live → ⟨code, live⟩ ∈ out.adoptInstance

/-- One more decision, unless it is there. -/
structure Adds (out next : ReconcileOutcome) (added : Option (TerminateDecision ⊕ AdoptDecision)) : Prop where
  terminate : ∀ d, d ∈ next.terminate ↔ d ∈ out.terminate ∨ added = some (.inl d)
  adopt : ∀ d, d ∈ next.adoptInstance ↔ d ∈ out.adoptInstance ∨ added = some (.inr d)

theorem Adds.none : Adds out out none := ⟨fun _ => by simp, fun _ => by simp⟩

theorem Seen.pushTerminate (h : Seen hostId sessions out) (code expected : String) (reason : TerminatedReason) :
    Seen hostId sessions (out.pushTerminate hostId code expected reason) ∧
      Adds out (out.pushTerminate hostId code expected reason) (some (.inl ⟨hostId, code, expected, reason⟩)) := by
  unfold ReconcileOutcome.pushTerminate
  split
  · rename_i hseen
    have hmem := h.terminate _ _ _ hseen
    refine ⟨h, fun d => ?_, fun d => by simp⟩
    constructor
    · exact .inl
    · rintro (hd | hd)
      · exact hd
      · exact Sum.inl.inj (Option.some.inj hd) ▸ hmem
  · refine ⟨⟨fun code' expected' reason' hkey => ?_, h.adopt⟩, fun d => ?_, fun d => by simp⟩
    · rcases List.mem_cons.1 hkey with heq | hkey
      · obtain ⟨rfl, rfl, rfl⟩ := heq
        exact List.mem_append_right _ List.mem_cons_self
      · exact List.mem_append_left _ (h.terminate _ _ _ hkey)
    · rw [List.mem_append, List.mem_singleton, Option.some.injEq, Sum.inl.injEq, eq_comm (a := d)]

/-- A pane is decided the same whatever was decided before it. -/
theorem Seen.reconcilePane (h : Seen hostId sessions out) (pane : SessionBinding) :
    Seen hostId sessions (reconcilePane hostId sessions out pane) ∧
      Adds out (reconcilePane hostId sessions out pane) (decision hostId sessions pane) := by
  unfold Panes.reconcilePane decision
  split
  · exact ⟨h, .none⟩
  cases hlive : liveInstances sessions pane.sessionCode with
  | none => exact h.pushTerminate _ _ _
  | some live =>
    dsimp only
    by_cases hknown : live = ""
    · rw [if_pos hknown, if_neg fun hc : live ≠ "" ∧ pane.sessionCode ∉ out.seenAdopt => hc.1 hknown,
        if_neg fun hc : live ≠ "" ∧ live ≠ pane.tmuxInstance => hc.1 hknown, ite_self]
      exact ⟨h, .none⟩
    rw [if_neg hknown]
    by_cases hrecorded : pane.tmuxInstance = ""
    · rw [if_pos hrecorded, if_pos hrecorded]
      by_cases hseen : pane.sessionCode ∈ out.seenAdopt
      · have hmem := h.adopt _ hseen live hlive
        rw [if_neg fun hc => hc.2 hseen]
        refine ⟨h, fun d => by simp, fun d => ⟨.inl, ?_⟩⟩
        rintro (hd | hd)
        · exact hd
        · exact Sum.inr.inj (Option.some.inj hd) ▸ hmem
      · rw [if_pos ⟨hknown, hseen⟩]
        refine ⟨⟨h.terminate, fun code hcode live' hlive' => ?_⟩, fun d => by simp, fun d => ?_⟩
        · rcases List.mem_cons.1 hcode with rfl | hcode
          · obtain rfl := Option.some.inj (hlive.symm.trans hlive')
            exact List.mem_append_right _ List.mem_cons_self
          · exact List.mem_append_left _ (h.adopt _ hcode _ hlive')
        · rw [List.mem_append, List.mem_singleton, Option.some.injEq, Sum.inr.injEq, eq_comm (a := d)]
    · rw [if_neg hrecorded, if_neg hrecorded]
      by_cases hmoved : live = pane.tmuxInstance
      · rw [if_neg fun hc => hc.2 hmoved, if_neg (not_not.2 hmoved)]
        exact ⟨h, .none⟩
      · rw [if_pos ⟨hknown, hmoved⟩, if_pos hmoved]
        exact h.pushTerminate _ _ _

theorem Seen.foldl (h : Seen hostId sessions out) (panes : List SessionBinding) :
    (∀ d, d ∈ (panes.foldl (Panes.reconcilePane hostId sessions) out).terminate ↔
      d ∈ out.terminate ∨ ∃ pane ∈ panes, decision hostId sessions pane = some (.inl d)) ∧
    (∀ d, d ∈ (panes.foldl (Panes.reconcilePane hostId sessions) out).adoptInstance ↔
      d ∈ out.adoptInstance ∨ ∃ pane ∈ panes, decision hostId sessions pane = some (.inr d)) := by
  induction panes generalizing out with
  | nil => simp
  | cons pane rest ih =>
    obtain ⟨hseen, hadds⟩ := h.reconcilePane pane
    obtain ⟨hterminate, hadopt⟩ := ih hseen
    refine ⟨fun d => ?_, fun d => ?_⟩
    · rw [List.foldl_cons, hterminate, hadds.terminate, List.exists_mem_cons_iff, or_assoc]
    · rw [List.foldl_cons, hadopt, hadds.adopt, List.exists_mem_cons_iff, or_assoc]

/-- The decisions of a payload are those about its panes. -/
theorem mem_terminate {d : TerminateDecision} : d ∈ (reconcileSessionsPayload hostId sessions panes).terminate ↔
    ∃ pane ∈ panes, decision hostId sessions pane = some (.inl d) := by
  have hseen : Seen hostId sessions .empty := ⟨nofun, nofun⟩
  exact ((hseen.foldl panes).1 d).trans (or_iff_right (List.not_mem_nil))

theorem mem_adopt {d : AdoptDecision} : d ∈ (reconcileSessionsPayload hostId sessions panes).adoptInstance ↔
    ∃ pane ∈ panes, decision hostId sessions pane = some (.inr d) := by
  have hseen : Seen hostId sessions .empty := ⟨nofun, nofun⟩
  exact ((hseen.foldl panes).2 d).trans (or_iff_right (List.not_mem_nil))

end Decisions

/-! ## Applying the decisions -/

/-- What the adoptions make of one session. -/
def adoptPane (hostId : String) (d : AdoptDecision) (c : TmuxSessionContent) : TmuxSessionContent :=
  if c.hostId = hostId ∧ c.sessionCode = d.sessionCode ∧ c.tmuxInstance = "" then { c with tmuxInstance := d.tmuxInstance } else c

/-- What a termination makes of one session. -/
def terminatePane (hostId : String) (d : TerminateDecision) (c : TmuxSessionContent) : TmuxSessionContent :=
  if MarksPane hostId d.sessionCode (some d.expectedTmuxInstance) c then { c with terminated := some d.reason } else c

/-- What an outcome makes of one session. -/
def settlePane (hostId : String) (out : ReconcileOutcome) (c : TmuxSessionContent) : TmuxSessionContent :=
  out.terminate.foldl (fun c d => terminatePane hostId d c) (out.adoptInstance.foldl (fun c d => adoptPane hostId d c) c)

def onSession (f : TmuxSessionContent → TmuxSessionContent) : PaneContent → PaneContent
  | .tmuxSession c => .tmuxSession (f c)
  | content => content

theorem foldl_onSession {α : Type} (f : α → TmuxSessionContent → TmuxSessionContent) (ds : List α) (x : PaneContent) :
    ds.foldl (fun x d => onSession (f d) x) x = onSession (fun c => ds.foldl (fun c d => f d c) c) x := by
  induction ds generalizing x with
  | nil => cases x <;> rfl
  | cons d rest ih =>
    rw [List.foldl_cons, ih]
    cases x <;> rfl

theorem adoptTmuxInstance_eq {hostId : String} {d : AdoptDecision} (hknown : d.tmuxInstance ≠ "") (tabs : Tabs) :
    adoptTmuxInstance hostId d.sessionCode d.tmuxInstance tabs = tabs.mapContent (onSession (adoptPane hostId d)) := by
  rw [adoptTmuxInstance, if_neg hknown]
  rfl

/-- Applying an outcome to the store is applying it to each pane. -/
theorem applyOutcome_eq {hostId : String} {out : ReconcileOutcome} (hknown : ∀ d ∈ out.adoptInstance, d.tmuxInstance ≠ "") (tabs : Tabs) :
    applyOutcome hostId out tabs = tabs.mapContent (onSession (settlePane hostId out)) := by
  have hadopt : out.adoptInstance.foldl (fun tabs d => adoptTmuxInstance hostId d.sessionCode d.tmuxInstance tabs) tabs =
      tabs.mapContent (onSession fun c => out.adoptInstance.foldl (fun c d => adoptPane hostId d c) c) := by
    rw [List.foldl_ext _ (fun tabs d => tabs.mapContent (onSession (adoptPane hostId d))) tabs fun tabs d hd => adoptTmuxInstance_eq (hknown d hd) tabs,
      Tabs.foldl_mapContent]
    exact Tabs.mapContent_congr fun pane _ => foldl_onSession _ _ _
  have hterminate : ∀ tabs : Tabs, out.terminate.foldl (fun tabs d =>
      markTerminatedForGeneration hostId d.sessionCode d.expectedTmuxInstance d.reason tabs) tabs =
      tabs.mapContent (onSession fun c => out.terminate.foldl (fun c d => terminatePane hostId d c) c) := by
    intro tabs
    refine (Tabs.foldl_mapContent tabs (fun d => onSession (terminatePane hostId d)) out.terminate).trans ?_
    exact Tabs.mapContent_congr fun pane _ => foldl_onSession _ _ _
  rw [applyOutcome, hadopt, hterminate, Tabs.mapContent_mapContent]
  refine Tabs.mapContent_congr fun pane _ => ?_
  cases pane.content <;> rfl

section Folds

variable {α β : Type} {f : α → β → β} {c c' : β} {ds : List α}

theorem foldl_unmoved (h : ∀ d ∈ ds, f d c = c) : ds.foldl (fun c d => f d c) c = c := by
  induction ds with
  | nil => rfl
  | cons d rest ih =>
    rw [List.foldl_cons, h d List.mem_cons_self]
    exact ih fun d hd => h d (List.mem_cons_of_mem _ hd)

/-- One of the steps leads to `c'`, and none leads elsewhere. -/
theorem foldl_once (hstep : ∀ d ∈ ds, f d c = c ∨ f d c = c') (hstays : ∀ d ∈ ds, f d c' = c') (hsome : ∃ d ∈ ds, f d c = c') :
    ds.foldl (fun c d => f d c) c = c' := by
  induction ds with
  | nil =>
    obtain ⟨_, hd, _⟩ := hsome
    cases hd
  | cons d rest ih =>
    have hrest := foldl_unmoved fun d hd => hstays d (List.mem_cons_of_mem _ hd)
    rw [List.foldl_cons]
    rcases hstep d List.mem_cons_self with hd | hd
    · rw [hd]
      obtain ⟨d', hd', hmoves⟩ := hsome
      rcases List.mem_cons.1 hd' with rfl | hd'
      · obtain rfl : c = c' := hd.symm.trans hmoves
        exact hrest
      · exact ih (fun d hd => hstep d (List.mem_cons_of_mem _ hd)) (fun d hd => hstays d (List.mem_cons_of_mem _ hd)) ⟨d', hd', hmoves⟩
    · rw [hd]
      exact hrest

end Folds

section Settled

variable {hostId : String} {sessions : List ReconcileSession} {panes : List SessionBinding} {c : TmuxSessionContent}

theorem liveInstances_eq (hcodes : (sessions.map (·.code)).Nodup) (code : String) :
    liveInstances sessions code = (sessions.find? (·.code = code)).map (·.tmuxInstance.getD "") := by
  have hfind : sessions.reverse.find? (·.code = code) = sessions.find? (·.code = code) := by
    induction sessions with
    | nil => rfl
    | cons s rest ih =>
      rw [List.map_cons, List.nodup_cons] at hcodes
      rw [List.reverse_cons, List.find?_append, ih hcodes.2]
      by_cases hs : s.code = code
      · have hnone : rest.find? (·.code = code) = none := by
          refine List.find?_eq_none.2 fun s' hs' heq => hcodes.1 ?_
          rw [hs, ← of_decide_eq_true heq]
          exact List.mem_map_of_mem hs'
        simp [hnone, hs]
      · simp [hs]
  rw [liveInstances, hfind]

theorem of_decision_terminate {pane : SessionBinding} {d : TerminateDecision} (h : decision hostId sessions pane = some (.inl d)) :
    (liveInstances sessions d.sessionCode = none ∧ d.reason = .sessionClosed) ∨
    (∃ live, liveInstances sessions d.sessionCode = some live ∧ live ≠ "" ∧ d.expectedTmuxInstance ≠ "" ∧
      live ≠ d.expectedTmuxInstance ∧ d.reason = .tmuxRestarted) := by
  unfold decision at h
  split at h
  · cases h
  cases hlive : liveInstances sessions pane.sessionCode with
  | none =>
    rw [hlive] at h
    obtain rfl := Sum.inl.inj (Option.some.inj h)
    exact .inl ⟨hlive, rfl⟩
  | some live =>
    rw [hlive] at h
    dsimp only at h
    split at h
    · cases h
    split at h
    · cases h
    split at h
    · obtain rfl := Sum.inl.inj (Option.some.inj h)
      exact .inr ⟨live, hlive, ‹_›, ‹_›, ‹_›, rfl⟩
    · cases h

theorem of_decision_adopt {pane : SessionBinding} {d : AdoptDecision} (h : decision hostId sessions pane = some (.inr d)) :
    liveInstances sessions d.sessionCode = some d.tmuxInstance ∧ d.tmuxInstance ≠ "" := by
  unfold decision at h
  split at h
  · cases h
  cases hlive : liveInstances sessions pane.sessionCode with
  | none =>
    rw [hlive] at h
    cases h
  | some live =>
    rw [hlive] at h
    dsimp only at h
    split at h
    · cases h
    split at h
    · obtain rfl := Sum.inr.inj (Option.some.inj h)
      exact ⟨hlive, ‹_›⟩
    split at h
    · cases h
    · cases h

theorem adoptPane_of_not {d : AdoptDecision} (h : ¬(c.hostId = hostId ∧ c.sessionCode = d.sessionCode ∧ c.tmuxInstance = "")) :
    adoptPane hostId d c = c := if_neg h

theorem terminatePane_of_not {d : TerminateDecision} (h : ¬MarksPane hostId d.sessionCode (some d.expectedTmuxInstance) c) :
    terminatePane hostId d c = c := if_neg h

/-- The pane is decided by what the payload says of its code. -/
theorem settlePane_live (hlive : c.terminated = none) (hpane : c.binding ∈ panes) :
    settlePane hostId (reconcileSessionsPayload hostId sessions panes) c =
      if c.hostId ≠ hostId then c
      else match liveInstances sessions c.sessionCode with
        | none => { c with terminated := some .sessionClosed }
        | some live =>
          if live = "" then c
          else if c.tmuxInstance = "" then { c with tmuxInstance := live }
          else if live ≠ c.tmuxInstance then { c with terminated := some .tmuxRestarted }
          else c := by
  unfold settlePane
  by_cases hhost : c.hostId = hostId
  swap
  · rw [if_pos hhost, foldl_unmoved fun d _ => adoptPane_of_not fun h => hhost h.1,
      foldl_unmoved fun d _ => terminatePane_of_not fun h => hhost h.1]
  rw [if_neg (not_not.2 hhost)]
  have hown : decision hostId sessions c.binding = match liveInstances sessions c.sessionCode with
      | none => some (.inl ⟨hostId, c.sessionCode, c.tmuxInstance, .sessionClosed⟩)
      | some live =>
        if live = "" then none
        else if c.tmuxInstance = "" then some (.inr ⟨c.sessionCode, live⟩)
        else if live ≠ c.tmuxInstance then some (.inl ⟨hostId, c.sessionCode, c.tmuxInstance, .tmuxRestarted⟩)
        else none := if_neg (not_not.2 hhost)
  have hadopted : ∀ d ∈ (reconcileSessionsPayload hostId sessions panes).adoptInstance, c.sessionCode = d.sessionCode →
      liveInstances sessions c.sessionCode = some d.tmuxInstance ∧ d.tmuxInstance ≠ "" := by
    intro d hd hcode
    obtain ⟨_, _, hd⟩ := mem_adopt.1 hd
    rw [hcode]
    exact of_decision_adopt hd
  have hended : ∀ d ∈ (reconcileSessionsPayload hostId sessions panes).terminate, c.sessionCode = d.sessionCode →
      (liveInstances sessions c.sessionCode = none ∧ d.reason = .sessionClosed) ∨
      (∃ live, liveInstances sessions c.sessionCode = some live ∧ live ≠ "" ∧ d.expectedTmuxInstance ≠ "" ∧
        live ≠ d.expectedTmuxInstance ∧ d.reason = .tmuxRestarted) := by
    intro d hd hcode
    obtain ⟨_, _, hd⟩ := mem_terminate.1 hd
    rw [hcode]
    exact of_decision_terminate hd
  cases hinstance : liveInstances sessions c.sessionCode with
  | none =>
    rw [hinstance] at hown hadopted hended
    rw [foldl_unmoved fun d hd => adoptPane_of_not fun h => by cases (hadopted d hd h.2.1).1]
    refine foldl_once (fun d hd => ?_) (fun d hd => terminatePane_of_not fun h => by cases h.2.2.2) ?_
    · by_cases hmarks : MarksPane hostId d.sessionCode (some d.expectedTmuxInstance) c
      · rcases hended d hd hmarks.2.1 with ⟨_, hreason⟩ | ⟨_, hnone, _⟩
        · exact .inr (by rw [terminatePane, if_pos hmarks, hreason])
        · cases hnone
      · exact .inl (terminatePane_of_not hmarks)
    · refine ⟨_, mem_terminate.2 ⟨_, hpane, hown⟩, if_pos ⟨hhost, rfl, ?_, hlive⟩⟩
      rintro _ ⟨⟩
      exact .inr rfl
  | some live =>
    rw [hinstance] at hown hadopted hended
    dsimp only at hown ⊢
    by_cases hknown : live = ""
    · -- an unknown generation decides nothing
      rw [if_pos hknown, foldl_unmoved fun d hd => adoptPane_of_not fun h => ?_]
      · refine foldl_unmoved fun d hd => terminatePane_of_not fun h => ?_
        rcases hended d hd h.2.1 with ⟨hnone, _⟩ | ⟨live', hlive', hknown', _⟩
        · cases hnone
        · obtain rfl := Option.some.inj hlive'
          exact hknown' hknown
      · obtain ⟨hlive', hknown'⟩ := hadopted d hd h.2.1
        exact hknown' ((Option.some.inj hlive').symm.trans hknown)
    rw [if_neg hknown] at hown ⊢
    by_cases hrecorded : c.tmuxInstance = ""
    · rw [if_pos hrecorded] at hown ⊢
      have htakes : (reconcileSessionsPayload hostId sessions panes).adoptInstance.foldl (fun c d => adoptPane hostId d c) c =
          { c with tmuxInstance := live } := by
        refine foldl_once (fun d hd => ?_) (fun d hd => adoptPane_of_not fun h => hknown h.2.2) ?_
        · by_cases hadopts : c.hostId = hostId ∧ c.sessionCode = d.sessionCode ∧ c.tmuxInstance = ""
          · refine .inr ?_
            rw [adoptPane, if_pos hadopts, Option.some.inj (hadopted d hd hadopts.2.1).1]
          · exact .inl (adoptPane_of_not hadopts)
        · exact ⟨_, mem_adopt.2 ⟨_, hpane, hown⟩, if_pos ⟨hhost, rfl, hrecorded⟩⟩
      rw [htakes]
      -- a sibling's restart does not match the generation that was just taken
      refine foldl_unmoved fun d hd => terminatePane_of_not fun h => ?_
      rcases hended d hd h.2.1 with ⟨hnone, _⟩ | ⟨live', hlive', _, _, hmoved, _⟩
      · cases hnone
      · obtain rfl := Option.some.inj hlive'
        rcases h.2.2.1 _ rfl with hempty | hsame
        · exact hknown hempty
        · exact hmoved hsame
    · rw [if_neg hrecorded] at hown ⊢
      rw [foldl_unmoved fun d hd => adoptPane_of_not fun h => hrecorded h.2.2]
      have hsame : ∀ d : TerminateDecision, MarksPane hostId d.sessionCode (some d.expectedTmuxInstance) c → c.tmuxInstance = d.expectedTmuxInstance :=
        fun d h => (h.2.2.1 _ rfl).resolve_left hrecorded
      by_cases hmoved : live = c.tmuxInstance
      · rw [if_neg (not_not.2 hmoved)]
        refine foldl_unmoved fun d hd => terminatePane_of_not fun h => ?_
        rcases hended d hd h.2.1 with ⟨hnone, _⟩ | ⟨live', hlive', _, _, hmoved', _⟩
        · cases hnone
        · obtain rfl := Option.some.inj hlive'
          exact hmoved' (hmoved.trans (hsame d h))
      · rw [if_pos hmoved] at hown ⊢
        refine foldl_once (fun d hd => ?_) (fun d hd => terminatePane_of_not fun h => by cases h.2.2.2) ?_
        · by_cases hmarks : MarksPane hostId d.sessionCode (some d.expectedTmuxInstance) c
          · rcases hended d hd hmarks.2.1 with ⟨hnone, _⟩ | ⟨_, _, _, _, _, hreason⟩
            · cases hnone
            · exact .inr (by rw [terminatePane, if_pos hmarks, hreason])
          · exact .inl (terminatePane_of_not hmarks)
        · refine ⟨_, mem_terminate.2 ⟨_, hpane, hown⟩, if_pos ⟨hhost, rfl, ?_, hlive⟩⟩
          rintro _ ⟨⟩
          exact .inr rfl

/-- A pane that is terminated keeps its reason. -/
theorem settlePane_terminated (hostId : String) {out : ReconcileOutcome} (hterminated : c.terminated ≠ none) :
    ∃ tmuxInstance, settlePane hostId out c = { c with tmuxInstance } := by
  have hadopt : ∀ ds : List AdoptDecision, ∀ c : TmuxSessionContent, ∃ tmuxInstance,
      ds.foldl (fun c d => adoptPane hostId d c) c = { c with tmuxInstance } := by
    intro ds
    induction ds with
    | nil => exact fun c => ⟨c.tmuxInstance, rfl⟩
    | cons d rest ih =>
      intro c
      obtain ⟨tmuxInstance, hrest⟩ := ih (adoptPane hostId d c)
      refine ⟨tmuxInstance, ?_⟩
      rw [List.foldl_cons, hrest, adoptPane]
      split <;> rfl
  obtain ⟨tmuxInstance, heq⟩ := hadopt out.adoptInstance c
  refine ⟨tmuxInstance, ?_⟩
  rw [settlePane, heq]
  exact foldl_unmoved fun d _ => terminatePane_of_not fun h => hterminated h.2.2.2

end Settled

/-- A payload with distinct codes decides every live pane by the rule, whatever the other panes are, and
leaves terminated panes terminated for their reason. -/
theorem payload_decides_each {hostId : String} {sessions : List ReconcileSession} (hcodes : (sessions.map (·.code)).Nodup) (tabs : Tabs) :
    DecidesEach hostId sessions tabs := by
  refine ⟨_, applyOutcome_eq (fun d hd => ?_) tabs, fun pane hpane => ?_⟩
  · obtain ⟨_, _, hd⟩ := mem_adopt.1 hd
    exact (of_decision_adopt hd).2
  · cases hcontent : pane.content with
    | tmuxSession c =>
      rw [DecidedAlone]
      cases hterminated : c.terminated with
      | none =>
        have hlive : c.binding ∈ livePanes tabs := by
          refine List.mem_filterMap.2 ⟨pane, hpane, ?_⟩
          rw [hcontent]
          exact if_pos hterminated
        dsimp only
        rw [onSession, settlePane_live hterminated hlive, paneRule, liveInstances_eq hcodes]
        cases sessions.find? (·.code = c.sessionCode) <;> rfl
      | some reason =>
        obtain ⟨tmuxInstance, heq⟩ := settlePane_terminated hostId (c := c) (by rw [hterminated]; exact nofun)
        refine ⟨tmuxInstance, ?_⟩
        rw [← hterminated]
        exact congrArg PaneContent.tmuxSession heq
    | newTab | dashboard | hosts | history | settings | browser | memoryMonitor | editor | editorBuffers | imagePreview
      | pdfPreview | execution => exact rfl

def sessionPane (id sessionCode tmuxInstance : String) : PaneLayout :=
  .leaf ⟨id, .tmuxSession ⟨"h", sessionCode, .terminal, "work", tmuxInstance, none, none⟩⟩

/-- Siblings on one code, of an unknown, an old and the live generation, beside one whose session is gone. -/
def siblings : Tabs where
  entries := [("t1", ⟨"t1", false, false, .split "s" .h [sessionPane "p1" "$0" "", sessionPane "p2" "$0" "old"]⟩),
    ("t2", ⟨"t2", false, false, .split "s" .v [sessionPane "p3" "$0" "new", sessionPane "p4" "$1" "old"]⟩)]
  nodup := by decide

theorem payload_decides_siblings : DecidesEach "h" [⟨"$0", some "new"⟩, ⟨"$2", none⟩] siblings :=
  payload_decides_each (by decide) siblings

end Purdex.Panes
