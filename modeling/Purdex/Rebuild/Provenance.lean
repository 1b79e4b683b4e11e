/-
When the daemon is asked who owns a pane: the scheduler of one binding, under any order of triggers,
timers, answers, clock advances, pane and gate changes.
-/
import Purdex.Conc.Serial
import Purdex.Panes.Record
import Mathlib

namespace Purdex.Rebuild

open Conc Panes

/-! ## The scheduler -/

/-- The minimum gap between two requests. -/
def cooldownMs : Nat := 30000

structure SessionProvenance where
  found : Bool
  agentType : String
  sessionId : String
  cwd : String
  tmuxPaneId : String
  tmuxInstance : String
  lastSeenAt : Nat
  deriving Repr, DecidableEq

/-- A request of which the answer is awaited, or was handled already. -/
inductive Fetch where
  | asked
  | answered
  deriving Repr, DecidableEq

structure ArmedTimer where
  handle : Nat
  deadline : Nat
  deriving Repr, DecidableEq

/-- The scheduler of one binding, the requests and the timers it has out, and the world it looks at. -/
structure Probe where
  inFlight : Bool
  disowned : Bool
  nextAllowedAt : Nat
  pending : Bool
  timer : Option Nat
  fetches : List Fetch
  timers : List ArmedTimer
  handles : Nat
  now : Nat
  attachReady : Bool
  tabs : Tabs

/-- A pane that would take an answer. -/
def WantsAnswer (b : SessionBinding) : PaneContent → Prop
  | .tmuxSession c => c.mode = .terminal ∧ c.terminated = none ∧ c.hostId = b.hostId ∧ c.sessionCode = b.sessionCode ∧
      generationMatchesLegacy c.tmuxInstance b.tmuxInstance ∧
      ¬∃ r ∈ c.rebuild, r.agent.isSome ∧ r.unverified ≠ some true
  | _ => False

instance (b : SessionBinding) : ∀ content, Decidable (WantsAnswer b content)
  | .tmuxSession c =>
    have : Decidable (∃ r ∈ c.rebuild, r.agent.isSome ∧ r.unverified ≠ some true) :=
      decidable_of_iff (c.rebuild.any fun r => decide (r.agent.isSome ∧ r.unverified ≠ some true)) (by cases c.rebuild <;> simp)
    inferInstanceAs (Decidable (_ ∧ _ ∧ _ ∧ _ ∧ _ ∧ _))
  | .newTab | .dashboard | .hosts | .history | .settings _ | .browser _ | .memoryMonitor | .editor _ _ | .editorBuffers
    | .imagePreview _ _ | .pdfPreview _ _ | .execution _ => inferInstanceAs (Decidable False)

def wantsProbe (b : SessionBinding) (tabs : Tabs) : Prop := ∃ pane ∈ tabs.panes, WantsAnswer b pane.content

instance (b : SessionBinding) (tabs : Tabs) : Decidable (wantsProbe b tabs) := inferInstanceAs (Decidable (∃ pane ∈ tabs.panes, _))

namespace Probe

variable (b : SessionBinding) (s : Probe)

def setTimeout (delay : Nat) : Probe :=
  { s with
    timer := some s.handles
    timers := s.timers ++ [⟨s.handles, s.now + delay⟩]
    handles := s.handles + 1 }

def clearTimeout (handle : Nat) : Probe := { s with timers := s.timers.filter (·.handle ≠ handle) }

/-- A request that starts takes the place of the timer that was to make it. -/
def startRequest : Probe :=
  let cleared := match s.timer with
    | some handle => { s.clearTimeout handle with timer := none }
    | none => s
  { cleared with
    pending := false
    inFlight := true
    fetches := cleared.fetches ++ [.asked] }

def probeSessionProvenance : Bool × Probe :=
  if b.hostId = "" ∨ b.sessionCode = "" then (false, s)
  else if s.attachReady = false then (false, s)
  else if s.disowned = true then (false, s)
  else if ¬wantsProbe b s.tabs then (false, s)
  else if s.inFlight = true then (false, { s with pending := true })
  else if s.nextAllowedAt ≤ s.now then (true, s.startRequest)
  else
    let owed := { s with pending := true }
    (false, if owed.timer = none then owed.setTimeout (owed.nextAllowedAt - owed.now) else owed)

/-- Everything is checked again before a request is spent. -/
def runDeferred : Bool × Probe :=
  let fired := { s with timer := none }
  if fired.inFlight = true ∨ fired.disowned = true then (false, fired)
  else if fired.now < fired.nextAllowedAt then (false, fired)
  else if fired.attachReady = false then (false, fired)
  else if ¬wantsProbe b fired.tabs then (false, fired)
  else (true, fired.startRequest)

/-- The answer is applied where it names the generation that was asked about. -/
def handleAnswer (ans : SessionProvenance) : Probe :=
  if ans.tmuxInstance = "" ∨ ans.tmuxInstance ≠ b.tmuxInstance then
    { s with disowned := s.disowned || (ans.tmuxInstance ≠ "" && b.tmuxInstance ≠ "") }
  else if ans.found = false ∨ ans.agentType = "" then s
  else if ¬wantsProbe b s.tabs then s
  else
    let emptied (t : String) : Option String := if t = "" then none else some t
    { s with tabs := setPaneRebuild b (.agentBackfill {
        tmuxInstance := ans.tmuxInstance
        agent := ⟨ans.agentType, emptied ans.sessionId, emptied ans.tmuxPaneId, if ans.lastSeenAt = 0 then s.now else ans.lastSeenAt⟩
        cwd := emptied ans.cwd }) s.now s.tabs }

/-- A request is over, whether it was answered or not. -/
def complete : Probe :=
  let done := { s with inFlight := false, nextAllowedAt := s.now + cooldownMs }
  if done.pending = true ∧ done.timer = none then done.setTimeout cooldownMs else done

end Probe

/-! ## Events -/

inductive ProbeEvent where
  | trigger
  | fire (timer : ArmedTimer)
  | settle (fetch : Nat) (answer : Option SessionProvenance)
  | complete (fetch : Nat)
  | advance (ms : Nat)
  | panes (tabs : Tabs)
  | gate (attachReady : Bool)

namespace ProbeEvent

/-- A timer fires at its deadline or later; an answer, or a rejection, comes before the request is over. -/
def Enabled (s : Probe) : ProbeEvent → Prop
  | fire timer => timer ∈ s.timers ∧ timer.deadline ≤ s.now
  | settle fetch _ => s.fetches[fetch]? = some .asked
  | complete fetch => s.fetches[fetch]? = some .answered
  | _ => True

instance (s : Probe) : ∀ ev, Decidable (Enabled s ev)
  | fire _ => inferInstanceAs (Decidable (_ ∧ _))
  | settle _ _ | complete _ => inferInstanceAs (Decidable (_ = _))
  | trigger | advance _ | panes _ | gate _ => inferInstanceAs (Decidable True)

/-- What an event does, and whether a request starts. -/
def step (b : SessionBinding) (ev : ProbeEvent) (s : Probe) : Bool × Probe :=
  match ev with
  | trigger => s.probeSessionProvenance b
  | fire timer => Probe.runDeferred b { s with timers := s.timers.filter (· ≠ timer) }
  | settle fetch answer =>
    let answered := { s with fetches := s.fetches.set fetch .answered }
    (false, (answer.map fun ans => answered.handleAnswer b ans).getD answered)
  | complete fetch => (false, Probe.complete { s with fetches := s.fetches.eraseIdx fetch })
  | advance ms => (false, { s with now := s.now + ms })
  | panes tabs => (false, { s with tabs })
  | gate attachReady => (false, { s with attachReady })

def isFire : ProbeEvent → Bool
  | fire _ => true
  | _ => false

def isComplete : ProbeEvent → Bool
  | complete _ => true
  | _ => false

end ProbeEvent

/-! ## Runs -/

abbrev ProbeCall := Served Probe ProbeEvent Bool

/-- Nothing was asked yet. -/
def Fresh (s : Probe) : Prop :=
  s.inFlight = false ∧ s.disowned = false ∧ s.nextAllowedAt = 0 ∧ s.pending = false ∧ s.timer = none ∧ s.fetches = [] ∧ s.timers = []

abbrev ProbeRuns (b : SessionBinding) : Probe → List ProbeCall → Prop := Serves (ProbeEvent.step b) Fresh ProbeEvent.Enabled

/-- The binding is one, its gate is open, it is not disowned, and some pane wants an answer. -/
def Worthy (b : SessionBinding) (s : Probe) : Prop :=
  (b.hostId ≠ "" ∧ b.sessionCode ≠ "") ∧ s.attachReady = true ∧ s.disowned = false ∧ wantsProbe b s.tabs

/-- A trigger of a worthy binding that started no request, and none started since. -/
def Owed (b : SessionBinding) (e : ProbeCall) (later : List ProbeCall) : Prop :=
  e.request = .trigger ∧ Worthy b e.pre ∧ e.reply = false ∧ ∀ x ∈ later, x.reply = false

/-- The scheduler neither floods nor drops; a deadline may pass without a request where `declined`. -/
structure Schedules (b : SessionBinding) (declined : Probe → Prop) (s : Probe) (t : List ProbeCall) : Prop where
  oneRequest : s.fetches.length ≤ 1
  cooled : ∀ later e earlier, t = later ++ e :: earlier → e.reply = true →
    ∀ f ∈ earlier, f.request.isComplete → f.pre.now + cooldownMs ≤ e.pre.now
  oneTimer : s.timers.length ≤ 1
  kept : ∀ later e earlier, t = later ++ e :: earlier → Owed b e later →
    s.fetches ≠ [] ∨ s.timers ≠ [] ∨ ∃ f ∈ later.find? (·.request.isFire), declined f.pre

def DisownedOrUnwanted (b : SessionBinding) (s : Probe) : Prop := s.disowned = true ∨ ¬wantsProbe b s.tabs

/-- Or the gate of the host has closed. -/
def Declined (b : SessionBinding) (s : Probe) : Prop := DisownedOrUnwanted b s ∨ s.attachReady = false

/-! ## Soundness -/

/-- A request or a timer is out where the scheduler says so, and no timer beside a request. -/
structure Probe.Sound (s : Probe) : Prop where
  requests : (s.inFlight = false ∧ s.fetches = []) ∨ (s.inFlight = true ∧ ∃ fetch, s.fetches = [fetch])
  armed : (s.timer = none ∧ s.timers = []) ∨
    (s.inFlight = false ∧ ∃ d, s.timer = some d.handle ∧ s.timers = [d] ∧ s.nextAllowedAt ≤ d.deadline)

section Steps

variable {b : SessionBinding} {s : Probe} {ev : ProbeEvent}

theorem Probe.Sound.unarmed (h : s.Sound) (hflight : s.inFlight = true) : s.timer = none ∧ s.timers = [] := by
  rcases h.armed with h | ⟨hidle, _⟩
  · exact h
  · rw [hflight] at hidle
    cases hidle

theorem Probe.Sound.setTimeout (h : s.Sound) (htimer : s.timer = none) (hidle : s.inFlight = false) {delay : Nat}
    (hdeadline : s.nextAllowedAt ≤ s.now + delay) : (s.setTimeout delay).Sound := by
  have htimers : s.timers = [] := by
    rcases h.armed with h | ⟨_, d, hd, _⟩
    · exact h.2
    · rw [htimer] at hd
      cases hd
  refine ⟨h.requests, .inr ⟨hidle, ⟨s.handles, s.now + delay⟩, rfl, ?_, hdeadline⟩⟩
  rw [Probe.setTimeout, htimers, List.nil_append]

theorem Probe.Sound.startRequest (h : s.Sound) (hidle : s.inFlight = false) :
    s.startRequest.Sound ∧ s.startRequest.nextAllowedAt = s.nextAllowedAt := by
  have hfetches : s.fetches = [] := by
    rcases h.requests with h | h
    · exact h.2
    · rw [hidle] at h
      cases h.1
  unfold Probe.startRequest
  rcases h.armed with ⟨htimer, htimers⟩ | ⟨_, d, htimer, htimers, _⟩
  · rw [htimer]
    refine ⟨⟨.inr ⟨rfl, .asked, ?_⟩, .inl ⟨htimer, htimers⟩⟩, rfl⟩
    show s.fetches ++ _ = _
    rw [hfetches]
    rfl
  · rw [htimer]
    refine ⟨⟨.inr ⟨rfl, .asked, ?_⟩, .inl ⟨rfl, ?_⟩⟩, rfl⟩
    · show s.fetches ++ _ = _
      rw [hfetches]
      rfl
    · show s.timers.filter _ = _
      rw [htimers]
      simp

/-- The world may change under a scheduler. -/
theorem Probe.Sound.congr (h : s.Sound) {s' : Probe} (hflight : s'.inFlight = s.inFlight) (hfetches : s'.fetches = s.fetches)
    (htimer : s'.timer = s.timer) (htimers : s'.timers = s.timers) (hnext : s'.nextAllowedAt = s.nextAllowedAt) : s'.Sound := by
  refine ⟨?_, ?_⟩
  · rw [hflight, hfetches]
    exact h.requests
  · rw [hflight, htimer, htimers, hnext]
    exact h.armed

/-- What a trigger does. -/
theorem trigger_cases (b : SessionBinding) (s : Probe) :
    (¬Worthy b s ∧ s.probeSessionProvenance b = (false, s)) ∨
    (Worthy b s ∧ s.inFlight = true ∧ s.probeSessionProvenance b = (false, { s with pending := true })) ∨
    (Worthy b s ∧ s.inFlight = false ∧ s.nextAllowedAt ≤ s.now ∧ s.probeSessionProvenance b = (true, s.startRequest)) ∨
    (Worthy b s ∧ s.inFlight = false ∧ s.timer ≠ none ∧ s.probeSessionProvenance b = (false, { s with pending := true })) ∨
    (Worthy b s ∧ s.inFlight = false ∧ s.timer = none ∧ s.now < s.nextAllowedAt ∧
      s.probeSessionProvenance b = (false, { s with pending := true }.setTimeout (s.nextAllowedAt - s.now))) := by
  unfold Probe.probeSessionProvenance
  by_cases hnamed : b.hostId = "" ∨ b.sessionCode = ""
  · rw [if_pos hnamed]
    exact .inl ⟨fun hw => hnamed.elim hw.1.1 hw.1.2, rfl⟩
  rw [if_neg hnamed]
  by_cases hgate : s.attachReady = false
  · rw [if_pos hgate]
    exact .inl ⟨fun hw => absurd (hw.2.1.symm.trans hgate) nofun, rfl⟩
  rw [if_neg hgate]
  by_cases hdisowned : s.disowned = true
  · rw [if_pos hdisowned]
    exact .inl ⟨fun hw => absurd (hw.2.2.1.symm.trans hdisowned) nofun, rfl⟩
  rw [if_neg hdisowned]
  by_cases hwants : wantsProbe b s.tabs
  swap
  · rw [if_pos hwants]
    exact .inl ⟨fun hw => hwants hw.2.2.2, rfl⟩
  rw [if_neg (not_not.2 hwants)]
  have hworthy : Worthy b s := ⟨not_or.1 hnamed, by simpa using hgate, by simpa using hdisowned, hwants⟩
  by_cases hflight : s.inFlight = true
  · rw [if_pos hflight]
    exact .inr (.inl ⟨hworthy, hflight, rfl⟩)
  rw [if_neg hflight]
  have hidle : s.inFlight = false := by simpa using hflight
  by_cases hnext : s.nextAllowedAt ≤ s.now
  · rw [if_pos hnext]
    exact .inr (.inr (.inl ⟨hworthy, hidle, hnext, rfl⟩))
  rw [if_neg hnext]
  dsimp only
  by_cases htimer : s.timer = none
  · rw [if_pos htimer]
    exact .inr (.inr (.inr (.inr ⟨hworthy, hidle, htimer, by omega, rfl⟩)))
  · rw [if_neg htimer]
    exact .inr (.inr (.inr (.inl ⟨hworthy, hidle, htimer, rfl⟩)))

/-- What a deadline does that is not early: it makes the request, or the binding has lost its claim to one. -/
theorem fire_cases {d : ArmedTimer} (h : s.Sound) (hfires : (ProbeEvent.fire d).Enabled s) :
    (s.inFlight = false ∧ s.nextAllowedAt ≤ s.now) ∧
    ((Declined b s ∧ (ProbeEvent.fire d).step b s = (false, { s with timers := [], timer := none })) ∨
      (ProbeEvent.fire d).step b s = (true, { s with timers := [], timer := none }.startRequest)) := by
  obtain ⟨hmem, hlate⟩ := hfires
  rcases h.armed with ⟨_, htimers⟩ | ⟨hidle, d', htimer, htimers, hdeadline⟩
  · rw [htimers] at hmem
    cases hmem
  obtain rfl : d = d' := by simpa [htimers] using hmem
  have hfired : s.timers.filter (· ≠ d) = [] := by rw [htimers]; simp
  have hnext : s.nextAllowedAt ≤ s.now := hdeadline.trans hlate
  refine ⟨⟨hidle, hnext⟩, ?_⟩
  rw [ProbeEvent.step, hfired]
  unfold Probe.runDeferred
  dsimp only
  by_cases hdisowned : s.inFlight = true ∨ s.disowned = true
  · rw [if_pos hdisowned]
    refine .inl ⟨.inl (.inl (hdisowned.resolve_left fun hflight => ?_)), rfl⟩
    rw [hidle] at hflight
    cases hflight
  rw [if_neg hdisowned, if_neg (by omega)]
  by_cases hgate : s.attachReady = false
  · rw [if_pos hgate]
    exact .inl ⟨.inr hgate, rfl⟩
  rw [if_neg hgate]
  by_cases hwants : wantsProbe b s.tabs
  · rw [if_neg (not_not.2 hwants)]
    exact .inr rfl
  · rw [if_pos hwants]
    exact .inl ⟨.inl (.inr hwants), rfl⟩

/-- Handling an answer leaves the scheduler as it is. -/
theorem handleAnswer_scheduler (ans : SessionProvenance) :
    (s.handleAnswer b ans).inFlight = s.inFlight ∧ (s.handleAnswer b ans).fetches = s.fetches ∧
      (s.handleAnswer b ans).timer = s.timer ∧ (s.handleAnswer b ans).timers = s.timers ∧
        (s.handleAnswer b ans).nextAllowedAt = s.nextAllowedAt ∧ (s.handleAnswer b ans).pending = s.pending := by
  unfold Probe.handleAnswer
  split
  · exact ⟨rfl, rfl, rfl, rfl, rfl, rfl⟩
  split
  · exact ⟨rfl, rfl, rfl, rfl, rfl, rfl⟩
  split <;> exact ⟨rfl, rfl, rfl, rfl, rfl, rfl⟩

/-- What an answer does to the scheduler. -/
theorem settle_scheduler (h : s.Sound) {fetch : Nat} {answer : Option SessionProvenance}
    (henabled : (ProbeEvent.settle fetch answer).Enabled s) :
    ((ProbeEvent.settle fetch answer).step b s).2.inFlight = true ∧
      ((ProbeEvent.settle fetch answer).step b s).2.fetches = [.answered] ∧
        ((ProbeEvent.settle fetch answer).step b s).2.timer = s.timer ∧ ((ProbeEvent.settle fetch answer).step b s).2.timers = s.timers ∧
          ((ProbeEvent.settle fetch answer).step b s).2.nextAllowedAt = s.nextAllowedAt ∧
            ((ProbeEvent.settle fetch answer).step b s).2.pending = s.pending := by
  have hout : s.inFlight = true ∧ s.fetches.set fetch .answered = [.answered] := by
    change s.fetches[fetch]? = some .asked at henabled
    rcases h.requests with ⟨_, hnone⟩ | ⟨hflight, f, hf⟩
    · rw [hnone] at henabled
      cases henabled
    · rw [hf] at henabled ⊢
      obtain rfl : fetch = 0 := by
        have := (List.getElem?_eq_some_iff.1 henabled).1
        simpa using this
      exact ⟨hflight, rfl⟩
  cases answer with
  | none => exact ⟨hout.1, hout.2, rfl, rfl, rfl, rfl⟩
  | some ans =>
    obtain ⟨hflight, hfetches, htimer, htimers, hnext, hpending⟩ :=
      handleAnswer_scheduler (b := b) (s := { s with fetches := s.fetches.set fetch .answered }) ans
    exact ⟨hflight.trans hout.1, hfetches.trans hout.2, htimer, htimers, hnext, hpending⟩

/-- A request that is over leaves a timer for what was asked meanwhile. -/
theorem complete_cases (h : s.Sound) {fetch : Nat} (henabled : (ProbeEvent.complete fetch).Enabled s) :
    s.inFlight = true ∧
    ((s.pending = false ∧ (ProbeEvent.complete fetch).step b s =
        (false, { s with inFlight := false, nextAllowedAt := s.now + cooldownMs, fetches := [] })) ∨
      (s.pending = true ∧ (ProbeEvent.complete fetch).step b s =
        (false, { s with inFlight := false, nextAllowedAt := s.now + cooldownMs, fetches := [] }.setTimeout cooldownMs))) := by
  change s.fetches[fetch]? = some .answered at henabled
  rcases h.requests with ⟨_, hnone⟩ | ⟨hflight, f, hf⟩
  · rw [hnone] at henabled
    cases henabled
  have htimer := (h.unarmed hflight).1
  have herase : s.fetches.eraseIdx fetch = [] := by
    rw [hf] at henabled ⊢
    obtain rfl : fetch = 0 := by
      have := (List.getElem?_eq_some_iff.1 henabled).1
      simpa using this
    rfl
  refine ⟨hflight, ?_⟩
  rw [ProbeEvent.step, Probe.complete, herase]
  dsimp only
  by_cases hpending : s.pending = true
  · rw [if_pos ⟨hpending, htimer⟩]
    exact .inr ⟨hpending, rfl⟩
  · rw [if_neg fun hc => hpending hc.1]
    exact .inl ⟨by simpa using hpending, rfl⟩

theorem Probe.Sound.step (h : s.Sound) (henabled : ev.Enabled s) : (ev.step b s).2.Sound := by
  cases ev with
  | trigger =>
    rw [ProbeEvent.step]
    rcases trigger_cases b s with ⟨_, heq⟩ | ⟨_, _, heq⟩ | ⟨_, hidle, _, heq⟩ | ⟨_, _, _, heq⟩ | ⟨_, hidle, htimer, hlate, heq⟩
    · rw [heq]
      exact h
    · rw [heq]
      exact h.congr rfl rfl rfl rfl rfl
    · rw [heq]
      exact (h.startRequest hidle).1
    · rw [heq]
      exact h.congr rfl rfl rfl rfl rfl
    · have howed : { s with pending := true }.Sound := h.congr rfl rfl rfl rfl rfl
      have hdeadline : s.nextAllowedAt ≤ s.now + (s.nextAllowedAt - s.now) := by omega
      rw [heq]
      exact howed.setTimeout htimer hidle hdeadline
  | fire d =>
    obtain ⟨⟨hidle, _⟩, hfires⟩ := fire_cases (b := b) h henabled
    have hunarmed : { s with timers := [], timer := none }.Sound := ⟨h.requests, .inl ⟨rfl, rfl⟩⟩
    rcases hfires with ⟨_, heq⟩ | heq
    · rw [heq]
      exact hunarmed
    · rw [heq]
      exact (hunarmed.startRequest hidle).1
  | settle fetch answer =>
    obtain ⟨hflight, hfetches, htimer, htimers, hnext, _⟩ := settle_scheduler (b := b) h henabled
    have hunarmed : s.timer = none ∧ s.timers = [] := by
      rcases h.requests with ⟨_, hnone⟩ | ⟨hflight, _⟩
      · change s.fetches[fetch]? = _ at henabled
        rw [hnone] at henabled
        cases henabled
      · exact h.unarmed hflight
    exact ⟨.inr ⟨hflight, _, hfetches⟩, .inl ⟨htimer.trans hunarmed.1, htimers.trans hunarmed.2⟩⟩
  | complete fetch =>
    obtain ⟨hflight, hdone⟩ := complete_cases (b := b) h henabled
    have hunarmed := h.unarmed hflight
    have hidle : { s with inFlight := false, nextAllowedAt := s.now + cooldownMs, fetches := [] }.Sound :=
      ⟨.inl ⟨rfl, rfl⟩, .inl hunarmed⟩
    rcases hdone with ⟨_, heq⟩ | ⟨_, heq⟩
    · rw [heq]
      exact hidle
    · rw [heq]
      exact hidle.setTimeout hunarmed.1 rfl le_rfl
  | advance | panes | gate => exact h.congr rfl rfl rfl rfl rfl

end Steps

/-! ## What a run keeps -/

/-- A request starts when the cooldown is over, and starting it is the only thing that spends what is owed. -/
structure StepKept (b : SessionBinding) (s : Probe) (ev : ProbeEvent) : Prop where
  cooled : (ev.step b s).1 = true → s.nextAllowedAt ≤ s.now
  next : (ev.isComplete = false ∧ (ev.step b s).2.nextAllowedAt = s.nextAllowedAt) ∨
    (ev.isComplete = true ∧ (ev.step b s).1 = false ∧ s.inFlight = true ∧ (ev.step b s).2.nextAllowedAt = s.now + cooldownMs)
  owes : ev = .trigger → Worthy b s → (ev.step b s).1 = false →
    (ev.step b s).2.pending = true ∧ ((ev.step b s).2.inFlight = true ∨ (ev.step b s).2.timer ≠ none)
  keeps : (ev.step b s).1 = false → s.pending = true → (ev.step b s).2.pending = true
  stays : (ev.step b s).1 = false → s.pending = true → ev.isFire = false → (s.inFlight = true ∨ s.timer ≠ none) →
    ((ev.step b s).2.inFlight = true ∨ (ev.step b s).2.timer ≠ none)
  declines : (ev.step b s).1 = false → ev.isFire = true → Declined b s

section Runs

variable {b : SessionBinding} {s : Probe} {t : List ProbeCall} {ev : ProbeEvent}

theorem startRequest_next (s : Probe) : s.startRequest.nextAllowedAt = s.nextAllowedAt := by
  unfold Probe.startRequest
  cases s.timer <;> rfl

theorem StepKept.started {s' : Probe} (heq : ev.step b s = (true, s')) (hcomplete : ev.isComplete = false)
    (hnow : s.nextAllowedAt ≤ s.now) (hnext : s'.nextAllowedAt = s.nextAllowedAt) : StepKept b s ev := by
  refine ⟨fun _ => hnow, .inl ⟨hcomplete, ?_⟩, fun _ _ hr => ?_, fun hr => ?_, fun hr => ?_, fun hr => ?_⟩
  · rw [heq]
    exact hnext
  all_goals
    rw [heq] at hr
    cases hr

theorem StepKept.quiet {s' : Probe} (heq : ev.step b s = (false, s')) (hcomplete : ev.isComplete = false) (hfire : ev.isFire = false)
    (hnext : s'.nextAllowedAt = s.nextAllowedAt) (hpending : s.pending = true → s'.pending = true)
    (hout : s.inFlight = true ∨ s.timer ≠ none → s'.inFlight = true ∨ s'.timer ≠ none)
    (howes : ev = .trigger → Worthy b s → s'.pending = true ∧ (s'.inFlight = true ∨ s'.timer ≠ none)) : StepKept b s ev := by
  refine ⟨fun hr => ?_, .inl ⟨hcomplete, ?_⟩, fun htrigger hw _ => ?_, fun _ hp => ?_, fun _ _ _ ho => ?_, fun _ hf => ?_⟩
  · rw [heq] at hr
    cases hr
  · rw [heq]
    exact hnext
  · rw [heq]
    exact howes htrigger hw
  · rw [heq]
    exact hpending hp
  · rw [heq]
    exact hout ho
  · rw [hfire] at hf
    cases hf

theorem Probe.Sound.stepKept (h : s.Sound) (henabled : ev.Enabled s) : StepKept b s ev := by
  cases ev with
  | trigger =>
    rcases trigger_cases b s with ⟨hworthy, heq⟩ | ⟨_, hflight, heq⟩ | ⟨_, _, hnow, heq⟩ | ⟨_, _, htimer, heq⟩ | ⟨_, _, _, _, heq⟩
    · exact .quiet heq rfl rfl rfl id id fun _ hw => absurd hw hworthy
    · exact .quiet heq rfl rfl rfl (fun _ => rfl) id fun _ _ => ⟨rfl, .inl hflight⟩
    · exact .started heq rfl hnow (startRequest_next s)
    · exact .quiet heq rfl rfl rfl (fun _ => rfl) id fun _ _ => ⟨rfl, .inr htimer⟩
    · exact .quiet heq rfl rfl rfl (fun _ => rfl) (fun _ => .inr (Option.some_ne_none _)) fun _ _ => ⟨rfl, .inr (Option.some_ne_none _)⟩
  | fire d =>
    obtain ⟨⟨_, hnow⟩, hfires⟩ := fire_cases (b := b) h henabled
    rcases hfires with ⟨hdeclined, heq⟩ | heq
    · refine ⟨fun hr => ?_, .inl ⟨rfl, ?_⟩, fun htrigger => ?_, fun _ hp => ?_, fun _ _ hf => ?_, fun _ _ => hdeclined⟩
      · rw [heq] at hr
        cases hr
      · rw [heq]
      · cases htrigger
      · rw [heq]
        exact hp
      · cases hf
    · exact .started heq rfl hnow (startRequest_next _)
  | settle fetch answer =>
    obtain ⟨hflight, _, _, _, hnext, hpending⟩ := settle_scheduler (b := b) h henabled
    exact .quiet rfl rfl rfl hnext hpending.trans (fun _ => .inl hflight) fun htrigger => by cases htrigger
  | complete fetch =>
    obtain ⟨hflight, hdone⟩ := complete_cases (b := b) h henabled
    rcases hdone with ⟨hpending, heq⟩ | ⟨_, heq⟩
    · have hspent : s.pending ≠ true := by
        rw [hpending]
        exact Bool.false_ne_true
      refine ⟨fun hr => ?_, .inr ⟨rfl, ?_, hflight, ?_⟩, fun htrigger => ?_, fun _ hp => absurd hp hspent,
        fun _ hp => absurd hp hspent, fun _ hf => ?_⟩
      · rw [heq] at hr
        cases hr
      · rw [heq]
      · rw [heq]
      · cases htrigger
      · cases hf
    · refine ⟨fun hr => ?_, .inr ⟨rfl, ?_, hflight, ?_⟩, fun htrigger => ?_, fun _ hp => ?_, fun _ _ _ _ => ?_, fun _ hf => ?_⟩
      · rw [heq] at hr
        cases hr
      · rw [heq]
      · rw [heq]
        rfl
      · cases htrigger
      · rw [heq]
        exact hp
      · rw [heq]
        exact .inr (Option.some_ne_none _)
      · cases hf
  | advance | panes | gate => exact .quiet rfl rfl rfl rfl id id fun htrigger => by cases htrigger

/-- What holds of the scheduler and of the events so far. -/
structure Scheduled (b : SessionBinding) (s : Probe) (t : List ProbeCall) : Prop where
  sound : s.Sound
  cooled : ∀ later e earlier, t = later ++ e :: earlier → e.reply = true →
    ∀ f ∈ earlier, f.request.isComplete → f.pre.now + cooldownMs ≤ e.pre.now
  completed : ∀ f ∈ t, f.request.isComplete → f.pre.now + cooldownMs ≤ s.nextAllowedAt
  clock : ∀ f ∈ t, f.pre.now ≤ s.now
  owed : ∀ later e earlier, t = later ++ e :: earlier → Owed b e later →
    s.pending = true ∧ (s.inFlight = true ∨ s.timer ≠ none ∨ ∃ f ∈ later.find? (·.request.isFire), Declined b f.pre)

theorem handleAnswer_now (ans : SessionProvenance) : (s.handleAnswer b ans).now = s.now := by
  unfold Probe.handleAnswer
  split
  · rfl
  split
  · rfl
  split <;> rfl

/-- The clock does not go back. -/
theorem now_step (h : s.Sound) (henabled : ev.Enabled s) : s.now ≤ (ev.step b s).2.now := by
  have hstart : ∀ s : Probe, s.startRequest.now = s.now := by
    intro s
    unfold Probe.startRequest
    cases s.timer <;> rfl
  cases ev with
  | trigger =>
    rw [ProbeEvent.step]
    rcases trigger_cases b s with ⟨_, heq⟩ | ⟨_, _, heq⟩ | ⟨_, _, _, heq⟩ | ⟨_, _, _, heq⟩ | ⟨_, _, _, _, heq⟩ <;> rw [heq]
    · exact (hstart s).ge
    · rfl
  | fire d =>
    rcases (fire_cases (b := b) h henabled).2 with ⟨_, heq⟩ | heq <;> rw [heq]
    rw [hstart]
  | settle fetch answer =>
    cases answer with
    | none => exact le_rfl
    | some ans => exact (handleAnswer_now (s := { s with fetches := s.fetches.set fetch .answered }) ans).ge
  | complete fetch =>
    rcases (complete_cases (b := b) h henabled).2 with ⟨_, heq⟩ | ⟨_, heq⟩ <;> rw [heq]
    rfl
  | advance ms => exact Nat.le_add_right _ _
  | panes | gate => exact le_rfl

theorem Scheduled.step (h : Scheduled b s t) (henabled : ev.Enabled s) :
    Scheduled b (ev.step b s).2 (⟨ev, s, (ev.step b s).1⟩ :: t) := by
  have hkept := h.sound.stepKept (b := b) henabled
  refine ⟨h.sound.step henabled, ?_, ?_, ?_, ?_⟩
  · rintro (_ | ⟨_, later⟩) e earlier ht hstarts f hf hcomplete
    · obtain ⟨rfl, rfl⟩ := List.cons.inj ht
      exact (h.completed f hf hcomplete).trans (hkept.cooled hstarts)
    · obtain ⟨_, rfl⟩ := List.cons.inj ht
      exact h.cooled later e earlier rfl hstarts f hf hcomplete
  · rintro f (_ | ⟨_, hf⟩) hcomplete
    · rcases hkept.next with ⟨hnot, _⟩ | ⟨_, _, _, hnext⟩
      · exact absurd (hnot.symm.trans hcomplete) Bool.false_ne_true
      · exact hnext.ge
    · have hf' := h.completed f hf hcomplete
      rcases hkept.next with ⟨_, hnext⟩ | ⟨_, _, _, hnext⟩
      · exact hf'.trans hnext.ge
      · -- completions are in the order of the clock
        rw [hnext]
        exact Nat.add_le_add_right (h.clock f hf) _
  · rintro f (_ | ⟨_, hf⟩)
    · exact now_step h.sound henabled
    · exact (h.clock f hf).trans (now_step h.sound henabled)
  · rintro (_ | ⟨_, later⟩) e earlier ht howed
    · obtain ⟨rfl, rfl⟩ := List.cons.inj ht
      obtain ⟨htrigger, hworthy, hquiet, _⟩ := howed
      obtain ⟨hpending, hout⟩ := hkept.owes htrigger hworthy hquiet
      exact ⟨hpending, hout.imp_right .inl⟩
    · obtain ⟨rfl, rfl⟩ := List.cons.inj ht
      obtain ⟨htrigger, hworthy, hquiet, hlater⟩ := howed
      have hidle := hlater _ List.mem_cons_self
      obtain ⟨hpending, hout⟩ := h.owed later e earlier rfl
        ⟨htrigger, hworthy, hquiet, fun x hx => hlater x (List.mem_cons_of_mem _ hx)⟩
      refine ⟨hkept.keeps hidle hpending, ?_⟩
      rw [List.find?_cons]
      cases hfire : ev.isFire with
      | true => exact .inr (.inr ⟨_, rfl, hkept.declines hidle hfire⟩)
      | false =>
        rcases hout with hflight | htimer | hdeclined
        · exact (hkept.stays hidle hpending hfire (.inl hflight)).imp_right .inl
        · exact (hkept.stays hidle hpending hfire (.inr htimer)).imp_right .inl
        · exact .inr (.inr hdeclined)

theorem scheduled_of_runs (h : ProbeRuns b s t) : Scheduled b s t := by
  induction h with
  | init hfresh =>
    obtain ⟨hidle, _, _, _, htimer, hfetches, htimers⟩ := hfresh
    exact ⟨⟨.inl ⟨hidle, hfetches⟩, .inl ⟨htimer, htimers⟩⟩, fun _ _ _ ht => by simp at ht,
      fun _ hf => absurd hf List.not_mem_nil, fun _ hf => absurd hf List.not_mem_nil, fun _ _ _ ht => by simp at ht⟩
  | step _ henabled ih => exact ih.step henabled

end Runs

/-- Neither too many requests nor too few: a deadline passes without one only where the binding was
disowned, nobody wanted the answer any more, or the gate of the host had closed. -/
theorem probe_schedules {b : SessionBinding} {s : Probe} {t : List ProbeCall} (h : ProbeRuns b s t) : Schedules b (Declined b) s t := by
  have hs := scheduled_of_runs h
  refine ⟨?_, hs.cooled, ?_, fun later e earlier ht howed => ?_⟩
  · rcases hs.sound.requests with ⟨_, hnone⟩ | ⟨_, _, hone⟩
    · rw [hnone]
      exact Nat.zero_le _
    · rw [hone]
      exact le_rfl
  · rcases hs.sound.armed with ⟨_, hnone⟩ | ⟨_, _, _, hone, _⟩
    · rw [hnone]
      exact Nat.zero_le _
    · rw [hone]
      exact le_rfl
  · rcases (hs.owed later e earlier ht howed).2 with hflight | htimer | hdeclined
    · rcases hs.sound.requests with ⟨hidle, _⟩ | ⟨_, _, hone⟩
      · exact absurd (hidle.symm.trans hflight) Bool.false_ne_true
      · rw [hone]
        exact .inl (List.cons_ne_nil _ _)
    · rcases hs.sound.armed with ⟨hnone, _⟩ | ⟨_, _, _, hone, _⟩
      · exact absurd hnone htimer
      · rw [hone]
        exact .inr (.inl (List.cons_ne_nil _ _))
    · exact .inr (.inr hdeclined)

/-! ## A gate that closes -/

/-- One terminal pane that has no agent. -/
def agentlessTabs : Tabs where
  entries := [("t1", ⟨"t1", false, false, .leaf ⟨"p1", .tmuxSession ⟨"h", "$1", .terminal, "work", "i", none, none⟩⟩⟩)]
  nodup := by decide

def agentless : SessionBinding := ⟨"h", "$1", "i"⟩

def freshProbe : Probe := ⟨false, false, 0, false, none, [], [], 0, 0, true, agentlessTabs⟩

/-- The first request fails, the second trigger waits out the cooldown, and the gate closes meanwhile. -/
def gateCloses : List ProbeEvent :=
  [.trigger, .settle 0 none, .complete 0, .advance 5000, .trigger, .gate false, .advance 25000, .fire ⟨0, 30000⟩]

theorem gateCloses_enabled : AllOk (ProbeEvent.step agentless) ProbeEvent.Enabled gateCloses freshProbe := by
  decide

/-- The state after it, and what happened. -/
def gateClosed : Probe × List ProbeCall := serveAll (ProbeEvent.step agentless) gateCloses freshProbe []

theorem probe_schedules_gateClosed : Schedules agentless (Declined agentless) gateClosed.1 gateClosed.2 := by
  have hinit : ProbeRuns agentless freshProbe [] := .init ⟨rfl, rfl, rfl, rfl, rfl, rfl, rfl⟩
  rw [gateClosed]
  exact probe_schedules (hinit.all gateCloses_enabled)

/-- The trigger that waited is owed a request that nothing will make. -/
theorem gateClosed_drops : ¬Schedules agentless (DisownedOrUnwanted agentless) gateClosed.1 gateClosed.2 := by
  intro h
  have hfetches : gateClosed.1.fetches = [] := by decide
  have htimers : gateClosed.1.timers = [] := by decide
  have hlength : 3 < gateClosed.2.length := by decide
  have hquiet : (gateClosed.2.take 3).all (fun x => !x.reply) = true := by decide
  have hworthy : Worthy agentless (gateClosed.2.get ⟨3, by decide⟩).pre := ⟨by decide, rfl, rfl, by decide⟩
  have howed : Owed agentless gateClosed.2[3] (gateClosed.2.take 3) :=
    ⟨rfl, hworthy, rfl, fun x hx => by simpa using List.all_eq_true.1 hquiet x hx⟩
  have hfired : ∀ f ∈ (gateClosed.2.take 3).find? (·.request.isFire), ¬DisownedOrUnwanted agentless f.pre := by
    rintro _ ⟨⟩
    exact fun hgone => hgone.elim nofun (not_not.2 (by decide))
  have hsplit : gateClosed.2 = gateClosed.2.take 3 ++ gateClosed.2[3] :: gateClosed.2.drop 4 := by
    rw [← List.drop_eq_getElem_cons, List.take_append_drop]
  rcases h.kept _ _ _ hsplit howed with hout | hout | ⟨f, hf, hgone⟩
  · exact hout hfetches
  · exact hout htimers
  · exact hfired f hf hgone

end Purdex.Rebuild
