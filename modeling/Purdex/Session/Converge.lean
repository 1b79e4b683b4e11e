/-
When the subscribers have the current session list: once the sessions stay as they are and nothing older is under way, a
tick that broadcasts, or that finds the hash as it was and nothing else sent since, leaves everybody with that list.
-/
import Purdex.Session.Told
import Mathlib

namespace Purdex.Session

open Conc

variable {α : Type}

/-! ## Nothing old is under way -/

/-- What a goroutine holds is the list as it is, and what it lists began since that last changed. -/
def Phase.Fresh (sessions : List α) (changes : Nat) : Phase α → Prop
  | .listing _ since => since = changes
  | .listed held | .changed held | .ready _ held | .sending _ _ held _ => held = sessions
  | _ => True

def Snapshot.Fresh (sessions : List α) (changes : Nat) : Snapshot α → Prop
  | .listing since => since = changes
  | .listed held => held = sessions
  | _ => True

structure Watch.Fresh (w : Watch α) : Prop where
  phases : ∀ g, (w.phase g).Fresh w.sessions w.changes
  snapshots : ∀ (i : Nat) (c : Client α), w.clients[i]? = some c → c.snapshot.Fresh w.sessions w.changes

/-- What a tick has begun it began since `n`. -/
def Watch.Since (w : Watch α) (n : Nat) : Phase α → Prop
  | .changed _ | .ready true _ => n ≤ w.hashedAt
  | .sending _ start _ _ => n ≤ start
  | _ => True

/-- A state some steps after `w₁`, in which the sessions have stayed as they were then. -/
structure Late (w₁ w : Watch α) : Prop where
  sessions : w.sessions = w₁.sessions
  changes : w.changes = w₁.changes
  fresh : w.Fresh
  grows : w₁.log.length ≤ w.log.length
  log : ∀ e ∈ w.log.drop w₁.log.length, e.2 = w₁.sessions
  since : w.Since w₁.log.length w.ticker

/-- Whoever is registered and was sent anything was sent the list last. -/
def Current (sessions : List α) (w : Watch α) : Prop :=
  ∀ (i : Nat) (c : Client α), w.clients[i]? = some c → c.registered = true → c.dropped = 0 → c.sent ≠ [] → c.sent.getLast? = some sessions

section Late

variable {w₁ w w' : Watch α} {g : Goroutine} {p : Phase α} {start i : Nat} {room : Bool}

theorem late_refl (hfresh : w.Fresh) (hidle : w.ticker = .idle) : Late w w :=
  ⟨rfl, rfl, hfresh, le_rfl, by simp, by rw [hidle]; trivial⟩

/-- What was sent to everybody since, was the list. -/
theorem Watch.Sound.current {sessions : List α} {n : Nat} (h : w.Sound) (hcovers : w.CoversBut n []) (hlog : ∀ e ∈ w.log.drop n, e.2 = sessions) :
    Current sessions w := by
  intro i c hget hregistered hdropped hsent
  obtain ⟨last, hlast, hmem⟩ := h.last i c n hget (hcovers i c hget hregistered hdropped hsent List.not_mem_nil)
  rw [hlast, ← hlog _ hmem]

theorem Late.log_from (h : Late w₁ w) (hle : w₁.log.length ≤ start) : ∀ e ∈ w.log.drop start, e.2 = w₁.sessions :=
  fun e he => h.log e (List.drop_subset_drop_left _ hle he)

theorem Current.frame {sessions : List α} (h : Current sessions w) (hframe : Frame w w') : Current sessions w' := by
  intro i c' hget hregistered hdropped hsent
  rcases hframe.clients i c' hget with ⟨rfl, -⟩ | ⟨c, hc, hsent', hdropped', hregistered', -⟩
  · exact absurd rfl hsent
  · rw [hsent'] at hsent ⊢
    exact h i c hc (hregistered' hregistered) (hdropped'.symm.trans hdropped) hsent

theorem Current.send {sessions : List α} (h : Current sessions w) : Current sessions (w.send i sessions room) := by
  intro j c' hget hregistered hdropped hsent
  cases hc : w.clients[i]? with
  | none =>
    rw [send_none hc] at hget
    exact h j c' hget hregistered hdropped hsent
  | some c =>
    rcases getElem?_send hc hget with ⟨-, hget⟩ | ⟨rfl, rfl⟩
    · exact h j c' hget hregistered hdropped hsent
    · cases room with
      | false => cases hdropped
      | true => exact List.getLast?_concat ..

/-- A step that sends nothing. -/
theorem Late.frame (h : Late w₁ w) (hsessions : w'.sessions = w.sessions) (hchanges : w'.changes = w.changes) (hlog : w'.log = w.log)
    (hphases : ∀ g, (w'.phase g).Fresh w₁.sessions w₁.changes)
    (hsnapshots : ∀ (i : Nat) (c : Client α), w'.clients[i]? = some c → c.snapshot.Fresh w₁.sessions w₁.changes)
    (hsince : w'.Since w₁.log.length w'.ticker) : Late w₁ w' := by
  refine ⟨hsessions.trans h.sessions, hchanges.trans h.changes, ⟨?_, ?_⟩, hlog ▸ h.grows, hlog ▸ h.log, hsince⟩
  · rw [hsessions, hchanges, h.sessions, h.changes]
    exact hphases
  · rw [hsessions, hchanges, h.sessions, h.changes]
    exact hsnapshots

theorem Late.phases (h : Late w₁ w) (g : Goroutine) : (w.phase g).Fresh w₁.sessions w₁.changes := by
  rw [← h.sessions, ← h.changes]
  exact h.fresh.phases g

theorem Late.snapshots (h : Late w₁ w) {c : Client α} (hget : w.clients[i]? = some c) : c.snapshot.Fresh w₁.sessions w₁.changes := by
  rw [← h.sessions, ← h.changes]
  exact h.fresh.snapshots i c hget

theorem Late.move (h : Late w₁ w) (hfresh : p.Fresh w₁.sessions w₁.changes) (hsince : g = .ticker → w.Since w₁.log.length p) :
    Late w₁ (w.setPhase g p) := by
  cases g with
  | waitFor =>
    refine h.frame rfl rfl rfl (fun g => ?_) (fun i c => h.snapshots) h.since
    cases g
    · exact hfresh
    · exact h.phases .ticker
  | ticker =>
    refine h.frame rfl rfl rfl (fun g => ?_) (fun i c => h.snapshots) (hsince rfl)
    cases g
    · exact h.phases .waitFor
    · exact hfresh

/-- A subscriber gets on with its snapshot, or leaves. -/
theorem Late.client (h : Late w₁ w) {run : Client α → Client α}
    (hrun : ∀ c : Client α, w.clients[i]? = some c → (run c).snapshot.Fresh w₁.sessions w₁.changes) : Late w₁ (w.client i run) := by
  refine h.frame rfl rfl rfl h.phases (fun j c' hget => ?_) h.since
  obtain ⟨c, hc, rfl⟩ := getElem?_client hget
  split
  · rename_i heq
    exact hrun c (heq ▸ hc)
  · exact h.snapshots hc

theorem Late.send (h : Late w₁ w) : Late w₁ (w.send i w₁.sessions room) := by
  cases hc : w.clients[i]? with
  | none => rwa [send_none hc]
  | some c =>
    have hsince : (w.send i w₁.sessions room).Since w₁.log.length (w.send i w₁.sessions room).ticker := by
      have hsince := h.since
      rw [send_ticker]
      unfold Watch.Since at hsince ⊢
      rw [send_hashedAt]
      exact hsince
    rw [send_some hc] at hsince ⊢
    refine ⟨h.sessions, h.changes, ⟨h.fresh.phases, fun j c' hget => ?_⟩, ?_, fun e he => ?_, hsince⟩
    · rw [getElem?_set_of_some hc] at hget
      split at hget
      · obtain rfl := Option.some.inj hget
        cases room <;> exact h.fresh.snapshots i c hc
      · exact h.fresh.snapshots j c' hget
    · rw [List.length_append]
      exact h.grows.trans (Nat.le_add_right _ _)
    · rw [List.drop_append_of_le_length h.grows] at he
      rcases List.mem_append.1 he with he | he
      · exact h.log e he
      · split at he
        · obtain rfl := List.mem_singleton.1 he
          rfl
        · cases he

variable (hashSessions : List α → String)

/-- Whatever happens but a change of the sessions, what is sent is the list as it is. -/
theorem late_step (h : Late w₁ w) {st : WatchStep α} (hen : st.Enabled w) (hstays : ∀ sessions, st ≠ .change sessions) :
    Late w₁ (st.act hashSessions w) ∧ (Current w₁.sessions w → Current w₁.sessions (st.act hashSessions w)) := by
  have hframe : ∀ {w'}, Frame w w' → Current w₁.sessions w → Current w₁.sessions w' := fun hframe hcurrent => hcurrent.frame hframe
  cases st with
  | change sessions => exact absurd rfl (hstays sessions)
  | add =>
    refine ⟨h.frame rfl rfl rfl h.phases (fun i c hget => ?_) h.since, hframe .add⟩
    rcases of_getElem?_append hget with hget | ⟨-, rfl⟩
    · exact h.snapshots hget
    · trivial
  | remove i => exact ⟨h.client fun c => h.snapshots, hframe (.client (fun _ => rfl) (fun _ => rfl) nofun fun _ _ => .inl)⟩
  | recv i => exact ⟨h.client fun c => h.snapshots, hframe (.client (fun _ => rfl) (fun _ => rfl) (fun _ => id) fun _ _ => .inl)⟩
  | snapshotBegins i => exact ⟨h.client fun c _ => h.changes, hframe (.client (fun _ => rfl) (fun _ => rfl) (fun _ => id) fun _ _ => nofun)⟩
  | snapshotLists i result =>
    obtain ⟨c, hc, since, hlisting, hlists⟩ := hen
    cases result with
    | none => exact ⟨h.client fun c _ => trivial, hframe (.client (fun _ => rfl) (fun _ => rfl) (fun _ => id) fun _ _ h => by cases h)⟩
    | some sessions =>
      have hsince : since = w₁.changes := by
        have hfresh := h.snapshots hc
        rwa [hlisting] at hfresh
      have hheld : sessions = w₁.sessions := (hlists sessions rfl (h.changes.trans hsince.symm)).trans h.sessions
      exact ⟨h.client fun c _ => hheld, hframe (.client (fun _ => rfl) (fun _ => rfl) (fun _ => id) fun _ _ => nofun)⟩
  | snapshotSends i room =>
    obtain ⟨c, hc, -, sessions, hlisted⟩ := hen
    have hheld : sessions = w₁.sessions := by
      have hfresh := h.snapshots hc
      rwa [hlisted] at hfresh
    obtain ⟨registered, snapshot, sent, received, dropped⟩ := c
    obtain rfl : snapshot = .listed sessions := hlisted
    simp only [WatchStep.act, hc]
    rw [hheld]
    exact ⟨h.send.client fun c _ => trivial, fun hcurrent => hcurrent.send.frame (frame_snapshotSent hc)⟩
  | signal => exact ⟨h.move (g := .waitFor) trivial (fun hg => by cases hg), hframe (.of_eq rfl rfl)⟩
  | tick =>
    refine ⟨?_, hframe (.of_eq rfl rfl)⟩
    dsimp only [WatchStep.act]
    split
    · exact h.move (g := .ticker) h.changes fun _ => trivial
    · exact h.move (g := .ticker) (p := .probing) trivial fun _ => trivial
  | probe alive =>
    cases alive with
    | false => exact ⟨h.move (g := .ticker) (p := .idle) trivial fun _ => trivial, hframe (.of_eq rfl rfl)⟩
    | true =>
      have hup : Late w₁ { w with tmuxAlive := true } := h.frame rfl rfl rfl h.phases (fun i c => h.snapshots) h.since
      exact ⟨hup.move (g := .ticker) (p := .entering) trivial fun _ => trivial, hframe (.of_eq rfl rfl)⟩
  | enter g =>
    dsimp only [WatchStep.act]
    split
    · exact ⟨h.move (p := .stamping) trivial fun _ => trivial, hframe frame_setPhase⟩
    · exact ⟨h.move (p := .idle) trivial fun _ => trivial, hframe frame_setPhase⟩
  | stamp g now =>
    dsimp only [WatchStep.act]
    split
    · exact ⟨h.move (p := .idle) trivial fun _ => trivial, hframe frame_setPhase⟩
    · have hstamped : Late w₁ { w with lastBroadcast := some now } := h.frame rfl rfl rfl h.phases (fun i c => h.snapshots) h.since
      refine ⟨hstamped.move (p := .listing false w.changes) h.changes fun _ => trivial, fun hcurrent => ?_⟩
      exact (hcurrent.frame (.of_eq rfl rfl) : Current w₁.sessions { w with lastBroadcast := some now }).frame frame_setPhase
  | lists g result =>
    obtain ⟨polled, since, hphase, hlists⟩ := hen
    have hfresh := h.phases g
    rw [hphase] at hfresh
    cases result with
    | none => exact ⟨h.move (p := .idle) trivial fun _ => trivial, hframe frame_setPhase⟩
    | some sessions =>
      have hheld : sessions = w₁.sessions := (hlists sessions rfl (h.changes.trans (Eq.symm hfresh))).trans h.sessions
      simp only [WatchStep.act, hphase]
      cases polled
      · exact ⟨h.move (p := .ready false sessions) hheld fun _ => trivial, hframe frame_setPhase⟩
      · exact ⟨h.move (p := .listed sessions) hheld fun _ => trivial, hframe frame_setPhase⟩
  | compare alive =>
    obtain ⟨sessions, hlisted⟩ := hen
    have hheld := h.phases .ticker
    rw [show w.phase .ticker = _ from hlisted] at hheld
    simp only [WatchStep.act, hlisted]
    split
    · have hdown : Late w₁ { w with tmuxAlive := false } := h.frame rfl rfl rfl h.phases (fun i c => h.snapshots) h.since
      exact ⟨hdown.move (g := .ticker) (p := .idle) trivial fun _ => trivial, hframe (.of_eq rfl rfl)⟩
    split
    · exact ⟨h.move (g := .ticker) (p := .idle) trivial fun _ => trivial, hframe (.of_eq rfl rfl)⟩
    · refine ⟨h.frame rfl rfl rfl (fun g => ?_) (fun i c => h.snapshots) h.grows, hframe (.of_eq rfl rfl)⟩
      cases g
      · exact h.phases .waitFor
      · exact hheld
  | check =>
    obtain ⟨sessions, hchanged⟩ := hen
    have hheld := h.phases .ticker
    rw [show w.phase .ticker = _ from hchanged] at hheld
    have hsince := h.since
    rw [hchanged] at hsince
    simp only [WatchStep.act, hchanged]
    refine ⟨?_, hframe (.of_eq rfl rfl)⟩
    split
    · exact h.move (g := .ticker) (p := .ready true sessions) hheld fun _ => hsince
    · exact h.move (g := .ticker) (p := .idle) trivial fun _ => trivial
  | broadcast g order =>
    obtain ⟨⟨polled, sessions, hready⟩, -⟩ := hen
    have hheld := h.phases g
    rw [hready] at hheld
    simp only [WatchStep.act, hready]
    exact ⟨h.move (p := .sending polled w.log.length sessions order) hheld fun _ => h.grows, hframe frame_setPhase⟩
  | deliver g room =>
    obtain ⟨polled, start, sessions, i, rest, hsending⟩ := hen
    have hheld : sessions = w₁.sessions := by
      have hfresh := h.phases g
      rwa [hsending] at hfresh
    simp only [WatchStep.act, hsending]
    rw [hheld]
    refine ⟨h.send.move rfl fun hg => ?_, fun hcurrent => hcurrent.send.frame frame_setPhase⟩
    subst hg
    have hsince := h.since
    rw [show w.ticker = _ from hsending] at hsince
    exact hsince
  | broadcastEnds g => exact ⟨h.move (p := .idle) trivial fun _ => trivial, hframe frame_setPhase⟩

/-! ## The tick -/

/-- A tick comes to its end. -/
def Completes (e : WatchEvent α) : Prop := e.pre.ticker ≠ .idle ∧ (e.request.act hashSessions e.pre).ticker = .idle

/-- How a tick has to end: its broadcast is over, or there was nobody to send to. Or it sends nothing, for whatever reason,
and since the hash was last changed nobody was sent another list than the one there is. -/
def WatchStep.Tells (w : Watch α) : WatchStep α → Prop
  | .broadcastEnds _ | .check | .enter _ => True
  | _ => ∀ e ∈ w.log.drop w.hashedAt, e.2 = w.sessions

/-- The tick leaves everybody with the list. -/
theorem current_of_tick (h : w.Sound) (hlate : Late w₁ w) {st : WatchStep α} (hen : st.Enabled w) (hbusy : w.ticker ≠ .idle)
    (hidle : (st.act hashSessions w).ticker = .idle) (htells : st.Tells w) : Current w₁.sessions (st.act hashSessions w) := by
  have hstays : ∀ sessions, st ≠ .change sessions := by
    rintro sessions rfl
    exact hbusy hidle
  refine (late_step hashSessions hlate hen hstays).2 ?_
  -- a tick that sends nothing ends while all have what the hash was taken of
  have hsilent : w.CoversBut w.hashedAt [] → (∀ e ∈ w.log.drop w.hashedAt, e.2 = w.sessions) → Current w₁.sessions w := fun htold hlog =>
    h.current htold fun e he => (hlog e he).trans hlate.sessions
  have htold := h.told
  cases st with
  | broadcastEnds g =>
    obtain ⟨polled, start, sessions, hsending⟩ := hen
    cases g with
    | waitFor => exact absurd hidle hbusy
    | ticker =>
      have hticker : w.ticker = .sending polled start sessions [] := hsending
      have hsince := hlate.since
      rw [hticker] at htold hsince
      exact h.current htold.2.1 (hlate.log_from hsince)
  | check =>
    obtain ⟨sessions, hchanged⟩ := hen
    simp only [WatchStep.act, hchanged] at hidle
    split at hidle
    · cases hidle
    · exact h.current (n := w.log.length) (covers_of_none (by simpa using ‹¬ w.hasSubscribers = true›)) (by simp)
  | enter g =>
    cases g with
    | waitFor => exact absurd hidle hbusy
    | ticker =>
      simp only [WatchStep.act, Watch.setPhase] at hidle
      split at hidle
      · cases hidle
      · exact h.current (n := w.log.length) (covers_of_none (by simpa using ‹¬ w.hasSubscribers = true›)) (by simp)
  | compare alive =>
    obtain ⟨sessions, hlisted⟩ := hen
    rw [hlisted] at htold
    exact hsilent htold htells
  | probe alive =>
    rw [show w.ticker = .probing from hen] at htold
    exact hsilent htold htells
  | stamp g now =>
    cases g with
    | waitFor =>
      simp only [WatchStep.act] at hidle
      split at hidle <;> exact absurd hidle hbusy
    | ticker =>
      rw [show w.ticker = .stamping from hen] at htold
      exact hsilent htold htells
  | lists g result =>
    obtain ⟨polled, since, hphase, -⟩ := hen
    cases g with
    | waitFor =>
      cases result
      · exact absurd hidle hbusy
      · simp only [WatchStep.act, hphase] at hidle
        cases polled <;> exact absurd hidle hbusy
    | ticker =>
      rw [show w.ticker = _ from hphase] at htold
      exact hsilent htold htells
  | tick => exact absurd hen hbusy
  | deliver g room =>
    obtain ⟨polled, start, sessions, i, rest, hsending⟩ := hen
    simp only [WatchStep.act, hsending] at hidle
    cases g with
    | waitFor => exact absurd (send_ticker.symm.trans hidle) hbusy
    | ticker => cases hidle
  | broadcast g order =>
    obtain ⟨⟨polled, sessions, hready⟩, -⟩ := hen
    simp only [WatchStep.act, hready] at hidle
    cases g with
    | waitFor => exact absurd hidle hbusy
    | ticker => cases hidle
  | snapshotSends i room =>
    obtain ⟨c, hc, -, sessions, hlisted⟩ := hen
    obtain ⟨registered, snapshot, sent, received, dropped⟩ := c
    obtain rfl : snapshot = .listed sessions := hlisted
    simp only [WatchStep.act, hc] at hidle
    exact absurd (send_ticker.symm.trans hidle) hbusy
  | snapshotLists i result => cases result <;> exact absurd hidle hbusy
  | _ => exact absurd hidle hbusy

end Late

/-! ## Whole runs -/

section Runs

variable (hashSessions : List α → String) {w₁ w : Watch α} {t t₁ : List (WatchEvent α)}

theorem start_sound (sessions : List α) (alive : Bool) : (Watch.start sessions alive).Sound :=
  ⟨nofun, nofun, le_rfl, nofun, nofun⟩

theorem sound_of_runs (h : WatchRuns hashSessions (fun w => ∃ sessions alive, w = .start sessions alive) (fun w st => st.Enabled w) w t) : w.Sound := by
  refine (Serves.invariant (fun w hinit => ?_) (fun w st hsound hen => sound_step hashSessions hsound hen) h).1
  obtain ⟨sessions, alive, rfl⟩ := hinit
  exact start_sound sessions alive

/-- The runs from a state on in which the sessions do not change. -/
abbrev Settled (w₁ : Watch α) : Watch α → List (WatchEvent α) → Prop :=
  WatchRuns hashSessions (· = w₁) fun w st => st.Enabled w ∧ ∀ sessions, st ≠ .change sessions

theorem late_of_settled (h : Settled hashSessions w₁ w t) (hsound : w₁.Sound) (hfresh : w₁.Fresh) (hidle : w₁.ticker = .idle) :
    w.Sound ∧ Late w₁ w ∧ ((∃ e ∈ t, Completes hashSessions e ∧ e.request.Tells e.pre) → Current w₁.sessions w) := by
  induction h with
  | init hinit =>
    subst hinit
    exact ⟨hsound, late_refl hfresh hidle, fun ⟨e, he, _⟩ => absurd he List.not_mem_nil⟩
  | step hruns hok ih =>
    obtain ⟨hpre, hlate, hcurrent⟩ := ih
    obtain ⟨hlate', hkept⟩ := late_step hashSessions hlate hok.1 hok.2
    refine ⟨sound_step hashSessions hpre hok.1, hlate', ?_⟩
    rintro ⟨e, he, ⟨hbusy, hend⟩, htells⟩
    rcases List.mem_cons.1 he with rfl | he
    · exact current_of_tick hashSessions hpre hlate hok.1 hbusy hend htells
    · exact hkept (hcurrent ⟨e, he, ⟨hbusy, hend⟩, htells⟩)

/-- What a subscriber received. -/
def Client.messages (c : Client α) : List (List α) := c.sent.take c.received

/-- Take any run, and let nothing be under way that is older than the last change of the sessions. If these stay as they
are and a further tick comes to its end, then whoever lost no message and has received what it was sent has the list as
it is last, unless it was sent nothing as its snapshot still runs or had failed. -/
theorem subscribers_converge (h₁ : WatchRuns hashSessions (fun w => ∃ sessions alive, w = .start sessions alive) (fun w st => st.Enabled w) w₁ t₁)
    (hfresh : w₁.Fresh) (hidle : w₁.ticker = .idle) (h : Settled hashSessions w₁ w t)
    (htick : ∃ e ∈ t, Completes hashSessions e ∧ e.request.Tells e.pre) (i : Nat) (c : Client α) (hget : w.clients[i]? = some c)
    (hregistered : c.registered = true) (hdropped : c.dropped = 0) (hreceived : c.sent.length ≤ c.received) :
    c.messages.getLast? = some w.sessions ∨ c.messages = [] ∧ c.snapshot ≠ .done true := by
  obtain ⟨hsound, hlate, hcurrent⟩ := late_of_settled hashSessions h (sound_of_runs hashSessions h₁) hfresh hidle
  have hall : c.messages = c.sent := List.take_of_length_le hreceived
  rw [hall, hlate.sessions]
  by_cases hnone : c.sent = []
  · exact .inr ⟨hnone, fun hdone => hsound.snapshot i c hget hdone hdropped hnone⟩
  · exact .inl (hcurrent htick i c hget hregistered hdropped hnone)

/-- The state after the given steps, and what happened on the way. -/
def playWatch (steps : List (WatchStep α)) (w : Watch α) : Watch α × List (WatchEvent α) :=
  serveAll (fun st w => ((), WatchStep.act hashSessions st w)) steps w []

/-- One subscriber, with its snapshot, of a watcher that did not tick yet. -/
def subscribed : List (WatchStep String) :=
  [.add, .snapshotBegins 0, .snapshotLists 0 (some ["old"]), .snapshotSends 0 true]

theorem subscribed_ok : AllOk (fun st w => ((), WatchStep.act String.join st w)) (fun w st => st.Enabled w) subscribed (.start ["old"] true) :=
  ⟨fun g => by cases g <;> nofun, ⟨_, rfl, rfl⟩, ⟨_, rfl, _, rfl, fun _ heq _ => (Option.some.inj heq).symm⟩, ⟨_, rfl, rfl, _, rfl⟩, trivial⟩

theorem subscribed_fresh : (playWatch String.join subscribed (.start ["old"] true)).1.Fresh :=
  ⟨fun g => by cases g <;> trivial, fun i c hget => by
    obtain rfl := List.mem_singleton.1 (List.mem_of_getElem? hget)
    trivial⟩

/-- A tick that broadcasts, and a subscriber that receives. -/
def firstTick : List (WatchStep String) :=
  [.tick, .lists .ticker (some ["old"]), .compare true, .check, .broadcast .ticker [0], .deliver .ticker true, .broadcastEnds .ticker, .recv 0, .recv 0]

theorem firstTick_ok : AllOk (fun st w => ((), WatchStep.act String.join st w)) (fun w st => st.Enabled w ∧ ∀ sessions, st ≠ .change sessions)
    firstTick (playWatch String.join subscribed (.start ["old"] true)).1 :=
  ⟨⟨rfl, nofun⟩, ⟨⟨_, _, rfl, fun _ heq _ => (Option.some.inj heq).symm⟩, nofun⟩, ⟨⟨_, rfl⟩, nofun⟩, ⟨⟨["old"], by decide⟩, nofun⟩,
    ⟨⟨⟨true, ["old"], by decide⟩, .refl _⟩, nofun⟩, ⟨⟨true, 1, ["old"], 0, [], by decide⟩, nofun⟩,
    ⟨⟨true, 1, ["old"], by decide⟩, nofun⟩, ⟨⟨⟨true, .done true, [["old"], ["old"]], 0, 0⟩, by decide⟩, nofun⟩,
    ⟨⟨⟨true, .done true, [["old"], ["old"]], 1, 0⟩, by decide⟩, nofun⟩, trivial⟩

/-- The broadcast of the tick comes to its end. -/
theorem firstTick_tells : ∃ e ∈ (playWatch String.join firstTick (playWatch String.join subscribed (.start ["old"] true)).1).2,
    Completes String.join e ∧ e.request.Tells e.pre := by
  refine ⟨_, List.mem_cons_of_mem _ (List.mem_cons_of_mem _ List.mem_cons_self), ⟨?_, ?_⟩, trivial⟩
  · decide
  · decide

theorem subscribers_converge_firstTick :
    (⟨true, .done true, [["old"], ["old"]], 2, 0⟩ : Client String).messages.getLast? = some ["old"] ∨
      (⟨true, .done true, [["old"], ["old"]], 2, 0⟩ : Client String).messages = [] ∧ Snapshot.done true ≠ (.done true : Snapshot String) :=
  subscribers_converge String.join (w := (playWatch String.join firstTick (playWatch String.join subscribed (.start ["old"] true)).1).1)
    (Serves.all (.init ⟨_, _, rfl⟩) subscribed_ok) subscribed_fresh rfl
    (Serves.all (.init rfl) firstTick_ok) firstTick_tells 0 ⟨true, .done true, [["old"], ["old"]], 2, 0⟩ (by decide) rfl rfl (by decide)

/-- The wait-for goroutine lists the sessions before they change, and broadcasts after the tick that has seen the change. -/
def staleBroadcast : List (WatchStep String) :=
  subscribed ++ [.signal, .enter .waitFor, .stamp .waitFor 0, .lists .waitFor (some ["old"]), .change ["new"],
    .tick, .lists .ticker (some ["new"]), .compare true, .check, .broadcast .ticker [0], .deliver .ticker true, .broadcastEnds .ticker,
    .broadcast .waitFor [0], .deliver .waitFor true, .broadcastEnds .waitFor]

/-- A further tick finds the hash as it was. -/
def silentTick : List (WatchStep String) :=
  [.tick, .lists .ticker (some ["new"]), .compare true, .recv 0, .recv 0, .recv 0]

theorem staleBroadcast_ok : AllOk (fun st w => ((), WatchStep.act String.join st w)) (fun w st => st.Enabled w) staleBroadcast (.start ["old"] true) :=
  ⟨fun g => by cases g <;> nofun, ⟨_, rfl, rfl⟩, ⟨_, rfl, _, rfl, fun _ heq _ => (Option.some.inj heq).symm⟩, ⟨_, rfl, rfl, _, rfl⟩, rfl, rfl, rfl,
    ⟨_, _, rfl, fun _ heq _ => (Option.some.inj heq).symm⟩, trivial, rfl, ⟨_, _, rfl, fun _ heq _ => (Option.some.inj heq).symm⟩, ⟨_, rfl⟩,
    ⟨["new"], by decide⟩, ⟨⟨true, ["new"], by decide⟩, .refl _⟩, ⟨true, 1, ["new"], 0, [], by decide⟩,
    ⟨true, 1, ["new"], by decide⟩, ⟨⟨false, ["old"], by decide⟩, .refl _⟩, ⟨false, 2, ["old"], 0, [], by decide⟩,
    ⟨false, 2, ["old"], by decide⟩, trivial⟩

/-- The state after it. -/
def staleWatch : Watch String :=
  ⟨["new"], 1, true, "new", some 0, .idle, .idle, [⟨true, .done true, [["old"], ["new"], ["old"]], 0, 0⟩], [(0, ["old"]), (0, ["new"]), (0, ["old"])], 1⟩

theorem staleBroadcast_watch : (playWatch String.join staleBroadcast (.start ["old"] true)).1 = staleWatch := by decide

theorem silentTick_ok : AllOk (fun st w => ((), WatchStep.act String.join st w)) (fun w st => st.Enabled w ∧ ∀ sessions, st ≠ .change sessions)
    silentTick staleWatch :=
  ⟨⟨rfl, nofun⟩, ⟨⟨_, _, rfl, fun _ heq _ => (Option.some.inj heq).symm⟩, nofun⟩, ⟨⟨_, rfl⟩, nofun⟩,
    ⟨⟨⟨true, .done true, [["old"], ["new"], ["old"]], 0, 0⟩, by decide⟩, nofun⟩,
    ⟨⟨⟨true, .done true, [["old"], ["new"], ["old"]], 1, 0⟩, by decide⟩, nofun⟩,
    ⟨⟨⟨true, .done true, [["old"], ["new"], ["old"]], 2, 0⟩, by decide⟩, nofun⟩, trivial⟩

/-- Nothing is under way, the sessions stay as they are and a tick comes to its end, but the subscriber has the list from before. -/
theorem staleList_stays : WatchRuns String.join (fun w => ∃ sessions alive, w = .start sessions alive) (fun w st => st.Enabled w) staleWatch
      (playWatch String.join staleBroadcast (.start ["old"] true)).2 ∧ staleWatch.Fresh ∧ staleWatch.ticker = .idle ∧
    Settled String.join staleWatch (playWatch String.join silentTick staleWatch).1 (playWatch String.join silentTick staleWatch).2 ∧
    (∃ e ∈ (playWatch String.join silentTick staleWatch).2, Completes String.join e) ∧
    (playWatch String.join silentTick staleWatch).1.sessions = ["new"] ∧
    (playWatch String.join silentTick staleWatch).1.clients = [⟨true, .done true, [["old"], ["new"], ["old"]], 3, 0⟩] ∧
    (⟨true, .done true, [["old"], ["new"], ["old"]], 3, 0⟩ : Client String).messages.getLast? = some ["old"] := by
  refine ⟨?_, ⟨fun g => by cases g <;> trivial, fun i c hget => ?_⟩, rfl, Serves.all (.init rfl) silentTick_ok, ?_, by decide, by decide, rfl⟩
  · rw [← staleBroadcast_watch]
    exact Serves.all (.init ⟨_, _, rfl⟩) staleBroadcast_ok
  · obtain rfl := List.mem_singleton.1 (List.mem_of_getElem? hget)
    trivial
  · refine ⟨_, List.mem_cons_of_mem _ (List.mem_cons_of_mem _ (List.mem_cons_of_mem _ List.mem_cons_self)), ?_, ?_⟩
    · decide
    · decide

end Runs

end Purdex.Session
