/-
Which signals a kill sequence sends, and knowing what: whatever the process table shows, the
seams answer and the clock does in between.
-/
import Purdex.Conc.Runs
import Purdex.Broker.Kill

namespace Purdex.Broker

open Conc

/-! ## What a history shows -/

/-- The signals sent so far, newest first. -/
def signalsIn : History → List Signal
  | [] => []
  | ⟨.signal _ sig, _⟩ :: h => sig :: signalsIn h
  | _ :: h => signalsIn h

/-- The answer to the latest listing. -/
def lastListing : History → Option (Option (List RawProcess))
  | [] => none
  | ⟨.list _, rows⟩ :: _ => some rows
  | _ :: h => lastListing h

/-- A listing that failed an identity check. -/
def Mismatch (record : BrokerRecord) : Event iface → Prop
  | ⟨.list deadline, rows⟩ => deadline = verifyDeadline ∧ (verifyAnswer record rows).1 = false
  | _ => False

/-- A listing without the recorded pid. -/
def ShowsGone (record : BrokerRecord) : Event iface → Prop
  | ⟨.list _, rows⟩ => goneIn record rows = true
  | _ => False

def WithinSecond (t u : Int) : Prop := -second ≤ t - u ∧ t - u ≤ second

/-- Start times that are the same to within a second, both of them known. -/
def SameKnownStart (t u : Int) : Prop := t ≠ 0 ∧ u ≠ 0 ∧ WithinSecond t u

/-- The same or both unknown; nothing is said of a start time so far before the other one that
their distance is no duration. -/
def SameStart (t u : Int) : Prop :=
  t = 0 ∧ u = 0 ∨ t ≠ 0 ∧ u ≠ 0 ∧ (minDuration < t - u → WithinSecond t u)

/-- The listing has the recorded pid, as the broker's worker, started when it was recorded to be. -/
def ShowsBroker (same : Int → Int → Prop) (record : BrokerRecord) (rows : List RawProcess) : Prop :=
  ∃ row, rows.find? (fun row => row.pid == record.pid) = some row ∧ row.hasMarker = true ∧ same row.lstart record.lstart

/-- The SIGTERM step was tried and did not see the process go: no group could be signalled, the
signal failed, or every listing of its wait failed or still had the pid. -/
def TermFailed (record : BrokerRecord) (h : History) : Prop :=
  (signalsIn h = [] ∧ ∃ answer, (⟨.pgidLookup record.pid, answer⟩ : Event iface) ∈ h ∧
    ∀ pgid : Int, answer = some pgid → pgid ≤ 1) ∨
  ∃ newer target sent older, h = newer ++ (⟨.signal target .term, sent⟩ : Event iface) :: older ∧
    (∀ ev ∈ newer, ¬ ShowsGone record ev) ∧
    (sent = true → ∃ rows, (⟨.list pollDeadline, rows⟩ : Event iface) ∈ newer)

/-- SIGTERM comes first, and SIGKILL once, when the SIGTERM step has failed. -/
def InOrder (record : BrokerRecord) (h : History) : Signal → Prop
  | .term => signalsIn h = []
  | .kill => .kill ∉ signalsIn h ∧ TermFailed record h

/-- What is known when a signal is sent. -/
structure SignalSafe (ks : KillSequence) (decision : DecisionResult) (h : History) (target : Int) (sig : Signal) : Prop where
  preimage : ∃ path, (⟨.writePreimage ks.record decision, .ok path⟩ : Event iface) ∈ h
  identity : ∃ rows, lastListing h = some (some rows) ∧ ShowsBroker SameStart ks.record rows
  group : ∃ pgid : Int, (⟨.pgidLookup ks.record.pid, some pgid⟩ : Event iface) ∈ h ∧ 1 < pgid ∧ target = -pgid
  order : InOrder ks.record h sig
  matched : ∀ ev ∈ h, ¬ Mismatch ks.record ev

/-- What a kill sequence keeps to: its signals are safe, and the socket directory goes only when
every identity check was passed. -/
def Guard (ks : KillSequence) (decision : DecisionResult) (h : History) : Op → Prop
  | .signal target sig => SignalSafe ks decision h target sig
  | .removeAll _ => ∀ ev ∈ h, ¬ Mismatch ks.record ev
  | _ => True

/-! ## The identity check -/

theorem drift_le {t u : Int} (h : drift t u ≤ lstartTolerance) : minDuration < t - u → WithinSecond t u := by
  intro hlt
  have hsub : Time.sub t u = max minDuration (min maxDuration (t - u)) := rfl
  unfold drift Duration.neg at h
  unfold WithinSecond
  generalize Time.sub t u = d at *
  split at h
  · split at h <;> simp only [minDuration, maxDuration, lstartTolerance, second] at * <;> omega
  · simp only [minDuration, maxDuration, lstartTolerance, second] at *
    omega

theorem verifyRow_match {record : BrokerRecord} {row : RawProcess} (h : (verifyRow record row).1 = true) :
    row.hasMarker = true ∧ SameStart row.lstart record.lstart := by
  unfold verifyRow at h
  split at h
  · cases h
  split at h
  · cases h
  split at h
  · cases h
  rename_i hmarker hzero hdrift
  have hmarker : row.hasMarker = true := by simpa using hmarker
  refine ⟨hmarker, ?_⟩
  simp only [Time.isZero, bne_iff_ne, ne_eq, decide_eq_decide, Decidable.not_not] at hzero
  by_cases ht : row.lstart = 0
  · exact .inl ⟨ht, hzero.1 ht⟩
  · exact .inr ⟨ht, mt hzero.2 ht, drift_le (Int.not_lt.1 hdrift)⟩

theorem verifyRows_match {record : BrokerRecord} : ∀ {rows : List RawProcess}, (verifyRows record rows).1 = true →
    ShowsBroker SameStart record rows
  | row :: rows, h => by
    unfold verifyRows at h
    split at h
    · rename_i hne
      obtain ⟨found, hfind, hrow⟩ := verifyRows_match h
      exact ⟨found, by rw [List.find?_cons_of_neg (by simpa using hne), hfind], hrow⟩
    · rename_i heq
      exact ⟨row, List.find?_cons_of_pos (by simpa using heq), verifyRow_match h⟩

theorem verifyAnswer_match {record : BrokerRecord} {rows : Option (List RawProcess)}
    (h : (verifyAnswer record rows).1 = true) : ∃ l, rows = some l ∧ ShowsBroker SameStart record l := by
  cases rows with
  | none => cases h
  | some l => exact ⟨l, rfl, verifyRows_match h⟩

/-- A listing that shows the broker still has its pid. -/
theorem not_gone_of_match {record : BrokerRecord} {rows : Option (List RawProcess)}
    (h : (verifyAnswer record rows).1 = true) : goneIn record rows = false := by
  obtain ⟨l, rfl, row, hfind, _⟩ := verifyAnswer_match h
  have hmem := List.mem_of_find?_eq_some hfind
  have hpid := List.find?_some hfind
  simp only [goneIn, List.all_eq_false]
  exact ⟨row, hmem, by simpa using hpid⟩

/-! ## The steps -/

/-- Operations that send no signal, remove nothing and read no listing for an identity check. -/
def Watches : Op → Prop
  | .list deadline => deadline ≠ verifyDeadline
  | .signal _ _ | .removeAll _ | .evalFn _ | .killerRun _ | .addEntry _ => False
  | _ => True

/-- Events of a run between two identity checks. -/
def Watching : Event iface → Prop
  | ⟨.list deadline, _⟩ => deadline ≠ verifyDeadline
  | ⟨.signal _ _, _⟩ => False
  | _ => True

theorem Watches.watching : ∀ {ev : Event iface}, Watches ev.op → Watching ev
  | ⟨o, r⟩, h => by cases o <;> first | exact h | trivial

theorem signalsIn_append {l h : History} (hl : ∀ ev ∈ l, Watching ev) : signalsIn (l ++ h) = signalsIn h := by
  induction l with
  | nil => rfl
  | cons ev l ih =>
    have hev := hl ev (by simp)
    have := ih fun e he => hl e (by simp [he])
    obtain ⟨o, r⟩ := ev
    cases o <;> first | exact this | exact hev.elim

theorem Watching.not_mismatch {record : BrokerRecord} : ∀ {ev : Event iface}, Watching ev → ¬ Mismatch record ev
  | ⟨o, r⟩, h => by
    cases o
    case list deadline => exact fun hm => h hm.1
    all_goals exact id

section Specs

variable {ks : KillSequence} {decision : DecisionResult} {h : History}

/-- The sequence under its guard, whatever is answered. -/
abbrev guarded (ks : KillSequence) (decision : DecisionResult) : Spec iface :=
  anyAnswer (Guard ks decision)

theorem verifyIdentity_spec (hl : ks.lister = true) :
    wp (guarded ks decision) (verifyIdentity ks.record ks.lister) (fun h' v =>
      ∃ rows, h' = (⟨.list verifyDeadline, rows⟩ : Event iface) :: h ∧ v = verifyAnswer ks.record rows) h := by
  unfold verifyIdentity
  rw [hl]
  exact ⟨trivial, fun rows _ => ⟨rows, rfl, rfl⟩⟩

/-- What a poll loop adds to the history: listings that still had the pid, and at least one, if it
did not see the process go. -/
structure Polled (ks : KillSequence) (l : History) (gone : Bool) : Prop where
  listings : ∀ ev ∈ l, ∃ rows, ev = (⟨.list pollDeadline, rows⟩ : Event iface) ∧
    (gone = false → goneIn ks.record rows = false)
  nonempty : l ≠ []

theorem processGone_spec (hl : ks.lister = true) :
    wp (guarded ks decision) (processGone ks) (fun h' gone =>
      ∃ rows, h' = (⟨.list pollDeadline, rows⟩ : Event iface) :: h ∧ gone = goneIn ks.record rows) h := by
  unfold processGone
  rw [hl]
  exact ⟨trivial, fun rows _ => ⟨rows, rfl, rfl⟩⟩

theorem pollGone_spec (hl : ks.lister = true) : ∀ (n : Nat) (h : History),
    wp (guarded ks decision) (pollGone ks n) (fun h' gone => ∃ l, h' = l ++ h ∧ Polled ks l gone) h
  | 0, h => wp_mono _ (processGone_spec hl) fun h' gone _ ⟨rows, hh, hg⟩ =>
    ⟨[⟨.list pollDeadline, rows⟩], hh, by
      intro ev hev
      obtain rfl := List.mem_singleton.1 hev
      exact ⟨rows, rfl, fun hf => hg ▸ hf⟩, by simp⟩
  | n + 1, h => by
    refine wp_seq (processGone_spec hl) fun h' gone _ ⟨rows, hh, hg⟩ => ?_
    subst hh
    cases gone with
    | true =>
      refine ⟨[⟨.list pollDeadline, rows⟩], rfl, ⟨fun ev hev => ?_, by simp⟩⟩
      obtain rfl := List.mem_singleton.1 hev
      exact ⟨rows, rfl, by simp⟩
    | false =>
      refine wp_mono _ (pollGone_spec hl n _) fun h' gone _ ⟨l, hh, hp⟩ => ?_
      refine ⟨l ++ [⟨.list pollDeadline, rows⟩], by simp [hh], ⟨fun ev hev => ?_, by simp⟩⟩
      rcases List.mem_append.1 hev with hev | hev
      · exact hp.listings ev hev
      · obtain rfl := List.mem_singleton.1 hev
        exact ⟨rows, rfl, fun _ => hg.symm⟩

/-- What a whole wait adds to the history. -/
def Waited (ks : KillSequence) (budget : Int) (h h' : History) (gone : Bool) : Prop :=
  ∃ l n, h' = l ++ (⟨.polls budget, n⟩ : Event iface) :: h ∧ Polled ks l gone

theorem waitForExit_spec (hl : ks.lister = true) (budget : Int) :
    wp (guarded ks decision) (waitForExit ks budget) (fun h' gone => Waited ks budget h h' gone) h :=
  wp_call_seq trivial fun n _ => wp_mono _ (pollGone_spec hl n _) fun _ _ _ ⟨l, hh, hp⟩ => ⟨l, n, hh, hp⟩

theorem Polled.watching {l : History} {gone : Bool} (hp : Polled ks l gone) : ∀ ev ∈ l, Watching ev := by
  intro ev hev
  obtain ⟨rows, rfl, _⟩ := hp.listings ev hev
  exact (by decide : pollDeadline ≠ verifyDeadline)

/-- A step that only watched: no signal and no identity check. -/
abbrev Watched (h h' : History) : Prop := Grew Watching h h'

theorem Waited.watched {h' : History} {gone : Bool} {budget : Int} :
    Waited ks budget h h' gone → Watched h h'
  | ⟨l, n, hh, hp⟩ => by
    have hpolls : Watching ⟨.polls budget, n⟩ := trivial
    exact Grew.trans (Grew.cons hpolls (.refl h)) ⟨l, hh, hp.watching⟩

theorem Watched.signals {h' : History} : Watched h h' → signalsIn h' = signalsIn h
  | ⟨_, hl, hw⟩ => hl ▸ signalsIn_append hw

theorem Watched.matched {h' : History} (hm : ∀ ev ∈ h, ¬ Mismatch ks.record ev) :
    Watched h h' → ∀ ev ∈ h', ¬ Mismatch ks.record ev
  | ⟨_, hl, hw⟩, ev, hev => by
    subst hl
    rcases List.mem_append.1 hev with hev | hev
    · exact (hw ev hev).not_mismatch
    · exact hm ev hev

theorem pollGone_only (ks : KillSequence) : ∀ n, (pollGone ks n).Only Watches := by
  have hgone : (processGone ks).Only Watches := by
    unfold processGone
    split
    · trivial
    · exact only_bind (only_call (by decide : pollDeadline ≠ verifyDeadline)) fun _ => trivial
  intro n
  induction n with
  | zero => exact hgone
  | succ n ih =>
    refine only_bind hgone fun gone => ?_
    split
    · trivial
    · exact ih

theorem waitForExit_only (ks : KillSequence) (budget : Int) : (waitForExit ks budget).Only Watches :=
  only_bind (only_call trivial) (pollGone_only ks)

theorem stepGraceful_only (ks : KillSequence) : (stepGraceful ks).Only Watches := by
  unfold stepGraceful
  split
  · trivial
  · split
    · trivial
    · exact only_bind (only_call trivial) fun _ => waitForExit_only ks _

theorem stepGraceful_spec : wp (guarded ks decision) (stepGraceful ks) (fun h' _ => Watched h h') h := by
  have hallowed : ∀ h o, Watches o → (guarded ks decision).ok h o := fun h o ho => by cases o <;> trivial
  exact wp_of_only hallowed (stepGraceful_only ks) fun _ _ hg => hg.mono fun _ => Watches.watching

/-! ### Signals -/

/-- What an identity check that passed and the group lookup after it leave. -/
abbrev checkedIn (record : BrokerRecord) (rows : Option (List RawProcess)) (answer : Option Int) (h : History) : History :=
  (⟨.pgidLookup record.pid, answer⟩ : Event iface) :: (⟨.list verifyDeadline, rows⟩ : Event iface) :: h

/-- What a signalling step did when it ended without seeing the process go. -/
inductive StepFailed (record : BrokerRecord) (sig : Signal) (h : History) : History → Prop where
  | refused {rows : Option (List RawProcess)} {answer : Option Int} (hmatch : (verifyAnswer record rows).1 = true)
      (hgroup : ∀ pgid : Int, answer = some pgid → pgid ≤ 1) : StepFailed record sig h (checkedIn record rows answer h)
  | sent {rows : Option (List RawProcess)} {answer : Option Int} {waited : History} {target : Int} {sent : Bool}
      (hmatch : (verifyAnswer record rows).1 = true) (hwatch : ∀ ev ∈ waited, Watching ev)
      (hthere : ∀ ev ∈ waited, ¬ ShowsGone record ev)
      (hwaited : sent = true → ∃ listed, (⟨.list pollDeadline, listed⟩ : Event iface) ∈ waited) :
      StepFailed record sig h (waited ++ (⟨.signal target sig, sent⟩ : Event iface) :: checkedIn record rows answer h)

theorem matched_checkedIn {rows : Option (List RawProcess)} {answer : Option Int}
    (hmatch : (verifyAnswer ks.record rows).1 = true) (hm : ∀ ev ∈ h, ¬ Mismatch ks.record ev) :
    ∀ ev ∈ checkedIn ks.record rows answer h, ¬ Mismatch ks.record ev := by
  intro ev hev
  rcases List.mem_cons.1 hev with rfl | hev
  · exact id
  rcases List.mem_cons.1 hev with rfl | hev
  · exact fun hmis => absurd hmis.2 (by simp [hmatch])
  · exact hm ev hev

theorem matched_append {l : History} (hl : ∀ ev ∈ l, Watching ev) (hm : ∀ ev ∈ h, ¬ Mismatch ks.record ev) :
    ∀ ev ∈ l ++ h, ¬ Mismatch ks.record ev :=
  Watched.matched hm ⟨l, rfl, hl⟩

theorem matched_signal {target : Int} {sig : Signal} {sent : Bool} (hm : ∀ ev ∈ h, ¬ Mismatch ks.record ev) :
    ∀ ev ∈ (⟨.signal target sig, sent⟩ : Event iface) :: h, ¬ Mismatch ks.record ev := by
  intro ev hev
  rcases List.mem_cons.1 hev with rfl | hev
  · exact id
  · exact hm ev hev

theorem StepFailed.matched {sig : Signal} {h' : History} (hf : StepFailed ks.record sig h h')
    (hm : ∀ ev ∈ h, ¬ Mismatch ks.record ev) : ∀ ev ∈ h', ¬ Mismatch ks.record ev := by
  cases hf with
  | refused hmatch _ => exact matched_checkedIn hmatch hm
  | sent hmatch hwatch _ _ => exact matched_append hwatch (matched_signal (matched_checkedIn hmatch hm))

theorem StepFailed.signals {sig : Signal} {h' : History} {record : BrokerRecord} (hf : StepFailed record sig h h') :
    signalsIn h' = signalsIn h ∨ signalsIn h' = sig :: signalsIn h := by
  cases hf with
  | refused => exact .inl rfl
  | sent _ hwatch => exact .inr (signalsIn_append hwatch)

theorem StepFailed.suffix {sig : Signal} {h' : History} {record : BrokerRecord} (hf : StepFailed record sig h h') :
    h <:+ h' := by
  cases hf with
  | refused => exact ⟨[_, _], rfl⟩
  | @sent rows answer waited target sent =>
    exact ⟨waited ++ [⟨.signal target sig, sent⟩, ⟨.pgidLookup record.pid, answer⟩, ⟨.list verifyDeadline, rows⟩],
      by simp⟩

/-- How a signalling step ends. -/
def Signalled (ks : KillSequence) (sig : Signal) (h h' : History) : Except KillError Bool → Prop
  | .error e => signalsIn h' = signalsIn h ∧ isIdentityMismatch e = true ∧ ∃ ev ∈ h', Mismatch ks.record ev
  | .ok true => signalsIn h' = sig :: signalsIn h ∧ h <:+ h' ∧ ∀ ev ∈ h', ¬ Mismatch ks.record ev
  | .ok false => h' = h ∧ ks.signaller = false ∨ StepFailed ks.record sig h h'

theorem signalAndWait_spec (hl : ks.lister = true) {sig : Signal} {path : String} (budget : Int)
    (hpre : (⟨.writePreimage ks.record decision, .ok path⟩ : Event iface) ∈ h)
    (hm : ∀ ev ∈ h, ¬ Mismatch ks.record ev)
    (horder : ∀ rows answer, (verifyAnswer ks.record rows).1 = true → InOrder ks.record (checkedIn ks.record rows answer h) sig) :
    wp (guarded ks decision) (signalAndWait ks sig budget) (fun h' r => Signalled ks sig h h' r) h := by
  unfold signalAndWait
  split
  · rename_i hs
    exact .inl ⟨rfl, by simpa using hs⟩
  refine wp_seq (verifyIdentity_spec hl) fun _ v _ ⟨rows, hh, hv⟩ => ?_
  subst hh hv
  obtain hmatch | hmatch := Bool.eq_false_or_eq_true (verifyAnswer ks.record rows).1
  swap
  · simp only [hmatch]
    exact ⟨rfl, rfl, ⟨.list verifyDeadline, rows⟩, by simp, rfl, hmatch⟩
  simp only [hmatch, Bool.not_true, Bool.false_eq_true, if_false]
  refine wp_call_seq trivial fun answer _ => ?_
  split
  · exact .inr (.refused hmatch (by simp))
  rename_i pgid _
  split
  · rename_i hle
    exact .inr (.refused hmatch (by rintro _ ⟨⟩; exact hle))
  rename_i hgt
  have hchecked : ∀ ev ∈ checkedIn ks.record rows (some pgid) h, ¬ Mismatch ks.record ev := matched_checkedIn hmatch hm
  refine wp_call_seq ⟨⟨path, by simp [hpre]⟩, ?_, ⟨pgid, by simp, by omega, rfl⟩, horder _ _ hmatch, hchecked⟩ fun sent _ => ?_
  · obtain ⟨l, rfl, hshows⟩ := verifyAnswer_match hmatch
    exact ⟨l, rfl, hshows⟩
  cases sent with
  | false =>
    have hfailed : StepFailed ks.record sig h
        ([] ++ (⟨.signal (-pgid) sig, false⟩ : Event iface) :: checkedIn ks.record rows (some pgid) h) :=
      .sent hmatch (by simp) (by simp) (by simp)
    exact .inr hfailed
  | true =>
    refine wp_seq (waitForExit_spec hl budget) fun h' gone _ hwait => ?_
    have hwatched := hwait.watched
    cases gone with
    | true =>
      refine ⟨hwatched.signals, ?_, hwatched.matched (matched_signal hchecked)⟩
      exact List.IsSuffix.trans ⟨[_, _, _], rfl⟩ hwatched.suffix
    | false =>
      obtain ⟨l, n, rfl, hp⟩ := hwait
      have hpolls : Watching ⟨.polls budget, n⟩ := trivial
      refine .inr (List.append_cons l _ _ ▸ .sent hmatch ?_ ?_ fun _ => ?_)
      · intro ev hev
        rcases List.mem_append.1 hev with hev | hev
        · exact hp.watching ev hev
        · exact List.mem_singleton.1 hev ▸ hpolls
      · intro ev hev
        rcases List.mem_append.1 hev with hev | hev
        · obtain ⟨listed, rfl, hthere⟩ := hp.listings ev hev
          simp [ShowsGone, hthere rfl]
        · exact List.mem_singleton.1 hev ▸ id
      · obtain ⟨ev, hev⟩ := List.exists_mem_of_ne_nil l hp.nonempty
        obtain ⟨listed, rfl, _⟩ := hp.listings ev hev
        exact ⟨listed, List.mem_append_left _ hev⟩

/-- A SIGTERM step that failed clears the way for SIGKILL, once the identity was checked again. -/
theorem StepFailed.inOrder {record : BrokerRecord} {h' : History} (hf : StepFailed record .term h h')
    (hnone : signalsIn h = []) (rows : Option (List RawProcess)) (answer : Option Int)
    (hmatch : (verifyAnswer record rows).1 = true) : InOrder record (checkedIn record rows answer h') .kill := by
  have hnokill : Signal.kill ∉ signalsIn h' := by
    rcases hf.signals with hs | hs <;> simp [hs, hnone]
  refine ⟨hnokill, ?_⟩
  cases hf with
  | @refused _ looked _ hgroup => exact .inl ⟨hnone, looked, by simp, hgroup⟩
  | @sent _ _ waited target sent _ _ hthere hwaited =>
    refine .inr ⟨checkedIn record rows answer waited, target, sent, _, rfl, ?_, fun h => ?_⟩
    · intro ev hev
      rcases List.mem_cons.1 hev with rfl | hev
      · exact id
      rcases List.mem_cons.1 hev with rfl | hev
      · simp [ShowsGone, not_gone_of_match hmatch]
      · exact hthere ev hev
    · obtain ⟨listed, hmem⟩ := hwaited h
      exact ⟨listed, by simp [hmem]⟩

/-- The signals a kill sequence may have sent, newest first. -/
def signalOrders : List (List Signal) := [[], [.term], [.kill], [.kill, .term]]

/-- A sequence ends in an identity mismatch if a check failed, and else passed them all. -/
def Checked (record : BrokerRecord) (h' : History) : Except KillError KillResult → Prop
  | .error (.identityMismatch _) => ∃ ev ∈ h', Mismatch record ev
  | _ => ∀ ev ∈ h', ¬ Mismatch record ev

theorem checked_of_mismatch {record : BrokerRecord} {h' : History} : ∀ {e : KillError}, isIdentityMismatch e = true →
    (∃ ev ∈ h', Mismatch record ev) → Checked record h' (.error e)
  | .identityMismatch _, _, hev => hev

theorem signals_spec (hl : ks.lister = true) {path : String}
    (hpre : (⟨.writePreimage ks.record decision, .ok path⟩ : Event iface) ∈ h)
    (hm : ∀ ev ∈ h, ¬ Mismatch ks.record ev) (hnone : signalsIn h = []) :
    wp (guarded ks decision) (signals ks) (fun h' r =>
      signalsIn h' ∈ signalOrders ∧ Checked ks.record h' r) h := by
  refine wp_seq (signalAndWait_spec hl _ hpre hm fun _ _ _ => hnone) fun h₁ r _ hr => ?_
  rcases r with e | _ | _
  · obtain ⟨hs, hmis, hev⟩ := hr
    exact ⟨by simp [hs, hnone, signalOrders], checked_of_mismatch hmis hev⟩
  · -- SIGTERM was not seen to work: the second step may add SIGKILL
    have hm₁ : ∀ ev ∈ h₁, ¬ Mismatch ks.record ev := by
      rcases hr with ⟨rfl, _⟩ | hf
      · exact hm
      · exact hf.matched hm
    have hsent : signalsIn h₁ ∈ [[], [Signal.term]] := by
      rcases hr with ⟨rfl, _⟩ | hf
      · simp [hnone]
      · rcases hf.signals with hs | hs <;> simp [hs, hnone]
    have horders : ∀ {l}, l ∈ [[], [Signal.term]] → l ∈ signalOrders ∧ Signal.kill :: l ∈ signalOrders := by decide
    rcases hr with ⟨rfl, hoff⟩ | hf
    · -- without a signaller the second step does nothing either
      have hstep : signalAndWait ks .kill (orDefault ks.killTimeout defaultKillTimeout) = .pure (.ok false) := by
        simp [signalAndWait, hoff]
      simp only [stepSIGKILL, hstep]
      exact ⟨(horders hsent).1, hm₁⟩
    · have hpre₁ := hf.suffix.subset hpre
      refine wp_seq (signalAndWait_spec hl _ hpre₁ hm₁ (hf.inOrder hnone)) fun h₂ r _ hr => ?_
      rcases r with e | _ | _
      · obtain ⟨hs, hmis, hev⟩ := hr
        exact ⟨hs ▸ (horders hsent).1, checked_of_mismatch hmis hev⟩
      · rcases hr with ⟨rfl, _⟩ | hf₂
        · exact ⟨(horders hsent).1, hm₁⟩
        · refine ⟨?_, hf₂.matched hm₁⟩
          rcases hf₂.signals with hs | hs
          · exact hs ▸ (horders hsent).1
          · exact hs ▸ (horders hsent).2
      · exact ⟨hr.1 ▸ (horders hsent).2, hr.2.2⟩
  · exact ⟨by simp [hr.1, hnone, signalOrders], hr.2.2⟩

theorem finish_spec (hl : ks.lister = true) (verifier : Bool) (path : String) (res : KillResult)
    (hm : ∀ ev ∈ h, ¬ Mismatch ks.record ev) :
    wp (guarded ks decision) (finish ks verifier path res) (fun h' r =>
      signalsIn h' = signalsIn h ∧ Checked ks.record h' r) h := by
  have hverify : wp (guarded ks decision) (stepVerifyGone ks) (fun h' _ => Watched h h') h := by
    unfold stepVerifyGone
    rw [hl]
    refine ⟨trivial, fun rows _ => ?_⟩
    have hlook : Watching ⟨.list (2 * second), rows⟩ := (by decide : 2 * second ≠ verifyDeadline)
    exact .cons hlook (.refl h)
  have hheld : ∀ h₁, wp (guarded ks decision) (socketHeld ks verifier) (fun h' _ => Watched h₁ h') h₁ := by
    intro h₁
    unfold socketHeld
    cases verifier with
    | false => exact .refl h₁
    | true =>
      refine ⟨trivial, fun held _ => ?_⟩
      have hhold : Watching ⟨.holdsSocket ks.record.socketDir, held⟩ := trivial
      exact .cons hhold (.refl h₁)
  have hclean : ∀ h₁, Watched h h₁ → wp (guarded ks decision) (stepCleanup ks verifier) (fun h' _ => Watched h h') h₁ := by
    intro h₁ hw
    unfold stepCleanup
    split
    · exact hw
    · refine wp_seq (hheld h₁) fun h₂ held _ hw₂ => ?_
      have hw : Watched h h₂ := Grew.trans hw hw₂
      cases held with
      | true => exact hw
      | false =>
        refine ⟨hw.matched hm, fun ok _ => ?_⟩
        have hremove : Watching ⟨.removeAll ks.record.socketDir, ok⟩ := trivial
        exact .cons hremove hw
  refine wp_seq hverify fun h₁ _ _ hw => wp_seq (hclean h₁ hw) fun h₂ cleanedUp _ hw₂ => ?_
  refine wp_call_seq trivial fun done _ => ?_
  have happend : Watching ⟨.appendPostscript path { res with cleanedUp := cleanedUp }, done⟩ := trivial
  have hw₃ : Watched h (⟨.appendPostscript path { res with cleanedUp := cleanedUp }, done⟩ :: h₂) := .cons happend hw₂
  exact ⟨hw₃.signals, hw₃.matched hm⟩

theorem run_spec (verifier : Bool) :
    wp (guarded ks decision) (ks.run decision verifier) (fun h' r =>
      signalsIn h' ∈ signalOrders ∧ (ks.lister = true → Checked ks.record h' r) ∧
      (ks.lister = false → ∃ detail, r = .error (.identityMismatch detail))) [] := by
  unfold KillSequence.run
  by_cases hl : ks.lister = true
  swap
  · simp only [verifyIdentity, hl, Bool.not_false, if_true]
    exact ⟨List.mem_cons_self, fun h => absurd h (by decide), fun _ => ⟨_, rfl⟩⟩
  refine wp_mono _ (Q := fun h' r => signalsIn h' ∈ signalOrders ∧ Checked ks.record h' r) ?_
    fun _ _ _ hq => ⟨hq.1, fun _ => hq.2, fun h => absurd hl (by simp [h])⟩
  refine wp_seq (verifyIdentity_spec hl) fun _ v _ ⟨rows, hh, hv⟩ => ?_
  subst hh hv
  obtain hmatch | hmatch := Bool.eq_false_or_eq_true (verifyAnswer ks.record rows).1
  swap
  · simp only [hmatch]
    exact ⟨List.mem_cons_self, ⟨.list verifyDeadline, rows⟩, by simp, rfl, hmatch⟩
  simp only [hmatch, Bool.not_true, Bool.false_eq_true, if_false]
  have hfirst : ∀ ev ∈ [(⟨.list verifyDeadline, rows⟩ : Event iface)], ¬ Mismatch ks.record ev := by
    intro ev hev
    obtain rfl := List.mem_singleton.1 hev
    exact fun hmis => absurd hmis.2 (by simp [hmatch])
  refine wp_call_seq trivial fun written _ => ?_
  have hm : ∀ ev ∈ [(⟨.writePreimage ks.record decision, written⟩ : Event iface), ⟨.list verifyDeadline, rows⟩],
      ¬ Mismatch ks.record ev := by
    intro ev hev
    rcases List.mem_cons.1 hev with rfl | hev
    · exact id
    · exact hfirst ev hev
  rcases written with err | path
  · exact ⟨List.mem_cons_self, hm⟩
  refine wp_seq stepGraceful_spec fun h₁ gone _ hw => ?_
  have hnone : signalsIn h₁ = [] := Watched.signals hw
  cases gone with
  | true =>
    refine wp_mono _ (finish_spec hl verifier path _ (hw.matched hm)) fun h₂ _ _ ⟨hs, hc⟩ => ⟨?_, hc⟩
    rw [hs, hnone]
    exact List.mem_cons_self
  | false =>
    refine wp_seq (signals_spec hl (hw.suffix.subset List.mem_cons_self) (hw.matched hm) hnone) fun h₂ r _ hr => ?_
    rcases r with e | res
    · exact hr
    · exact wp_mono _ (finish_spec hl verifier path res hr.2) fun h₃ _ _ ⟨hs, hc⟩ => ⟨hs ▸ hr.1, hc⟩

end Specs

/-! ## Every run -/

/-- Every signal follows the audit preimage and a listing that shows the broker, goes to its group,
and comes in order; a failed identity check ends the signals and keeps the socket directory. -/
theorem kill_signals_safe (ks : KillSequence) (decision : DecisionResult) (verifier : Bool) (h : History)
    (res : Except KillError KillResult) (hr : Runs (ks.run decision verifier) [] h res) :
    signalsIn h ∈ signalOrders ∧ ∀ post ev pre, h = post ++ ev :: pre →
      (∀ target sig, ev.op = .signal target sig → SignalSafe ks decision pre target sig) ∧
      (Mismatch ks.record ev → ∀ later ∈ post,
        (∀ target sig, later.op ≠ .signal target sig) ∧ ∀ dir, later.op ≠ .removeAll dir) := by
  have hspec := @run_spec ks decision verifier
  have hguard : ∀ {post ev pre}, h = post ++ ev :: pre → Guard ks decision pre ev.op :=
    fun heq => hr.issued hspec heq (List.nil_suffix)
  refine ⟨(hr.post hspec).1, fun post ev pre heq => ⟨fun target sig hop => ?_, fun hmis later hlater => ?_⟩⟩
  · have hg := hguard heq
    rw [hop] at hg
    exact hg
  · obtain ⟨newer, older, rfl⟩ := List.append_of_mem hlater
    have hsplit : h = newer ++ later :: (older ++ ev :: pre) := by simpa using heq
    have hg := hguard hsplit
    refine ⟨fun target sig hop => ?_, fun dir hop => ?_⟩
    · rw [hop] at hg
      exact hg.matched ev (by simp) hmis
    · rw [hop] at hg
      exact hg ev (by simp) hmis

/-! ### Runs -/

/-- A world that does not change: the process table, the group a pid is looked up to be in, and
the inventory. -/
structure World where
  rows : List RawProcess
  group : History → Option Int
  inventory : List BrokerRecord

def World.answer (w : World) : (o : Op) → History → o.Res
  | .now, _ => (0 : Int)
  | .list _, _ => some w.rows
  | .polls _, _ => (0 : Nat)
  | .threadList _, _ => .error "dial-error"
  | .openState _, _ => .absent
  | .openJobResult _ _, _ => .absent
  | .stat _, _ => .ok
  | .paneAlive _, _ => some false
  | .writePreimage _ _, _ => .ok "audit"
  | .dialShutdown _, _ => ()
  | .pgidLookup _, h => w.group h
  | .signal _ _, _ => true
  | .holdsSocket _, _ => some false
  | .removeAll _, _ => true
  | .appendPostscript _ _, _ => ()
  | .acquireLocks _ _, _ => true
  | .ctxErr, _ => false
  | .scan, _ => .ok w.inventory
  | .evalFn _, _ => ()
  | .killerRun _, _ => ()
  | .addEntry _, _ => ()
  | .saveQuarantine, _ => .ok ()

def sampleRecord (lstart : Int) : BrokerRecord where
  key := "k"
  pid := 10
  lstart := lstart
  cwd := ""
  endpoint := ""
  socketDir := "/tmp/cxc-k"
  pidFile := ""
  stateDir := ""
  lastJobUpdatedAt := none
  cwdExists := true
  anomalies := []

def sampleKill (lstart : Int) : KillSequence :=
  ⟨sampleRecord lstart, true, false, true, 0, 0, 0⟩

def sampleDecision : DecisionResult :=
  ⟨⟨false, "", false, "", false, ""⟩, -1, false, true, "idle_timeout", []⟩

/-- A worker whose start time ps printed in a form nobody understood. -/
def unknownStart : World := ⟨[⟨10, 0, "app-server-broker.mjs"⟩], fun _ => some 10, []⟩

/-- The group of the worker is not found the first time it is looked up. -/
def lateGroup : World :=
  ⟨[⟨10, 5, "app-server-broker.mjs"⟩], fun h => if h.length = 3 then none else some 10, []⟩

abbrev sampleRun (w : World) (lstart : Int) : History × Except KillError KillResult :=
  runWith (I := iface) w.answer ((sampleKill lstart).run sampleDecision true) []

theorem kill_signals_safe_lateGroup : signalsIn (sampleRun lateGroup 5).1 = [.kill] ∧
    SignalSafe (sampleKill 5) sampleDecision ((sampleRun lateGroup 5).1.drop 7) (-10) .kill := by
  have hsafe := kill_signals_safe (sampleKill 5) sampleDecision true _ _ (runs_runWith (I := iface) lateGroup.answer _ [])
  exact ⟨rfl, (hsafe.2 ((sampleRun lateGroup 5).1.take 6) _ _ rfl).1 _ _ rfl⟩

/-- A signal goes although neither start time is known, and SIGKILL goes although SIGTERM never did. -/
theorem kill_signals_unclaimed :
    (∃ (ks : KillSequence) (decision : DecisionResult) (h : History) (res : _), Runs (ks.run decision true) [] h res ∧
      ∃ post target sig sent pre, h = post ++ (⟨.signal target sig, sent⟩ : Event iface) :: pre ∧
        ¬ ∃ rows, lastListing pre = some (some rows) ∧ ShowsBroker SameKnownStart ks.record rows) ∧
    ∃ (ks : KillSequence) (decision : DecisionResult) (h : History) (res : _), Runs (ks.run decision true) [] h res ∧
      .kill ∈ signalsIn h ∧ .term ∉ signalsIn h := by
  constructor
  · refine ⟨sampleKill 0, sampleDecision, _, _, runs_runWith (I := iface) unknownStart.answer _ [],
      (sampleRun unknownStart 0).1.take 11, -10, .term, true, (sampleRun unknownStart 0).1.drop 12, rfl, ?_⟩
    rintro ⟨rows, hlast, row, hfind, _, hknown⟩
    exact hknown.2.1 rfl
  · exact ⟨sampleKill 5, sampleDecision, _, _, runs_runWith (I := iface) lateGroup.answer _ [], by decide, by decide⟩

end Purdex.Broker
