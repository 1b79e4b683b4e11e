/-
What handoffs promise. One of a session at a time, its lock released once; and when no handoff and no clean-up of the session
is under way, "stream" is stored only where a relay is connected, and there after every success that was reported for it.
-/
import Purdex.Stream.HandoffRuns
import Mathlib

namespace Purdex.Stream

open Conc
open Purdex.Session (SessionMeta MetaUpdate decodeSessionID)

/-! ## Releases -/

def Phase.isOver : Phase → Bool
  | .ended _ => true
  | _ => false

/-- The handoff's turn that releases its lock. -/
def releasesBy (i : Nat) (d : Moved Serving Handler Luck Empty) : Bool :=
  match d.move with
  | .turn k _ => k == i && d.pre.threads[k]?.any fun t => match t with
    | .handoff _ _ (.unlocking _) => true
    | _ => false
  | _ => false

theorem isOver_of_running {p : Phase} (h : p.running = true) : p.isOver = false := by
  cases p with
  | ended r => cases h
  | _ => rfl

def releases (i : Nat) (tr : HostTrace) : Nat := tr.countP (releasesBy i)

section Releases

variable {i : Nat} {luck : Luck} {t t' : Handler} {s s' : Serving} {w : Hosting} {tr : HostTrace} {ok : Hosting → HostMove → Prop}

theorem Turned.isOver (h : Turned i luck t s t' s') (ht : ∀ r, t.phase ≠ .done r) : t'.phase.isOver = t.phase.isOver := by
  cases h with
  | stays phase => rw [phase]
  | unlocks r phase => exact absurd phase (ht r)
  | forgets _ _ phase after | takes phase after | marks phase after | turnsBack phase after | sees _ phase after | registers phase after
  | unregisters phase after | cleans phase after => simp [phase, after, Phase.isOver]
  | clears phase after => rcases phase with phase | phase <;> rw [phase, after] <;> rfl
  | fails phase after => rcases phase with phase | phase | ⟨j, phase⟩ <;> rw [phase, after] <;> rfl
  | givesUp _ _ before after | rollsBack _ _ _ _ before after | reports _ _ _ _ _ before after =>
    rw [after, before]
    rfl

/-- The lock is released by the last turn of a handoff and by no other. -/
theorem releases_turn (hget : w.threads[i]? = some t) (hact : serveHandler i luck t w.shared = some (t', s')) :
    (if releasesBy i ⟨.turn i luck, w⟩ then 1 else 0) + (if t.phase.isOver then 1 else 0) = if t'.phase.isOver then 1 else 0 := by
  by_cases hdone : ∃ code body outcome, t = .handoff code body (.unlocking outcome)
  · obtain ⟨code, body, outcome, rfl⟩ := hdone
    have hrel : releasesBy i ⟨.turn i luck, w⟩ = true := by simp [releasesBy, hget]
    obtain ⟨rfl, -⟩ := Prod.mk.inj (Option.some.inj hact)
    rw [if_pos hrel]
    rfl
  · have hrel : releasesBy i ⟨.turn i luck, w⟩ = false := by
      simp only [releasesBy, hget, beq_self_eq_true, Bool.true_and, Option.any_some]
      split
      · rename_i code body outcome
        exact absurd ⟨code, body, outcome, rfl⟩ hdone
      · rfl
    have hover := (turned_of_serve hact).isOver fun r hr => by
      cases t with
      | handoff code body at' =>
        cases at' with
        | unlocking outcome => exact hdone ⟨code, body, outcome, rfl⟩
        | stopping updated => cases updated <;> cases hr
        | _ => cases hr
      | relay code captured at' => cases at' <;> cases hr
    rw [hrel, hover]
    simp

theorem releases_of_runs (hfresh : ∀ w t, ok w (.start t) → t.Fresh) (hr : handoffs.Runs Started ok w tr) :
    ∀ i, releases i tr = if (w.threads[i]?).any (·.phase.isOver) then 1 else 0 := by
  refine hr.invariant (P := fun w tr => ∀ i, releases i tr = if (w.threads[i]?).any (·.phase.isOver) then 1 else 0)
    (fun w h i => by simp [h.threads, releases]) fun w w' tr mv _ ih hok hst i => ?_
  rcases Stages.step_cases hst with ⟨t, rfl, rfl⟩ | ⟨k, luck, t, t', s', rfl, hget, hact, rfl⟩ | ⟨o, -⟩
  · have hsame : ((w.threads ++ [t])[i]?).any (·.phase.isOver) = (w.threads[i]?).any (·.phase.isOver) := by
      by_cases hi : i = w.threads.length
      · subst hi
        simp [fresh_phase (hfresh w t hok), Phase.isOver]
      · rcases Nat.lt_or_gt_of_ne hi with hlt | hgt
        · rw [List.getElem?_append_left hlt]
        · rw [List.getElem?_eq_none (by simp; omega), List.getElem?_eq_none (Nat.le_of_lt hgt)]
    rw [hsame, ← ih i]
    exact List.countP_cons_of_neg (by simp [releasesBy])
  · by_cases hik : k = i
    · subst hik
      have hone := releases_turn hget hact
      have hold := ih k
      rw [hget, Option.any_some] at hold
      rw [getElem?_set_of_some hget, if_pos rfl, Option.any_some, ← hone, ← hold, releases, List.countP_cons, Nat.add_comm]
      rfl
    · rw [getElem?_set_of_some hget, if_neg hik, ← ih i]
      exact List.countP_cons_of_neg (by simp [releasesBy, hik])
  · exact o.elim

end Releases

/-! ## The promise -/

/-- A handoff that is in progress, or the clean-up of a relay that went. -/
def Handler.busy : Handler → Bool
  | .handoff _ _ at' => at'.phase.running
  | .relay _ _ .closing | .relay _ _ .unregistered | .relay _ _ .reverting => true
  | .relay .. => false

def Quiet (w : Hosting) (id : Nat) : Prop := ∀ t ∈ w.threads, t.session = some id → t.busy = false

structure StreamMeansRelay (w : Hosting) (tr : HostTrace) : Prop where
  /-- At most one handoff of a session is in progress. -/
  one : ∀ (i j : Nat) t u id, w.threads[i]? = some t → w.threads[j]? = some u → t.phase.running = true → u.phase.running = true →
    t.session = some id → u.session = some id → i = j
  /-- It holds the lock all the while, -/
  held : ∀ (i : Nat) t, w.threads[i]? = some t → t.phase.running = true → w.shared.locks t.code = some i ∧ releases i tr = 0
  /-- and releases it once. -/
  released : ∀ (i : Nat) t, w.threads[i]? = some t → releases i tr = if t.phase.isOver then 1 else 0
  sound : ∀ id, Quiet w id → w.shared.modeOf id = some "stream" →
    ∃ code captured, .relay code captured .connected ∈ w.threads ∧ decodeSessionID code = some id
  kept : ∀ id, Quiet w id → ∀ (j : Nat) code body code' captured, .handoff code body (.ended (.streaming j)) ∈ w.threads →
    decodeSessionID code = some id → w.threads[j]? = some (.relay code' captured .connected) → w.shared.modeOf id = some "stream"

variable {w : Hosting} {tr : HostTrace}

theorem connected_of_quiet {id : Nat} {t : Handler} (hquiet : Quiet w id) (ht : t ∈ w.threads) (hid : t.session = some id)
    (hp : t.phase.tended = true) : ∃ code captured, t = .relay code captured .connected := by
  have hbusy := hquiet t ht hid
  cases t with
  | handoff code body at' =>
    cases at' with
    | stopping updated => cases updated <;> cases hp
    | _ => cases hp
  | relay code captured at' =>
    cases at' with
    | connected => exact ⟨code, captured, rfl⟩
    | closing | unregistered | reverting => cases hbusy
    | _ => cases hp

/-- Over every run in which the turns come in order, stream mode means a relay. -/
theorem stream_means_relay (hr : handoffs.Runs Started InOrder w tr) : StreamMeansRelay w tr := by
  have hinv := inv_of_runs hr
  have hreleases := releases_of_runs (fun _ _ h => h.fresh _ rfl) hr
  have hreleased : ∀ (i : Nat) t, w.threads[i]? = some t → releases i tr = if t.phase.isOver then 1 else 0 := fun i t hget => by
    rw [hreleases i, hget, Option.any_some]
  refine ⟨fun i j t u id hi hj ht hu hts hus => ?_, fun i t hget hrun => ⟨?_, ?_⟩, hreleased, fun id hquiet hmode => ?_,
    fun id hquiet j code body code' captured hmem hid hj => ?_⟩
  · have hcode := hinv.spelt t (List.mem_of_getElem? hi) u (List.mem_of_getElem? hj) id hts hus
    exact hinv.locks.unique hi hj (if_pos ht) ((if_pos hu).trans (congrArg some hcode.symm))
  · exact hinv.locks.of_get hget (if_pos hrun)
  · rw [hreleased i t hget, isOver_of_running hrun]
    rfl
  · obtain ⟨t, ht, hts, hp⟩ := hinv.sound id hmode
    obtain ⟨code, captured, rfl⟩ := connected_of_quiet hquiet ht hts hp
    exact ⟨code, captured, ht, hts⟩
  · have hlive : Live w.threads id := ⟨_, hmem, hid, j, rfl, _, hj, rfl⟩
    refine (hinv.live id hlive).2.2 fun ⟨u, hu, hus, hdirty⟩ => ?_
    have hbusy := hquiet u hu hus
    cases u with
    | handoff code'' body' at' =>
      have hphase : at'.phase = .dirty := of_decide_eq_true hdirty
      rw [Handler.busy, hphase] at hbusy
      cases hbusy
    | relay code'' captured' at' => cases at' <;> cases hdirty

/-! ## Runs on fixed inputs -/

instance (w : Hosting) (i : Nat) (luck : Luck) (t : Handler) : Decidable (TurnOk w i luck t) := by
  unfold TurnOk
  cases t with
  | handoff code body at' =>
    cases at' with
    | stopping updated => cases updated <;> infer_instance
    | _ => infer_instance
  | relay code captured at' => cases at' <;> infer_instance

instance (ts : List Handler) (t : Handler) : Decidable (SpeltAlike ts t) := inferInstanceAs (Decidable (∀ u ∈ ts, _))

instance (w : Hosting) (id : Nat) : Decidable (Quiet w id) := inferInstanceAs (Decidable (∀ t ∈ w.threads, _))

def startsFresh : HostMove → Bool
  | .start t => decide t.Fresh
  | _ => true

theorem fresh_of_startsFresh {mv : HostMove} (h : startsFresh mv = true) : ∀ t, mv = .start t → t.Fresh := by
  rintro t rfl
  exact of_decide_eq_true h

def inOrder (w : Hosting) : HostMove → Bool
  | .start t => decide (t.Fresh ∧ SpeltAlike w.threads t)
  | .turn i luck => decide (∀ t ∈ w.threads[i]?, TurnOk w i luck t)
  | .outside _ => true

theorem inOrder_of_bool (w : Hosting) (mv : HostMove) (h : inOrder w mv = true) : InOrder w mv := by
  constructor
  · rintro t rfl
    exact (of_decide_eq_true h).1
  · rintro t rfl
    exact (of_decide_eq_true h).2
  · rintro i luck t rfl ht
    exact of_decide_eq_true h t ht

/-- All goes well. -/
def well : Luck := ⟨none, false, false, true, [("cc", "claude")], ("5f0c", "/src"), none⟩

/-- The daemon with a session `$1` that has a row, whose code is 7wdrqe. -/
def host : Hosting := ⟨⟨Function.update (fun _ => none) 1 (some ⟨"terminal", "", "", "/src"⟩), fun _ => none, fun _ => none, []⟩, []⟩

theorem host_started : Started host := by
  refine ⟨rfl, fun id row hrow => ?_, fun _ => rfl, fun _ => rfl⟩
  change Function.update (fun _ => none) 1 _ id = some row at hrow
  rw [Function.update_apply] at hrow
  split at hrow
  · rw [← Option.some.inj hrow]
  · cases hrow

def turns (i n : Nat) : List HostMove := List.replicate n (.turn i well)

def streamRequest : Option HandoffRequest := some ⟨"stream", "cc"⟩

def termRequest : Option HandoffRequest := some ⟨"terminal", ""⟩

/-- A handoff to the stream until it waits for the relay, as the `i`-th handler, and a relay that connects, as the next. -/
def handedOver (i : Nat) : List HostMove :=
  .start (.handoff "7wdrqe" streamRequest .start) :: turns i 9 ++ .start (.relay "7wdrqe" false .start) :: turns (i + 1) 3

/-- To the stream, and back to the terminal. -/
def backAndForth : List HostMove :=
  handedOver 0 ++ turns 0 3 ++ .start (.handoff "7wdrqe" termRequest .start) :: turns 2 4 ++ turns 1 3 ++ turns 2 6

theorem stream_means_relay_backAndForth : ∃ w tr, handoffs.play inOrder backAndForth host [] = some (w, tr) ∧
    w.threads = [.handoff "7wdrqe" streamRequest (.ended (.streaming 1)), .relay "7wdrqe" false .ended,
      .handoff "7wdrqe" termRequest (.ended .interactive)] ∧ StreamMeansRelay w tr := by
  have hran : (handoffs.play inOrder backAndForth host []).any (fun r => r.1.threads =
      [.handoff "7wdrqe" streamRequest (.ended (.streaming 1)), .relay "7wdrqe" false .ended, .handoff "7wdrqe" termRequest (.ended .interactive)]) =
        true := by decide
  obtain ⟨⟨w, tr⟩, hplay, hdone⟩ := (Option.any_eq_true _ _).1 hran
  exact ⟨w, tr, hplay, of_decide_eq_true hdone, stream_means_relay (Stages.Runs.play inOrder_of_bool (.init host_started) hplay)⟩

/-- The relay goes between the handoff's look at it and the write of the mode. -/
def relayGoes : List HostMove := handedOver 0 ++ turns 0 1 ++ turns 1 3 ++ turns 0 2

/-- The clean-up of a relay comes after the next relay was reported. -/
def lateCleanUp : List HostMove := handedOver 0 ++ turns 0 3 ++ turns 1 2 ++ handedOver 2 ++ turns 2 3 ++ turns 1 2

/-- The agent does not leave the pane, and the mode of before comes back without the relay. -/
def rolledBack : List HostMove :=
  handedOver 0 ++ turns 0 3 ++ .start (.handoff "7wdrqe" termRequest .start) :: turns 2 4 ++ turns 1 3 ++
    turns 2 1 ++ [.turn 2 { well with err := some "" }] ++ turns 2 2

/-- Two spellings of one code. -/
def speltTwice : List HostMove :=
  .start (.handoff "7wdrqe" streamRequest .start) :: turns 0 2 ++ .start (.handoff "7WDRQE" streamRequest .start) :: turns 1 2

def strays (w : Hosting) : Bool :=
  decide (Quiet w 1) && decide (w.shared.modeOf 1 = some "stream") && w.threads.all fun t => decide (t.phase ≠ .registered)

theorem not_strays {w : Hosting} {tr : HostTrace} (h : strays w = true) : ¬ StreamMeansRelay w tr := fun hpromise => by
  obtain ⟨hqm, hnone⟩ := Bool.and_eq_true_iff.1 h
  obtain ⟨hquiet, hmode⟩ := Bool.and_eq_true_iff.1 hqm
  obtain ⟨code, captured, hmem, -⟩ := hpromise.sound 1 (of_decide_eq_true hquiet) (of_decide_eq_true hmode)
  exact of_decide_eq_true (List.all_eq_true.1 hnone _ hmem) rfl

/-- Stream mode without a relay, a relay that was reported without stream mode, and two handoffs of a session at once. -/
theorem mode_strays :
    (∀ moves ∈ [relayGoes, rolledBack], ∃ w tr, handoffs.Runs Started (fun _ mv => ∀ t, mv = .start t → t.Fresh) w tr ∧
      handoffs.play (fun _ => startsFresh) moves host [] = some (w, tr) ∧ ¬ StreamMeansRelay w tr) ∧
    (∃ w tr, handoffs.Runs Started (fun _ mv => ∀ t, mv = .start t → t.Fresh) w tr ∧
      handoffs.play (fun _ => startsFresh) lateCleanUp host [] = some (w, tr) ∧ ¬ StreamMeansRelay w tr) ∧
    ∃ w tr, handoffs.Runs Started (fun _ mv => ∀ t, mv = .start t → t.Fresh) w tr ∧
      handoffs.play (fun _ => startsFresh) speltTwice host [] = some (w, tr) ∧ ¬ StreamMeansRelay w tr := by
  have hruns : ∀ moves w tr, handoffs.play (fun _ => startsFresh) moves host [] = some (w, tr) →
      handoffs.Runs Started (fun _ mv => ∀ t, mv = .start t → t.Fresh) w tr := fun moves w tr hplay =>
    Stages.Runs.play (fun _ _ => fresh_of_startsFresh) (.init host_started) hplay
  refine ⟨fun moves hmoves => ?_, ?_, ?_⟩
  · have hran : ∀ moves ∈ [relayGoes, rolledBack], (handoffs.play (fun _ => startsFresh) moves host []).any (fun r => strays r.1) = true := by
      decide
    obtain ⟨⟨w, tr⟩, hplay, hstrays⟩ := (Option.any_eq_true _ _).1 (hran moves hmoves)
    exact ⟨w, tr, hruns _ _ _ hplay, hplay, not_strays hstrays⟩
  · have hran : (handoffs.play (fun _ => startsFresh) lateCleanUp host []).any (fun r => Quiet r.1 1 ∧ r.1.shared.modeOf 1 = some "terminal" ∧
        .handoff "7wdrqe" streamRequest (.ended (.streaming 3)) ∈ r.1.threads ∧ r.1.threads[3]? = some (.relay "7wdrqe" false .connected)) =
          true := by decide
    obtain ⟨⟨w, tr⟩, hplay, hdone⟩ := (Option.any_eq_true _ _).1 hran
    obtain ⟨hquiet, hmode, hended, hconnected⟩ := of_decide_eq_true hdone
    refine ⟨w, tr, hruns _ _ _ hplay, hplay, fun hpromise => ?_⟩
    have hstream := hpromise.kept 1 hquiet 3 _ _ _ _ hended (by decide) hconnected
    exact absurd (hmode.symm.trans hstream) (by decide)
  · have hran : (handoffs.play (fun _ => startsFresh) speltTwice host []).any (fun r =>
        r.1.threads[0]? = some (.handoff "7wdrqe" streamRequest (.toStream ⟨"terminal", ""⟩)) ∧
        r.1.threads[1]? = some (.handoff "7WDRQE" streamRequest (.toStream ⟨"terminal", ""⟩))) = true := by decide
    obtain ⟨⟨w, tr⟩, hplay, hdone⟩ := (Option.any_eq_true _ _).1 hran
    obtain ⟨hzero, hone⟩ := of_decide_eq_true hdone
    refine ⟨w, tr, hruns _ _ _ hplay, hplay, fun hpromise => ?_⟩
    exact absurd (hpromise.one 0 1 _ _ 1 hzero hone rfl rfl (by decide) (by decide)) (by decide)

end Purdex.Stream
