/-
When the socket directory of a broker goes only with nobody left to use it: the cleanup asks the socket verifier, and
takes an answer that failed for a free socket.
-/
import Purdex.Broker.KillSafety

namespace Purdex.Broker

open Conc

/-! ## What is known at a removal -/

/-- The broker was asked to stop. -/
def Asked : Event iface → Prop
  | ⟨.signal _ _, _⟩ => True
  | ⟨.dialShutdown _, _⟩ => True
  | _ => False

/-- A listing showed the broker gone, and it was not asked to stop again since. -/
def GoneSince (record : BrokerRecord) (h : History) : Prop := Since (ShowsGone record) Asked h

/-- Nobody can be using the socket directory: its broker is gone, or the verifier found nobody. -/
def Unused (record : BrokerRecord) (h : History) : Prop :=
  GoneSince record h ∨ (⟨.holdsSocket record.socketDir, some false⟩ : Event iface) ∈ h

/-- What a removal needs to be safe: its broker is gone, or the verifier came to an answer. -/
def Verified (record : BrokerRecord) (h : History) : Prop :=
  GoneSince record h ∨ ∃ held, (⟨.holdsSocket record.socketDir, some held⟩ : Event iface) ∈ h

/-! ## The steps before the cleanup -/

/-- Operations that neither look at the socket nor remove anything. -/
def BeforeCleanup : Op → Prop
  | .holdsSocket _ | .removeAll _ => False
  | _ => True

section Only

variable (ks : KillSequence)

theorem verifyIdentity_before : (verifyIdentity ks.record ks.lister).Only BeforeCleanup := by
  unfold verifyIdentity
  split
  · trivial
  · exact only_bind (only_call trivial) fun _ => trivial

theorem processGone_before : (processGone ks).Only BeforeCleanup := by
  unfold processGone
  split
  · trivial
  · exact only_bind (only_call trivial) fun _ => trivial

theorem pollGone_before : ∀ n, (pollGone ks n).Only BeforeCleanup
  | 0 => processGone_before ks
  | n + 1 => by
    refine only_bind (processGone_before ks) fun gone => ?_
    split
    · trivial
    · exact pollGone_before n

theorem waitForExit_before (budget : Int) : (waitForExit ks budget).Only BeforeCleanup :=
  only_bind (only_call trivial) (pollGone_before ks)

theorem stepGraceful_before : (stepGraceful ks).Only BeforeCleanup := by
  unfold stepGraceful
  split
  · trivial
  · split
    · trivial
    · exact only_bind (only_call trivial) fun _ => waitForExit_before ks _

theorem signalAndWait_before (sig : Signal) (budget : Int) : (signalAndWait ks sig budget).Only BeforeCleanup := by
  unfold signalAndWait
  split
  · trivial
  · refine only_bind (verifyIdentity_before ks) fun (ok, detail) => ?_
    cases ok with
    | false => trivial
    | true =>
      refine only_bind (only_call trivial) fun answer => ?_
      cases answer with
      | none => trivial
      | some pgid =>
        dsimp only
        split
        · trivial
        · refine only_bind (only_call trivial) fun sent => ?_
          split
          · exact only_bind (waitForExit_before ks budget) fun _ => trivial
          · trivial

theorem signals_before : (signals ks).Only BeforeCleanup := by
  refine only_bind (signalAndWait_before ks _ _) fun term => ?_
  split
  · trivial
  · trivial
  · refine only_bind (signalAndWait_before ks _ _) fun kill => ?_
    split <;> trivial

theorem stepVerifyGone_before : (stepVerifyGone ks).Only BeforeCleanup := by
  unfold stepVerifyGone
  split
  · exact only_bind (only_call trivial) fun _ => trivial
  · trivial

end Only

/-! ## The cleanup -/

section Cleanup

variable {ks : KillSequence} {decision : DecisionResult} {h : History}

/-- A removal follows no answer that the socket is held. -/
def CleanupGuard (ks : KillSequence) (h : History) : Op → Prop
  | .removeAll _ => ∀ held, (⟨.holdsSocket ks.record.socketDir, some held⟩ : Event iface) ∈ h → held = false
  | _ => True

/-- Nothing was asked of the socket yet. -/
def Unasked (h : History) : Prop := ∀ ev ∈ h, BeforeCleanup ev.op

theorem before_allowed (h : History) (o : Op) (_ : Unasked h) (ho : BeforeCleanup o) : CleanupGuard ks h o := by
  cases o <;> first | exact ho.elim | trivial

theorem before_keeps (h : History) (o : Op) (r : o.Res) (hj : Unasked h) (ho : BeforeCleanup o) : Unasked (⟨o, r⟩ :: h) :=
  List.forall_mem_cons.2 ⟨ho, hj⟩

/-- A step before the cleanup leaves the socket unasked. -/
theorem wp_before {α : Type} {p : Code α} (hp : p.Only BeforeCleanup) (hj : Unasked h) :
    wp (anyAnswer (CleanupGuard ks)) p (fun h' _ => Unasked h') h :=
  wp_of_only_keeps before_allowed before_keeps hp hj fun _ _ hj' => hj'

theorem stepCleanup_guarded (verifier : Bool) (hj : Unasked h) :
    wp (anyAnswer (CleanupGuard ks)) (stepCleanup ks verifier) (fun _ _ => True) h := by
  have hnone : ∀ held, (⟨.holdsSocket ks.record.socketDir, some held⟩ : Event iface) ∉ h := fun held hmem => hj _ hmem
  unfold stepCleanup
  split
  · trivial
  · unfold socketHeld
    cases verifier with
    | false => exact ⟨fun held hmem => absurd hmem (hnone held), fun _ _ => trivial⟩
    | true =>
      refine ⟨trivial, fun (answer : Option Bool) _ => ?_⟩
      have hfree : answer ≠ some true → CleanupGuard ks (⟨.holdsSocket ks.record.socketDir, answer⟩ :: h)
          (.removeAll ks.record.socketDir) := by
        intro hne held hmem
        rcases List.mem_cons.1 hmem with heq | hmem
        · cases heq
          simpa using hne
        · exact absurd hmem (hnone held)
      rcases answer with _ | _ | _
      · exact ⟨hfree (by decide), fun _ _ => trivial⟩
      · exact ⟨hfree (by decide), fun _ _ => trivial⟩
      · trivial

theorem finish_guarded (verifier : Bool) (path : String) (res : KillResult) (hj : Unasked h) :
    wp (anyAnswer (CleanupGuard ks)) (finish ks verifier path res) (fun _ _ => True) h := by
  refine wp_seq (wp_before (stepVerifyGone_before ks) hj) fun h₁ _ _ hj₁ => ?_
  refine wp_seq (stepCleanup_guarded verifier hj₁) fun h₂ _ _ _ => ?_
  exact ⟨trivial, fun _ _ => trivial⟩

theorem run_guarded (verifier : Bool) :
    wp (anyAnswer (CleanupGuard ks)) (ks.run decision verifier) (fun _ _ => True) [] := by
  unfold KillSequence.run
  refine wp_seq (wp_before (verifyIdentity_before ks) (by simp [Unasked])) fun h₁ (ok, detail) _ hj₁ => ?_
  cases ok with
  | false => trivial
  | true =>
    refine wp_call_seq trivial fun (written : Except String String) _ => ?_
    have hj₂ : Unasked (⟨.writePreimage ks.record decision, written⟩ :: h₁) := before_keeps _ _ _ hj₁ trivial
    cases written with
    | error err => trivial
    | ok path =>
      refine wp_seq (wp_before (stepGraceful_before ks) hj₂) fun h₃ gone _ hj₃ => ?_
      split
      · exact finish_guarded verifier _ _ hj₃
      · refine wp_seq (wp_before (signals_before ks) hj₃) fun h₄ res _ hj₄ => ?_
        cases res with
        | error e => trivial
        | ok res => exact finish_guarded verifier _ _ hj₄

end Cleanup

/-! ## Every run -/

/-- A worker that survives both signals, and a verifier that fails. -/
def survivor : World := ⟨[⟨10, 5, "app-server-broker.mjs"⟩], fun _ => some 10, []⟩

def failedVerifier : (o : Op) → History → o.Res
  | .holdsSocket _, _ => none
  | o, h => survivor.answer o h

abbrev survivorRun : History × Except KillError KillResult :=
  runWith (I := iface) failedVerifier ((sampleKill 5).run sampleDecision true) []

abbrev gracefulRun : History × Except KillError KillResult :=
  runWith (I := iface) survivor.answer ((sampleKill 5).run sampleDecision true) []

end Purdex.Broker
