/-
One request after another: a server that runs each request's program to its end against the state
the last one left, and what holds over whole runs of it.
-/
import Purdex.Conc.Prog

namespace Conc

/-! ## A program run to its end -/

section Trail

variable {I : Iface} {α σ : Type} (exec : (o : I.Op) → σ → I.Res o × σ)

/-- The operations of the run, newest first, each with its answer. -/
def Prog.trail : Prog I α → σ → Hist I
  | .pure _, _ => []
  | .op o k, s => (k (exec o s).1).trail (exec o s).2 ++ [⟨o, (exec o s).1⟩]

variable {exec} {S : Spec I} {K : σ → Prop}

/-- A program that keeps its side of a specification, in states that keep theirs. -/
theorem eval_of_wp (hans : ∀ o s, K s → S.ans o (exec o s).1) (hkeep : ∀ h o s, S.ok h o → K s → K (exec o s).2) :
    ∀ {p : Prog I α} {Q : Hist I → α → Prop} {h : Hist I} {s : σ}, wp S p Q h → K s →
      Q (p.trail exec s ++ h) (p.eval exec s).1 ∧ K (p.eval exec s).2 ∧
        ∀ ev ∈ p.trail exec s, S.ans ev.op ev.res ∧ ∃ h', S.ok h' ev.op
  | .pure _, _, _, _, hp, hs => ⟨hp, hs, by simp [Prog.trail]⟩
  | .op o k, Q, h, s, ⟨ho, hk⟩, hs => by
    have hr : S.ans o (exec o s).1 := hans o s hs
    obtain ⟨hQ, hK, htrail⟩ := eval_of_wp hans hkeep (hk _ hr) (hkeep h o s ho hs)
    refine ⟨?_, hK, fun ev hev => ?_⟩
    · rw [Prog.trail, List.append_assoc]
      exact hQ
    · rcases List.mem_append.1 hev with hev | hev
      · exact htrail ev hev
      · obtain rfl := List.mem_singleton.1 hev
        exact ⟨hr, h, ho⟩

end Trail

/-! ## Requests in a row -/

/-- A request that was served, in which state, and what it was answered. -/
structure Served (σ κ ρ : Type) where
  request : κ
  pre : σ
  reply : ρ

section Serves

variable {σ κ ρ : Type} (serve : κ → σ → ρ × σ)

/-- The states a server gets to from an initial one by requests that `ok` allows, each with what was
served on the way, newest first. -/
inductive Serves (Init : σ → Prop) (ok : σ → κ → Prop) : σ → List (Served σ κ ρ) → Prop where
  | init {s : σ} : Init s → Serves Init ok s []
  | step {s : σ} {t : List (Served σ κ ρ)} {k : κ} : Serves Init ok s t → ok s k →
      Serves Init ok (serve k s).2 (⟨k, s, (serve k s).1⟩ :: t)

/-- Serve a list of requests. -/
def serveAll : List κ → σ → List (Served σ κ ρ) → σ × List (Served σ κ ρ)
  | [], s, t => (s, t)
  | k :: ks, s, t => serveAll ks (serve k s).2 (⟨k, s, (serve k s).1⟩ :: t)

/-- Every request of the list is allowed when its turn comes. -/
def AllOk (ok : σ → κ → Prop) : List κ → σ → Prop
  | [], _ => True
  | k :: ks, s => ok s k ∧ AllOk ok ks (serve k s).2

instance decidableAllOk (ok : σ → κ → Prop) [∀ s k, Decidable (ok s k)] : ∀ ks s, Decidable (AllOk serve ok ks s)
  | [], _ => inferInstanceAs (Decidable True)
  | k :: ks, s =>
    have := decidableAllOk ok ks (serve k s).2
    inferInstanceAs (Decidable (ok s k ∧ AllOk serve ok ks (serve k s).2))

theorem allOk_true : ∀ (ks : List κ) (s : σ), AllOk serve (fun _ _ => True) ks s
  | [], _ => trivial
  | _ :: ks, _ => ⟨trivial, allOk_true ks _⟩

variable {serve}

/-- The induction rule: what holds at the start and is kept by every allowed request holds now and when each of them came. -/
theorem Serves.invariant {Init : σ → Prop} {ok : σ → κ → Prop} {P : σ → Prop} (h0 : ∀ s, Init s → P s)
    (hs : ∀ s k, P s → ok s k → P (serve k s).2) {s : σ} {t : List (Served σ κ ρ)} (h : Serves serve Init ok s t) :
    P s ∧ ∀ e ∈ t, P e.pre ∧ ok e.pre e.request ∧ e.reply = (serve e.request e.pre).1 := by
  induction h with
  | init hinit => exact ⟨h0 _ hinit, by simp⟩
  | step _ hok ih => exact ⟨hs _ _ ih.1 hok, List.forall_mem_cons.2 ⟨⟨ih.1, hok, rfl⟩, ih.2⟩⟩

theorem Serves.all {Init : σ → Prop} {ok : σ → κ → Prop} {ks : List κ} {s : σ} {t : List (Served σ κ ρ)}
    (h : Serves serve Init ok s t) (hks : AllOk serve ok ks s) :
    Serves serve Init ok (serveAll serve ks s t).1 (serveAll serve ks s t).2 := by
  induction ks generalizing s t with
  | nil => exact h
  | cons k ks ih => exact ih (h.step hks.1) hks.2

/-- What holds of every request when its turn comes holds of all that were served. -/
theorem AllOk.served {ok : σ → κ → Prop} {ks : List κ} {s : σ} {t : List (Served σ κ ρ)} (hks : AllOk serve ok ks s)
    (ht : ∀ e ∈ t, ok e.pre e.request) : ∀ e ∈ (serveAll serve ks s t).2, ok e.pre e.request := by
  induction ks generalizing s t with
  | nil => exact ht
  | cons k ks ih => exact ih hks.2 (List.forall_mem_cons.2 ⟨hks.1, ht⟩)

end Serves

end Conc
