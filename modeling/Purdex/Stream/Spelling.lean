/-
One session under several codes: letters of a code are read in either case, while the locks and the relays are kept by the code as it
came.
-/
import Purdex.Stream.HandoffRuns
import Purdex.Text.Shell
import Mathlib

namespace Purdex.Stream

open Conc
open Purdex.Session (decodeSessionID digit36)

/-! ## The relay of a handoff -/

/-- What follows the code in `relayCmd`. -/
def relayArgs (bind : String) (port : Nat) (tokenFile command ccSessionID : String) : String :=
  "--daemon ws://" ++ bind ++ ":" ++ toString port ++ " --token-file " ++ tokenFile ++ " -- " ++ command ++ " --resume " ++ ccSessionID

/-- What a handoff types into the pane. -/
def relayCommand (code args : String) : String := "pdx relay --session " ++ code ++ " " ++ args

/-- Where the relay of a session connects to. -/
def relayPath (session : String) : String := "/ws/cli-bridge/" ++ session

/-- What a character can do in a path besides being there. -/
def pathSpecial : List Char := ['/', '%', '?', '#']

/-- `PathValue("code")`, where the code is a segment that stands for itself. -/
def pathCode (path : String) : Option String :=
  (path.toList.dropPrefix? "/ws/cli-bridge/".toList).bind fun rest => if rest.any (· ∈ pathSpecial) then none else some (String.ofList rest)

/-! ## Runs -/

/-- Every request begins at its beginning. -/
def Begun (_ : Hosting) (mv : HostMove) : Prop := ∀ t, mv = .start t → t.Fresh

/-- The requests for one session all spell its code alike. -/
structure Spelt (w : Hosting) (mv : HostMove) : Prop where
  fresh : ∀ t, mv = .start t → t.Fresh
  alike : ∀ t, mv = .start t → SpeltAlike w.threads t

/-- While a handoff of one code is in progress, one of the other is refused; while a relay is registered under one, none is under the other. -/
structure AsOne (w : Hosting) (code code' : String) : Prop where
  lock : (∃ t ∈ w.threads, t.holds = some code) → ∀ i luck body sess at' s',
    handleHandoff i luck code' body (.found sess) w.shared = some (at', s') → (∃ status text, at' = .refused status text) ∧ s' = w.shared
  relay : (∃ t ∈ w.threads, t.entered = some code) → ∀ i luck at' s',
    handleCliBridge i luck code' .upgraded w.shared = some (at', s') → (∃ status text, at' = .refused status text) ∧ s' = w.shared

/-- All of the codes of a session that are in use are treated as one, and there is one handoff and one relay of it. -/
structure OneSession (w : Hosting) : Prop where
  asOne : ∀ t ∈ w.threads, ∀ u ∈ w.threads, ∀ id, t.session = some id → u.session = some id → AsOne w t.code u.code
  handoff : ∀ (i j : Nat) t u id, w.threads[i]? = some t → w.threads[j]? = some u → t.session = some id → u.session = some id →
    t.phase.running = true → u.phase.running = true → i = j
  relay : ∀ (i j : Nat) t u id, w.threads[i]? = some t → w.threads[j]? = some u → t.session = some id → u.session = some id →
    t.phase = .registered → u.phase = .registered → i = j

section Registered

variable {w : Hosting} {tr : HostTrace} {ok : Hosting → HostMove → Prop} {code code' : String}

/-- Locks and relays are those of the requests, in any run. -/
theorem tracks_of_runs (hfresh : ∀ w mv, ok w mv → Begun w mv) (hr : handoffs.Runs Started ok w tr) :
    Tracks w.shared.relays w.threads Handler.entered ∧ Tracks w.shared.locks w.threads Handler.holds := by
  refine hr.invariant (P := fun w _ => Tracks w.shared.relays w.threads Handler.entered ∧ Tracks w.shared.locks w.threads Handler.holds)
    (fun w h => ?_) fun w w' _ mv _ ih hok hst => ?_
  · have hno : ∀ (k : Nat) u, w.threads[k]? ≠ some u := by simp [h.threads]
    refine ⟨fun code j => ?_, fun code j => ?_⟩
    · rw [h.relays code]
      exact iff_of_false nofun fun ⟨u, hu, _⟩ => hno j u hu
    · rw [h.locks code]
      exact iff_of_false nofun fun ⟨u, hu, _⟩ => hno j u hu
  · obtain ⟨hrelays, hlocks⟩ := ih
    rcases Stages.step_cases hst with ⟨t, rfl, rfl⟩ | ⟨i, luck, t, t', s', rfl, hget, hact, rfl⟩ | ⟨o, -⟩
    · have ht := fresh_phase (hfresh _ _ hok t rfl)
      exact ⟨hrelays.append (if_neg (by rw [ht]; nofun)), hlocks.append (if_neg (by rw [ht]; nofun))⟩
    · have hturn := turned_of_serve hact
      have hcode := code_of_serve hact
      exact ⟨hturn.tracks_relays hcode hget hrelays, hturn.tracks_locks hcode hget hlocks⟩
    · exact o.elim

/-- What is asked for under the code of a handoff in progress is refused, and so is a relay under that of a registered one. -/
theorem asOne_of_eq (hrelays : Tracks w.shared.relays w.threads Handler.entered) (hlocks : Tracks w.shared.locks w.threads Handler.holds)
    (heq : code = code') : AsOne w code code' := by
  subst heq
  refine ⟨?_, ?_⟩
  · rintro ⟨t, ht, hholds⟩ i luck body sess at' s' h
    obtain ⟨k, hk⟩ := List.getElem?_of_mem ht
    have hlocked : (w.shared.locks code).isSome = true := by rw [hlocks.of_get hk hholds]; rfl
    unfold handleHandoff at h
    dsimp only at h
    split at h
    · obtain ⟨rfl, rfl⟩ := Prod.mk.inj (Option.some.inj h)
      exact ⟨⟨_, _, rfl⟩, rfl⟩
    · rw [if_pos hlocked] at h
      split_ifs at h
      all_goals
        obtain ⟨rfl, rfl⟩ := Prod.mk.inj (Option.some.inj h)
        exact ⟨⟨_, _, rfl⟩, rfl⟩
  · rintro ⟨t, ht, hentered⟩ i luck at' s' h
    obtain ⟨k, hk⟩ := List.getElem?_of_mem ht
    have hregistered : w.shared.hasRelay code = true := by rw [Serving.hasRelay, hrelays.of_get hk hentered]; rfl
    unfold handleCliBridge at h
    dsimp only at h
    rw [if_pos hregistered] at h
    obtain ⟨rfl, rfl⟩ := Prod.mk.inj (Option.some.inj h)
    exact ⟨⟨_, _, rfl⟩, rfl⟩

theorem spelt_of_runs (hr : handoffs.Runs Started Spelt w tr) :
    ∀ t ∈ w.threads, ∀ u ∈ w.threads, ∀ id, t.session = some id → u.session = some id → t.code = u.code := by
  refine hr.invariant (P := fun w _ => ∀ t ∈ w.threads, ∀ u ∈ w.threads, ∀ id, t.session = some id → u.session = some id → t.code = u.code)
    (fun w h => ?_) fun w w' _ mv _ ih hok hst => ?_
  · rw [h.threads]
    exact fun _ ht => absurd ht List.not_mem_nil
  · rcases Stages.step_cases hst with ⟨t, rfl, rfl⟩ | ⟨i, luck, t, t', s', rfl, hget, hact, rfl⟩ | ⟨o, -⟩
    · have halike := hok.alike t rfl
      intro x hx y hy id hxs hys
      rcases List.mem_append.1 hx with hx | hx <;> rcases List.mem_append.1 hy with hy | hy
      · exact ih x hx y hy id hxs hys
      · rw [List.mem_singleton.1 hy] at hys ⊢
        exact halike x hx id hys hxs
      · rw [List.mem_singleton.1 hx] at hxs ⊢
        exact (halike y hy id hxs hys).symm
      · rw [List.mem_singleton.1 hx, List.mem_singleton.1 hy]
    · have hcodes : ∀ u ∈ w.threads.set i t', ∃ v ∈ w.threads, v.code = u.code := forall_mem_set (fun u hu => ⟨u, hu, rfl⟩)
        ⟨t, List.mem_of_getElem? hget, (code_of_serve hact).symm⟩
      intro x hx y hy id hxs hys
      obtain ⟨x', hx', hxc⟩ := hcodes x hx
      obtain ⟨y', hy', hyc⟩ := hcodes y hy
      rw [← hxc, ← hyc]
      exact ih x' hx' y' hy' id ((session_of_code hxc).trans hxs) ((session_of_code hyc).trans hys)
    · exact o.elim

theorem oneSession_of_runs (hr : handoffs.Runs Started Spelt w tr) : OneSession w := by
  obtain ⟨hrelays, hlocks⟩ := tracks_of_runs (fun _ _ hok => hok.fresh) hr
  have hspelt := spelt_of_runs hr
  refine ⟨fun t ht u hu id hts hus => asOne_of_eq hrelays hlocks (hspelt t ht u hu id hts hus),
    fun i j t u id hi hj hts hus ht hu => ?_, fun i j t u id hi hj hts hus ht hu => ?_⟩
  all_goals have hcode := hspelt t (List.mem_of_getElem? hi) u (List.mem_of_getElem? hj) id hts hus
  · exact hlocks.unique hi hj (if_pos ht) ((if_pos hu).trans (congrArg some hcode.symm))
  · exact hrelays.unique hi hj (if_pos ht) ((if_pos hu).trans (congrArg some hcode.symm))

end Registered

/-! ## Two codes -/

section Split

variable {code code' : String} {id : Nat}

def nobody : Serving := ⟨fun _ => none, fun _ => none, fun _ => none, []⟩

/-- tmux lists the session, and nothing fails. -/
def listed : Luck := ⟨none, false, false, true, [], ("", ""), none⟩

/-- A handoff of the one code has taken its lock. -/
theorem taken_of_runs (h : decodeSessionID code = some id) : ∃ tr, handoffs.Runs Started Begun
    ⟨{ nobody with locks := Function.update nobody.locks code (some 0) }, [.handoff code (some ⟨"terminal", ""⟩) (.toTerm ⟨"terminal", ""⟩)]⟩ tr := by
  have hfound : nobody.getSession listed code = (some ⟨"terminal", ""⟩, nobody) := by
    unfold Serving.getSession
    rw [h]
    rfl
  have hinit : Started ⟨nobody, []⟩ := ⟨rfl, nofun, fun _ => rfl, fun _ => rfl⟩
  have hstart : handoffs.step (.start (.handoff code (some ⟨"terminal", ""⟩) .start)) ⟨nobody, []⟩ =
      some ⟨nobody, [.handoff code (some ⟨"terminal", ""⟩) .start]⟩ := rfl
  have hlook : handoffs.step (.turn 0 listed) ⟨nobody, [.handoff code (some ⟨"terminal", ""⟩) .start]⟩ =
      some ⟨nobody, [.handoff code (some ⟨"terminal", ""⟩) (.found ⟨"terminal", ""⟩)]⟩ := by
    refine Stages.step_turn rfl ?_
    change Option.map _ (Option.or (handleHandoff 0 listed code _ .start nobody) _) = _
    rw [handleHandoff, hfound]
    rfl
  have htake : handoffs.step (.turn 0 listed) ⟨nobody, [.handoff code (some ⟨"terminal", ""⟩) (.found ⟨"terminal", ""⟩)]⟩ =
      some ⟨{ nobody with locks := Function.update nobody.locks code (some 0) },
        [.handoff code (some ⟨"terminal", ""⟩) (.toTerm ⟨"terminal", ""⟩)]⟩ := Stages.step_turn rfl rfl
  have hfresh : Begun ⟨nobody, []⟩ (.start (.handoff code (some ⟨"terminal", ""⟩) .start)) := by
    rintro _ ⟨⟩
    rfl
  have hturn : ∀ w, Begun w (.turn 0 listed) := fun _ _ h => nomatch h
  exact ⟨_, .step (.step (.step (.init hinit) hfresh hstart) (hturn _) hlook) (hturn _) htake⟩

/-- Under another code a second handoff takes a lock of its own. -/
theorem eq_of_asOne (h : decodeSessionID code = some id) (hone : ∀ w tr, handoffs.Runs Started Begun w tr → AsOne w code code') : code = code' := by
  by_contra hne
  obtain ⟨tr, hr⟩ := taken_of_runs h
  have hrefused := (hone _ tr hr).lock ⟨_, List.mem_singleton_self _, rfl⟩ 1 listed (some ⟨"terminal", ""⟩) ⟨"terminal", ""⟩
  have hfree : Function.update nobody.locks code (some 0) code' = none := Function.update_of_ne (Ne.symm hne) _ _
  obtain ⟨⟨_, _, heq⟩, -⟩ := hrefused (.toTerm ⟨"terminal", ""⟩) _ (by simp [handleHandoff, hfree]; rfl)
  cases heq

end Split

/-! ## What a code is made of -/

theorem isSome_of_mapM {α β : Type} {f : α → Option β} {l : List α} {r : List β} (h : l.mapM f = some r) : ∀ a ∈ l, (f a).isSome = true := by
  induction l generalizing r with
  | nil => exact fun _ ha => absurd ha List.not_mem_nil
  | cons a l ih =>
    rw [List.mapM_cons] at h
    obtain ⟨b, hb, h⟩ := Option.bind_eq_some_iff.1 h
    obtain ⟨bs, hbs, -⟩ := Option.bind_eq_some_iff.1 h
    exact List.forall_mem_cons.2 ⟨by rw [hb]; rfl, ih hbs⟩

/-- A code that is accepted is letters and digits. -/
theorem alphanum_of_decode {code : String} {id : Nat} (h : decodeSessionID code = some id) : code ≠ "" ∧ ∀ c ∈ code.toList, c.isAlphanum = true := by
  unfold decodeSessionID at h
  split at h
  · cases h
  · rename_i hsize
    obtain ⟨digits, hdigits, -⟩ := Option.map_eq_some_iff.1 h
    refine ⟨?_, fun c hc => ?_⟩
    · rintro rfl
      exact hsize (by decide)
    · have hdigit := isSome_of_mapM hdigits c hc
      unfold digit36 at hdigit
      simp only [Char.isAlphanum, Char.isAlpha, Bool.or_eq_true]
      split at hdigit
      · exact .inr ‹_›
      · split at hdigit
        · exact .inl (.inr ‹_›)
        · split at hdigit
          · exact .inl (.inl ‹_›)
          · cases hdigit

/-- A code has none of the characters that mean something of their own. -/
theorem not_mem_of_decode {code : String} {id : Nat} (h : decodeSessionID code = some id) {meaning : List Char}
    (hmeaning : meaning.all (fun c => !c.isAlphanum) = true) {c : Char} (hc : c ∈ code.toList) : c ∉ meaning := fun hmem => by
  have hnot := List.all_eq_true.1 hmeaning c hmem
  rw [(alphanum_of_decode h).2 c hc] at hnot
  cases hnot

/-- The relay of a session is registered under the code that it was given. -/
theorem pathCode_relayPath {code : String} {id : Nat} (h : decodeSessionID code = some id) : pathCode (relayPath code) = some code := by
  have hdrop : (relayPath code).toList.dropPrefix? "/ws/cli-bridge/".toList = some code.toList := by
    have hlist : (relayPath code).toList = "/ws/cli-bridge/".toList ++ code.toList := String.toList_append
    rw [hlist]
    exact List.dropPrefix?_eq_some_iff.2 ⟨_, rfl, beq_self_eq_true _⟩
  have hplain : code.toList.any (· ∈ pathSpecial) = false := by
    rw [List.any_eq_false]
    exact fun c hc hmem => not_mem_of_decode h (by decide) hc (of_decide_eq_true hmem)
  rw [pathCode, hdrop, Option.bind_some, hplain, if_neg Bool.false_ne_true, String.ofList_toList]

theorem toList_relayCommand (code args : String) : (relayCommand code args).toList =
    "pdx".toList ++ ' ' :: ("relay".toList ++ ' ' :: ("--session".toList ++ ' ' :: (code.toList ++ ' ' :: args.toList))) := by
  have hfront : "pdx relay --session ".toList = "pdx".toList ++ ' ' :: ("relay".toList ++ ' ' :: ("--session".toList ++ [' '])) := rfl
  unfold relayCommand
  rw [String.toList_append, String.toList_append, String.toList_append, hfront]
  simp only [List.append_assoc, List.cons_append, List.nil_append]
  rfl

/-- The shell gives the relay the code of the handoff, whatever comes behind it. -/
theorem words_relayCommand {code : String} {id : Nat} (h : decodeSessionID code = some id) (args : String) :
    Shell.words (relayCommand code args) = Shell.scan ["pdx", "relay", "--session", code] args.toList := by
  have hcode : Shell.Reads code.toList code := by
    refine Shell.reads_plain (alphanum_of_decode h).1 (List.all_eq_true.2 fun c hc => decide_eq_true ?_)
    exact not_mem_of_decode h (by decide) hc
  have hpdx : Shell.Reads "pdx".toList "pdx" := Shell.reads_plain (by decide) (by decide)
  have hrelay : Shell.Reads "relay".toList "relay" := Shell.reads_plain (by decide) (by decide)
  have hflag : Shell.Reads "--session".toList "--session" := Shell.reads_plain (by decide) (by decide)
  rw [Shell.words, toList_relayCommand, Shell.scan_cons hpdx, Shell.scan_cons hrelay, Shell.scan_cons hflag, Shell.scan_cons hcode]
  rfl

/-! ## One session -/

/-- The structures that are kept by code treat two codes of one session as one exactly where they are the same; a session whose code is
always spelled alike has one handoff and one relay at a time; and the relay of a handoff is registered under the code that is waited for. -/
theorem codes_as_one (code code' : String) (id : Nat) : decodeSessionID code = some id → decodeSessionID code' = some id →
    ((∀ w tr, handoffs.Runs Started Begun w tr → AsOne w code code') ↔ code = code') ∧
      (∀ w tr, handoffs.Runs Started Spelt w tr → OneSession w) ∧ pathCode (relayPath code) = some code ∧
      ∀ bind port tokenFile command ccSessionID, Shell.words (relayCommand code (relayArgs bind port tokenFile command ccSessionID)) =
        Shell.scan ["pdx", "relay", "--session", code] (relayArgs bind port tokenFile command ccSessionID).toList := by
  intro h _
  refine ⟨⟨eq_of_asOne h, fun heq w tr hr => ?_⟩, fun w tr => oneSession_of_runs, pathCode_relayPath h, fun _ _ _ _ _ => words_relayCommand h _⟩
  obtain ⟨hrelays, hlocks⟩ := tracks_of_runs (fun _ _ hok => hok) hr
  exact asOne_of_eq hrelays hlocks heq

theorem codes_as_one_alike : decodeSessionID "grnhi7" = some 0 ∧ ∀ w tr, handoffs.Runs Started Begun w tr → AsOne w "grnhi7" "grnhi7" := by
  have hcode : decodeSessionID "grnhi7" = some 0 := by decide
  exact ⟨hcode, (codes_as_one "grnhi7" "grnhi7" 0 hcode hcode).1.2 rfl⟩

/-- Two handoffs of the session `$0` at a time. -/
theorem two_handoffs_at_once : ¬∀ code code' id, decodeSessionID code = some id → decodeSessionID code' = some id →
    ∀ w tr, handoffs.Runs Started Begun w tr → AsOne w code code' := by
  intro h
  have hcode : decodeSessionID "grnhi7" = some 0 := by decide
  have hcode' : decodeSessionID "GRNHI7" = some 0 := by decide
  exact absurd (eq_of_asOne hcode (h "grnhi7" "GRNHI7" 0 hcode hcode')) (by decide)

end Purdex.Stream
