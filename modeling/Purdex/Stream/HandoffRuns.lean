/-
Where the mode that is stored follows the relay. Over runs in which no clean-up and no relay comes between a handoff's look
at the relay and what it writes.
-/
import Purdex.Stream.Phases

namespace Purdex.Stream

open Conc
open Purdex.Session (SessionMeta MetaUpdate decodeSessionID)

/-! ## The handlers of a session -/

/-- A relay that is registered, or one whose clean-up is to come. -/
def Phase.tended : Phase → Bool
  | .registered | .cleaning => true
  | _ => false

/-- A handler of the session is in such a phase. -/
def InPhase (ts : List Handler) (id : Nat) (p : Phase → Bool) : Prop := ∃ t ∈ ts, t.session = some id ∧ p t.phase = true

/-- A handoff to the stream was reported, and the relay it saw is registered still. -/
def Live (ts : List Handler) (id : Nat) : Prop :=
  ∃ t ∈ ts, t.session = some id ∧ ∃ j ∈ t.phase.reported, ∃ u ∈ ts[j]?, u.phase = .registered

instance (ts : List Handler) (id : Nat) (p : Phase → Bool) : Decidable (InPhase ts id p) := inferInstanceAs (Decidable (∃ t ∈ ts, _))

instance (ts : List Handler) (id : Nat) : Decidable (Live ts id) := inferInstanceAs (Decidable (∃ t ∈ ts, _))

def isCleaning (p : Phase) : Bool := p = .cleaning

def isDirty (p : Phase) : Bool := p = .dirty

/-! ## In order -/

/-- A turn that what is stored and what is connected agree with: "stream" is written while the relay that was seen is registered
and no clean-up is to come; it is not written, and not left, where no relay is; and nothing else is put in its place while a
relay that was reported is there. -/
def TurnOk (w : Hosting) (i : Nat) (luck : Luck) (t : Handler) : Prop :=
  ∀ id ∈ t.session, match t with
  | .handoff code _ (.joined j _ _) => luck.err = none →
      if w.shared.relays code = some j then ¬ InPhase w.threads id isCleaning ∧ (w.shared.modeOf id).isSome = true
      else (w.shared.modeOf id).isSome = true → InPhase w.threads id Phase.tended
  | .handoff code _ (.stopping true) => luck.late = true → (w.shared.relays code).isSome = true → ¬ Live w.threads id
  | .handoff _ _ (.rollingBack origMode _) =>
      (Live w.threads id → origMode = "stream" ∧ luck.err = none) ∧
        (origMode = "stream" → luck.err = none → (w.shared.modeOf id).isSome = true → InPhase w.threads id Phase.tended)
  | .handoff _ _ .start | .relay _ _ .start => luck.gone = true → luck.err = none → ¬ Live w.threads id
  | .relay _ _ .unregistered | .relay _ _ .reverting => luck.init = none → luck.err.isSome = true → w.shared.modeOf id = some "stream" →
      InPhase (w.threads.eraseIdx i) id Phase.tended
  | _ => True

/-- The requests for a session spell its code in one way. -/
def SpeltAlike (ts : List Handler) (t : Handler) : Prop := ∀ u ∈ ts, ∀ id ∈ t.session, u.session = some id → u.code = t.code

structure InOrder (w : Hosting) (mv : HostMove) : Prop where
  fresh : ∀ t, mv = .start t → t.Fresh
  spelt : ∀ t, mv = .start t → SpeltAlike w.threads t
  turn : ∀ i luck t, mv = .turn i luck → w.threads[i]? = some t → TurnOk w i luck t

/-! ## After a turn -/

section Set

variable {ts : List Handler} {i : Nat} {t t' : Handler} {id : Nat} {p : Phase → Bool}

theorem session_of_code (h : t'.code = t.code) : t'.session = t.session := congrArg decodeSessionID h

theorem InPhase.of_get (hget : ts[i]? = some t) (hsess : t.session = some id) (hp : p t.phase = true) : InPhase ts id p :=
  ⟨t, List.mem_of_getElem? hget, hsess, hp⟩

theorem InPhase.set (hget : ts[i]? = some t) (hcode : t'.code = t.code) (hp : p t.phase = true → p t'.phase = true)
    (h : InPhase ts id p) : InPhase (ts.set i t') id p := by
  obtain ⟨u, hu, hsess, hpu⟩ := h
  obtain ⟨k, hk⟩ := List.getElem?_of_mem hu
  by_cases hik : i = k
  · subst hik
    obtain rfl := Option.some.inj (hget.symm.trans hk)
    exact .of_get ((getElem?_set_of_some hget i).trans (if_pos rfl)) ((session_of_code hcode).trans hsess) (hp hpu)
  · exact .of_get ((getElem?_set_of_some hget k).trans ((if_neg hik).trans hk)) hsess hpu

/-- What another handler is in, it stays in. -/
theorem InPhase.set_of_other (hget : ts[i]? = some t) (h : InPhase (ts.eraseIdx i) id p) : InPhase (ts.set i t') id p := by
  obtain ⟨u, hu, hsess, hpu⟩ := h
  obtain ⟨k, hk, hku⟩ := List.mem_eraseIdx_iff_getElem?.1 hu
  exact .of_get ((getElem?_set_of_some hget k).trans ((if_neg (Ne.symm hk)).trans hku)) hsess hpu

end Set

/-! ## The invariant -/

/-- What comes after a look that found no relay. -/
def Phase.past (p : Phase) : Prop := p = .cleared ∨ ∃ j, p = .joined j

structure Inv (w : Hosting) : Prop where
  relays : Tracks w.shared.relays w.threads Handler.entered
  locks : Tracks w.shared.locks w.threads Handler.holds
  spelt : ∀ t ∈ w.threads, ∀ u ∈ w.threads, ∀ id, t.session = some id → u.session = some id → t.code = u.code
  /-- What a handoff saw was a relay of its session. -/
  seen : ∀ t ∈ w.threads, ∀ j, t.phase.seen = some j → ∃ u, w.threads[j]? = some u ∧ u.code = t.code ∧ u.phase.wasRelay = true
  sound : ∀ id, w.shared.modeOf id = some "stream" → InPhase w.threads id Phase.tended
  live : ∀ id, Live w.threads id → ¬ InPhase w.threads id isCleaning ∧ (w.shared.modeOf id).isSome = true ∧
    (¬ InPhase w.threads id isDirty → w.shared.modeOf id = some "stream")
  /-- A handoff that saw that there is no relay is the end of what was reported before it. -/
  past : ∀ (i : Nat) t, w.threads[i]? = some t → t.phase.past → ∀ id, t.session = some id → ¬ Live w.threads id

/-! ## What a turn keeps -/

section Turn

variable {ts : List Handler} {i j : Nat} {luck : Luck} {t t' u : Handler} {s s' : Serving} {id : Nat}

/-- A handler of a relay stays one. -/
theorem Turned.wasRelay (h : Turned i luck t s t' s') (ht : t.phase.wasRelay = true) : t'.phase.wasRelay = true := by
  cases h with
  | stays phase => rw [phase, ht]
  | unregisters _ after | cleans _ after => rw [after]; rfl
  | forgets _ _ phase | takes phase | marks phase | turnsBack phase | sees _ phase | unlocks _ phase | registers phase =>
    rw [phase] at ht
    cases ht
  | clears phase =>
    rcases phase with phase | phase <;> rw [phase] at ht <;> cases ht
  | fails phase =>
    rcases phase with phase | phase | ⟨j, phase⟩ <;> rw [phase] at ht <;> cases ht
  | givesUp _ _ before | rollsBack _ _ _ _ before | reports _ _ _ _ _ before =>
    subst before
    cases ht

/-- The relay that a handoff sees is registered. -/
theorem Turned.seen (h : Turned i luck t s t' s') (hj : t'.phase.seen = some j) : t.phase.seen = some j ∨ s.relays t.code = some j := by
  cases h with
  | stays phase => exact .inl (phase ▸ hj)
  | sees j' _ after there =>
    rw [after] at hj
    exact .inr (there.trans hj)
  | reports code body j' ccSessionID cwd before after =>
    rw [after] at hj
    subst before
    exact .inl hj
  | unlocks r phase after =>
    rw [after] at hj
    rw [phase]
    exact .inl hj
  | forgets _ _ _ after | takes _ after | marks _ after | clears _ after | fails _ after | givesUp _ _ _ after | turnsBack _ after
  | rollsBack _ _ _ _ _ after | registers _ after | unregisters _ after | cleans _ after =>
    rw [after] at hj
    cases hj

/-- A relay is registered by its own handler, once. -/
theorem Turned.registered (h : Turned i luck t s t' s') (ht : t'.phase = .registered) : t.phase = .registered ∨ t.phase = .outside := by
  cases h with
  | stays phase => exact .inl (phase.symm.trans ht)
  | registers phase => exact .inr phase
  | forgets _ _ _ after | takes _ after | marks _ after | clears _ after | fails _ after | givesUp _ _ _ after | turnsBack _ after
  | rollsBack _ _ _ _ _ after | sees _ _ after | reports _ _ _ _ _ _ after | unlocks _ _ after | unregisters _ after | cleans _ after =>
    cases after.symm.trans ht

theorem Turned.reported (h : Turned i luck t s t' s') (hj : t'.phase.reported = some j) : t.phase.reported = some j ∨
    (∃ code body ccSessionID cwd, t = .handoff code body (.joined j ccSessionID cwd)) ∧ t'.phase = .done (some j) ∧ luck.err = none ∧
      Writes luck t "stream" s s' := by
  cases h with
  | stays phase => exact .inl (phase ▸ hj)
  | reports code body j' ccSessionID cwd before after ok modes =>
    rw [after] at hj
    obtain rfl := Option.some.inj hj
    exact .inr ⟨⟨code, body, ccSessionID, cwd, before⟩, after, ok, modes⟩
  | unlocks r phase after =>
    rw [after] at hj
    rw [phase]
    exact .inl hj
  | forgets _ _ _ after | takes _ after | marks _ after | clears _ after | fails _ after | givesUp _ _ _ after | turnsBack _ after
  | rollsBack _ _ _ _ _ after | sees _ _ after | registers _ after | unregisters _ after | cleans _ after =>
    rw [after] at hj
    cases hj

theorem Turned.cleaning (h : Turned i luck t s t' s') (ht : t'.phase = .cleaning) : t.phase = .cleaning ∨ t.phase = .registered := by
  cases h with
  | stays phase => exact .inl (phase.symm.trans ht)
  | unregisters phase => exact .inr phase
  | forgets _ _ _ after | takes _ after | marks _ after | clears _ after | fails _ after | givesUp _ _ _ after | turnsBack _ after
  | rollsBack _ _ _ _ _ after | sees _ _ after | reports _ _ _ _ _ _ after | unlocks _ _ after | registers _ after | cleans _ after =>
    cases after.symm.trans ht

theorem Turned.past (h : Turned i luck t s t' s') (ht : t'.phase.past) : t.phase.past ∨ s.relays t.code = none := by
  have hnot : ∀ p : Phase, t'.phase = p → ¬ p.past → t.phase.past ∨ s.relays t.code = none := fun p hp hnot => absurd (hp ▸ ht) hnot
  cases h with
  | stays phase => exact .inl (phase ▸ ht)
  | clears _ _ none => exact .inr none
  | sees _ phase => exact .inl (.inl phase)
  | forgets _ _ _ after | takes _ after | marks _ after | fails _ after | givesUp _ _ _ after | turnsBack _ after
  | rollsBack _ _ _ _ _ after | reports _ _ _ _ _ _ after | unlocks _ _ after | registers _ after | unregisters _ after | cleans _ after =>
    exact hnot _ after (by simp [Phase.past])

theorem entered_eq (hcode : t'.code = t.code) (h : t'.phase = .registered ↔ t.phase = .registered) : t'.entered = t.entered := by
  unfold Handler.entered
  rw [hcode]
  exact if_congr h rfl rfl

theorem holds_eq (hcode : t'.code = t.code) (h : t'.phase.running = t.phase.running) : t'.holds = t.holds := by
  unfold Handler.holds
  rw [hcode, h]

theorem Turned.tracks_relays (h : Turned i luck t s t' s') (hcode : t'.code = t.code) (hget : ts[i]? = some t)
    (hold : Tracks s.relays ts Handler.entered) : Tracks s'.relays (ts.set i t') Handler.entered := by
  have hstay : s'.relays = s.relays → (t'.phase = .registered ↔ t.phase = .registered) → Tracks s'.relays (ts.set i t') Handler.entered :=
    fun hrel hph => hrel ▸ hold.set hget (entered_eq hcode hph)
  cases h with
  | stays phase _ relays => exact hstay relays (by rw [phase])
  | registers phase after free _ relays =>
    rw [relays]
    exact hold.claim hget free (if_neg (by rw [phase]; decide)) ((if_pos after).trans (congrArg some hcode))
  | unregisters phase after _ relays =>
    rw [relays]
    exact hold.release hget (if_pos phase) (if_neg (by rw [after]; decide))
  | forgets _ _ phase after _ _ _ relays | takes phase after _ _ relays | marks phase after _ relays | turnsBack phase after _ relays
  | sees _ phase after _ _ relays | unlocks _ phase after _ relays | cleans phase after _ _ relays =>
    exact hstay relays (by simp [phase, after])
  | clears phase after _ _ relays => exact hstay relays (by rcases phase with phase | phase <;> rw [phase, after] <;> simp)
  | fails phase after _ relays => exact hstay relays (by rcases phase with phase | phase | ⟨j, phase⟩ <;> rw [phase, after] <;> simp)
  | givesUp _ _ before after _ _ _ relays | rollsBack _ _ _ _ before after _ relays | reports _ _ _ _ _ before after _ _ relays =>
    refine hstay relays ?_
    rw [after, before]
    simp [Handler.phase, HandoffAt.phase]

theorem Turned.tracks_locks (h : Turned i luck t s t' s') (hcode : t'.code = t.code) (hget : ts[i]? = some t)
    (hold : Tracks s.locks ts Handler.holds) : Tracks s'.locks (ts.set i t') Handler.holds := by
  have hstay : s'.locks = s.locks → t'.phase.running = t.phase.running → Tracks s'.locks (ts.set i t') Handler.holds :=
    fun hlock hph => hlock ▸ hold.set hget (holds_eq hcode hph)
  cases h with
  | stays phase _ _ locks => exact hstay locks (by rw [phase])
  | takes phase after free _ _ locks =>
    rw [locks]
    exact hold.claim hget free (if_neg (by rw [phase]; decide)) ((if_pos (by rw [after]; rfl)).trans (congrArg some hcode))
  | unlocks r phase after _ _ locks =>
    rw [locks]
    exact hold.release hget (if_pos (by rw [phase]; rfl)) (if_neg (by rw [after]; nofun))
  | forgets _ _ phase after _ _ _ _ locks | marks phase after _ _ locks | turnsBack phase after _ _ locks
  | sees _ phase after _ _ _ locks | registers phase after _ _ _ locks | unregisters phase after _ _ locks | cleans phase after _ _ _ locks =>
    exact hstay locks (by simp [phase, after, Phase.running])
  | clears phase after _ _ _ locks => exact hstay locks (by rcases phase with phase | phase <;> rw [phase, after] <;> rfl)
  | fails phase after _ _ locks => exact hstay locks (by rcases phase with phase | phase | ⟨j, phase⟩ <;> rw [phase, after] <;> rfl)
  | givesUp _ _ before after _ _ _ _ locks | rollsBack _ _ _ _ before after _ _ locks | reports _ _ _ _ _ before after _ _ _ locks =>
    refine hstay locks ?_
    rw [after, before]
    rfl

end Turn

/-! ## One turn -/

section Kept

variable {w : Hosting} {i : Nat} {luck : Luck} {t t' : Handler} {s' : Serving} {id : Nat}

theorem live_mem {ts : List Handler} (h : Live ts id) : ∃ t ∈ ts, t.session = some id ∧ ∃ j u, t.phase.reported = some j ∧ ts[j]? = some u ∧
    u.phase = .registered := by
  obtain ⟨t, ht, hsess, j, hj, u, hu, hreg⟩ := h
  exact ⟨t, ht, hsess, j, u, hj, hu, hreg⟩

theorem reported_seen {p : Phase} {j : Nat} (h : p.reported = some j) : p.seen = some j := by
  cases p with
  | done r | ended r => exact h
  | _ => cases h

/-- Where a reported relay is registered, it is under the code that all handlers of the session go by. -/
theorem Inv.live_relay (hinv : Inv w) (hlive : Live w.threads id) {t : Handler} (ht : t ∈ w.threads) (hsess : t.session = some id) :
    ∃ j u, w.threads[j]? = some u ∧ u.phase = .registered ∧ u.code = t.code ∧ w.shared.relays t.code = some j := by
  obtain ⟨x, hx, hxs, j, u, hj, hu, hreg⟩ := live_mem hlive
  obtain ⟨u', hu', hcode, -⟩ := hinv.seen x hx j (reported_seen hj)
  obtain rfl := Option.some.inj (hu.symm.trans hu')
  have hcode' : u.code = t.code := hcode.trans (hinv.spelt x hx t ht id hxs hsess)
  exact ⟨j, u, hu, hreg, hcode', hinv.relays.of_get hu (by rw [Handler.entered, if_pos hreg, hcode'])⟩

/-- What is reported after a turn was before, or is the success that this turn reports. -/
theorem Inv.live_turn (hinv : Inv w) (hget : w.threads[i]? = some t) (hturn : Turned i luck t w.shared t' s') (hcode : t'.code = t.code)
    (hlive : Live (w.threads.set i t') id) : Live w.threads id ∨ ∃ code body j ccSessionID cwd, t = .handoff code body (.joined j ccSessionID cwd) ∧
      t'.phase = .done (some j) ∧ t.session = some id ∧ luck.err = none ∧ Writes luck t "stream" w.shared s' ∧ w.shared.relays code = some j := by
  obtain ⟨x, hx, hxs, j, u, hj, hu, hreg⟩ := live_mem hlive
  have ht : t ∈ w.threads := List.mem_of_getElem? hget
  have hsess : t'.session = t.session := session_of_code hcode
  rw [getElem?_set_of_some hget] at hu
  rcases List.mem_or_eq_of_mem_set hx with hxold | rfl
  · refine .inl ⟨x, hxold, hxs, j, hj, ?_⟩
    split at hu
    · -- the relay that was seen cannot be one that registers just now
      rename_i hij
      subst hij
      obtain rfl := Option.some.inj hu
      obtain ⟨u', hu', -, hwas⟩ := hinv.seen x hxold i (reported_seen hj)
      obtain rfl := Option.some.inj (hget.symm.trans hu')
      refine ⟨t, hget, (hturn.registered hreg).resolve_right fun hout => ?_⟩
      rw [hout] at hwas
      cases hwas
    · exact ⟨u, hu, hreg⟩
  · split at hu
    · obtain rfl := Option.some.inj hu
      rw [hreg] at hj
      cases hj
    · rcases hturn.reported hj with hold | ⟨⟨code, body, ccSessionID, cwd, rfl⟩, hdone, hok, hwrites⟩
      · exact .inl ⟨t, ht, hsess.symm.trans hxs, j, hold, u, hu, hreg⟩
      · obtain ⟨u', hu', hucode, -⟩ := hinv.seen _ ht j rfl
        obtain rfl := Option.some.inj (hu.symm.trans hu')
        refine .inr ⟨code, body, j, ccSessionID, cwd, rfl, hdone, hsess.symm.trans hxs, hok, hwrites, hinv.relays.of_get hu ?_⟩
        rw [Handler.entered, if_pos hreg, hucode]
        rfl

/-- A relay stays registered until its clean-up is to come, and that until it was made. -/
theorem InPhase.tended_set (hget : w.threads[i]? = some t) (hturn : Turned i luck t w.shared t' s') (hcode : t'.code = t.code)
    (hnot : t.phase = .cleaning → t'.phase = .cleaning) (h : InPhase w.threads id Phase.tended) : InPhase (w.threads.set i t') id Phase.tended := by
  refine h.set hget hcode fun ht => ?_
  cases hturn with
  | stays phase => rw [phase, ht]
  | unregisters _ after => rw [after]; rfl
  | cleans phase => rw [hnot phase]; rfl
  | forgets _ _ phase | takes phase | marks phase | turnsBack phase | sees _ phase | unlocks _ phase | registers phase =>
    rw [phase] at ht
    cases ht
  | clears phase => rcases phase with phase | phase <;> rw [phase] at ht <;> cases ht
  | fails phase => rcases phase with phase | phase | ⟨j, phase⟩ <;> rw [phase] at ht <;> cases ht
  | givesUp _ _ before | rollsBack _ _ _ _ before | reports _ _ _ _ _ before =>
    subst before
    cases ht

end Kept

section Step

variable {w : Hosting} {i : Nat} {luck : Luck} {t t' : Handler} {s' : Serving} {id : Nat}

theorem TurnOk.starts (hok : TurnOk w i luck t) (hstarts : t.starts = true) (hid : t.session = some id) (hgone : luck.gone = true)
    (herr : luck.err = none) : ¬ Live w.threads id := by
  have h := hok id hid
  unfold Handler.starts at hstarts
  split at hstarts
  · exact h hgone herr
  · exact h hgone herr
  · cases hstarts

theorem TurnOk.cleans (hok : TurnOk w i luck t) (hphase : t.phase = .cleaning) (hid : t.session = some id) (hinit : luck.init = none)
    (herr : luck.err.isSome = true) (hmode : w.shared.modeOf id = some "stream") : InPhase (w.threads.eraseIdx i) id Phase.tended := by
  have h := hok id hid
  cases t with
  | handoff code body at' =>
    cases at' with
    | stopping updated => cases updated <;> cases hphase
    | _ => cases hphase
  | relay code captured at' =>
    cases at' with
    | unregistered | reverting => exact h hinit herr hmode
    | _ => cases hphase

theorem Writes.modeOf_ne {mode : String} (h : Writes luck t mode w.shared s') (hid : t.session ≠ some id) : s'.modeOf id = w.shared.modeOf id :=
  (h id).trans (if_neg fun hall => hid hall.1)

theorem Writes.modeOf_eq {mode : String} (h : Writes luck t mode w.shared s') (hid : t.session = some id) (hok : luck.err = none) :
    s'.modeOf id = (w.shared.modeOf id).map fun _ => mode := (h id).trans (if_pos ⟨hid, hok⟩)

/-- Where "stream" is stored, there is a relay or the clean-up of one. -/
theorem Inv.sound_turn (hinv : Inv w) (hok : TurnOk w i luck t) (hget : w.threads[i]? = some t) (hturn : Turned i luck t w.shared t' s')
    (hcode : t'.code = t.code) (hmode : s'.modeOf id = some "stream") : InPhase (w.threads.set i t') id Phase.tended := by
  have hkeep : (t.phase = .cleaning → t'.phase = .cleaning) → InPhase w.threads id Phase.tended → InPhase (w.threads.set i t') id Phase.tended :=
    fun hnot h => h.tended_set hget hturn hcode hnot
  have hsame : (t.phase = .cleaning → t'.phase = .cleaning) → s'.modeOf = w.shared.modeOf → InPhase (w.threads.set i t') id Phase.tended :=
    fun hnot hmodes => hkeep hnot (hinv.sound id (hmodes ▸ hmode))
  cases hturn with
  | stays phase modes => exact hsame (fun h => phase.trans h) modes
  | forgets id' _ phase _ _ _ modes =>
    rw [modes, Function.update_apply] at hmode
    split at hmode
    · cases hmode
    · exact hkeep (fun h => by rw [phase] at h; cases h) (hinv.sound id hmode)
  | takes phase _ _ modes | turnsBack phase _ modes | sees _ phase _ _ modes | unlocks _ phase _ modes | registers phase _ _ modes
  | unregisters phase _ modes => exact hsame (fun h => by rw [phase] at h; cases h) modes
  | clears phase _ _ modes => exact hsame (fun h => by rcases phase with phase | phase <;> rw [phase] at h <;> cases h) modes
  | fails phase _ modes => exact hsame (fun h => by rcases phase with phase | phase | ⟨j, phase⟩ <;> rw [phase] at h <;> cases h) modes
  | givesUp _ _ before _ _ _ modes => exact hsame (fun h => by subst before; cases h) modes
  | marks phase _ modes =>
    refine hkeep (fun h => by rw [phase] at h; cases h) (hinv.sound id ?_)
    rw [modes id] at hmode
    split at hmode
    · obtain ⟨m, -, hm⟩ := Option.map_eq_some_iff.1 hmode
      exact absurd hm (by decide)
    · exact hmode
  | rollsBack code body origMode text before _ modes =>
    subst before
    refine hkeep (fun h => by cases h) ?_
    by_cases hwrites : Handler.session (.handoff code body (.rollingBack origMode text)) = some id ∧ luck.err = none
    · rw [modes.modeOf_eq hwrites.1 hwrites.2] at hmode
      obtain ⟨m, hm, horig⟩ := Option.map_eq_some_iff.1 hmode
      exact (hok id hwrites.1).2 horig hwrites.2 (Option.isSome_of_mem hm)
    · rw [modes id, if_neg hwrites] at hmode
      exact hinv.sound id hmode
  | reports code body j ccSessionID cwd before _ herr modes =>
    subst before
    refine hkeep (fun h => by cases h) ?_
    by_cases hid : Handler.session (.handoff code body (.joined j ccSessionID cwd)) = some id
    · rw [modes.modeOf_eq hid herr] at hmode
      obtain ⟨m, hm, -⟩ := Option.map_eq_some_iff.1 hmode
      have hjoin := hok id hid herr
      split at hjoin
      · rename_i hrelay
        obtain ⟨u, hu, hentered⟩ := (hinv.relays code j).1 hrelay
        unfold Handler.entered at hentered
        split at hentered
        · rename_i hreg
          have hsess : u.session = some id := (congrArg decodeSessionID (Option.some.inj hentered)).trans hid
          exact .of_get hu hsess (by rw [hreg]; rfl)
        · cases hentered
      · exact hjoin (Option.isSome_of_mem hm)
    · rw [modes.modeOf_ne hid] at hmode
      exact hinv.sound id hmode
  | cleans phase after init modes =>
    rcases modes id with ⟨hsame', herr⟩ | ⟨-, hne⟩
    · rw [hsame'] at hmode
      by_cases hid : t.session = some id
      · exact (hok.cleans phase hid init (herr hid) hmode).set_of_other hget
      · -- the handler that is done cleaned up for another session
        obtain ⟨u, hu, hsess, hp⟩ := hinv.sound id hmode
        obtain ⟨k, hk⟩ := List.getElem?_of_mem hu
        have hik : i ≠ k := fun heq => by
          subst heq
          exact hid (Option.some.inj (hget.symm.trans hk) ▸ hsess)
        exact .of_get ((getElem?_set_of_some hget k).trans ((if_neg hik).trans hk)) hsess hp
    · exact absurd hmode hne

/-- What a turn does to the mode of a session that a live relay was reported for: nothing, or a handoff marks it, or puts it
back before it is done with it. -/
theorem Inv.modeOf_turn (hinv : Inv w) (hok : TurnOk w i luck t) (hget : w.threads[i]? = some t) (hturn : Turned i luck t w.shared t' s')
    (hlive : Live w.threads id) :
    (s'.modeOf id = w.shared.modeOf id ∧ (t.session = some id → t.phase = .dirty → t'.phase = .dirty)) ∨
      (t.session = some id ∧ t'.phase = .dirty ∧ ∃ mode, s'.modeOf id = (w.shared.modeOf id).map fun _ => mode) ∨
      s'.modeOf id = (w.shared.modeOf id).map fun _ => "stream" := by
  have hsame : s'.modeOf id = w.shared.modeOf id → t.phase ≠ .dirty → (s'.modeOf id = w.shared.modeOf id ∧
      (t.session = some id → t.phase = .dirty → t'.phase = .dirty)) := fun h hne => ⟨h, fun _ hd => absurd hd hne⟩
  have ht := List.mem_of_getElem? hget
  cases hturn with
  | stays phase modes => exact .inl ⟨congrFun modes id, fun _ hd => phase.trans hd⟩
  | takes phase _ _ modes | turnsBack phase _ modes | sees _ phase _ _ modes | unlocks _ phase _ modes | registers phase _ _ modes
  | unregisters phase _ modes => exact .inl (hsame (congrFun modes id) (by rw [phase]; nofun))
  | fails phase _ modes => exact .inl (hsame (congrFun modes id) (by rcases phase with phase | phase | ⟨j, phase⟩ <;> rw [phase] <;> nofun))
  | clears _ _ none modes =>
    refine .inl ⟨congrFun modes id, fun hid _ => ?_⟩
    obtain ⟨j, -, -, -, -, hrelay⟩ := hinv.live_relay hlive ht hid
    cases none.symm.trans hrelay
  | givesUp code body before _ late there modes =>
    subst before
    exact .inl ⟨congrFun modes id, fun hid _ => absurd hlive (hok id hid late there)⟩
  | forgets id' before phase _ session gone modes =>
    by_cases hid : id = id'
    · subst hid
      exact absurd hlive (hok.starts before session gone.1 gone.2)
    · exact .inl (hsame (by rw [modes, Function.update_of_ne hid]) (by rw [phase]; nofun))
  | marks phase after modes =>
    by_cases hid : t.session = some id ∧ luck.err = none
    · exact .inr (.inl ⟨hid.1, after, _, modes.modeOf_eq hid.1 hid.2⟩)
    · exact .inl (hsame ((modes id).trans (if_neg hid)) (by rw [phase]; nofun))
  | rollsBack code body origMode text before _ modes =>
    subst before
    by_cases hid : Handler.session (.handoff code body (.rollingBack origMode text)) = some id
    · obtain ⟨rfl, herr⟩ := (hok id hid).1 hlive
      exact .inr (.inr (modes.modeOf_eq hid herr))
    · exact .inl ⟨modes.modeOf_ne hid, fun h => absurd h hid⟩
  | reports code body j ccSessionID cwd before _ _ modes =>
    subst before
    by_cases hid : Handler.session (.handoff code body (.joined j ccSessionID cwd)) = some id
    · exact absurd hlive (hinv.past i _ hget (.inr ⟨j, rfl⟩) id hid)
    · exact .inl ⟨modes.modeOf_ne hid, fun h => absurd h hid⟩
  | cleans phase _ _ modes =>
    rcases modes id with ⟨hsame', -⟩ | ⟨hid, -⟩
    · exact .inl (hsame hsame' (by rw [phase]; nofun))
    · exact absurd (.of_get hget hid (by rw [phase]; rfl)) (hinv.live id hlive).1

/-- No clean-up of a session begins while a relay that was reported is registered. -/
theorem Inv.not_cleaning_turn (hinv : Inv w) (hget : w.threads[i]? = some t) (hturn : Turned i luck t w.shared t' s') (hcode : t'.code = t.code)
    (hlive : Live (w.threads.set i t') id) (hnot : ¬ InPhase w.threads id isCleaning) : ¬ InPhase (w.threads.set i t') id isCleaning := by
  rintro ⟨v, hv, hvs, hvp⟩
  rcases List.mem_or_eq_of_mem_set hv with hv | rfl
  · exact hnot ⟨v, hv, hvs, hvp⟩
  have hclean : v.phase = .cleaning := of_decide_eq_true hvp
  have hts : t.session = some id := (session_of_code hcode).symm.trans hvs
  rcases hturn.cleaning hclean with ht | ht
  · exact hnot (.of_get hget hts (by rw [ht]; rfl))
  · -- the relay that goes was the one registered, so that there is none now
    obtain ⟨x, hx, hxs, j, u, hj, hu, hreg⟩ := live_mem hlive
    rcases List.mem_or_eq_of_mem_set hx with hx | rfl
    · rw [getElem?_set_of_some hget] at hu
      split at hu
      · obtain rfl := Option.some.inj hu
        cases hclean.symm.trans hreg
      · rename_i hij
        obtain ⟨u', hu', hucode, -⟩ := hinv.seen x hx j (reported_seen hj)
        obtain rfl := Option.some.inj (hu.symm.trans hu')
        have hucode' : u.code = t.code := hucode.trans (hinv.spelt x hx t (List.mem_of_getElem? hget) id hxs hts)
        exact hij (hinv.relays.unique hget hu (if_pos ht) (by rw [Handler.entered, if_pos hreg, hucode']))
    · rw [hclean] at hj
      cases hj

theorem Inv.live_step (hinv : Inv w) (hok : TurnOk w i luck t) (hget : w.threads[i]? = some t) (hturn : Turned i luck t w.shared t' s')
    (hcode : t'.code = t.code) (hlive : Live (w.threads.set i t') id) : ¬ InPhase (w.threads.set i t') id isCleaning ∧
      (s'.modeOf id).isSome = true ∧ (¬ InPhase (w.threads.set i t') id isDirty → s'.modeOf id = some "stream") := by
  rcases hinv.live_turn hget hturn hcode hlive with hold | ⟨code, body, j, ccSessionID, cwd, rfl, -, hid, herr, hwrites, hrelay⟩
  · obtain ⟨hnot, hsome, hmode⟩ := hinv.live id hold
    have hnot' := hinv.not_cleaning_turn hget hturn hcode hlive hnot
    rcases hinv.modeOf_turn hok hget hturn hold with ⟨hsame, hdirty⟩ | ⟨hid, hdirty, mode, hmode'⟩ | hmode'
    · refine ⟨hnot', by rw [hsame, hsome], fun hclean => hsame.trans (hmode fun ⟨u, hu, hus, hup⟩ => ?_)⟩
      obtain ⟨k, hk⟩ := List.getElem?_of_mem hu
      by_cases hik : i = k
      · subst hik
        obtain rfl := Option.some.inj (hget.symm.trans hk)
        refine hclean (.of_get ((getElem?_set_of_some hget i).trans (if_pos rfl)) ((session_of_code hcode).trans hus) ?_)
        rw [hdirty hus (of_decide_eq_true hup)]
        rfl
      · exact hclean (.of_get ((getElem?_set_of_some hget k).trans ((if_neg hik).trans hk)) hus hup)
    · refine ⟨hnot', by rw [hmode', Option.isSome_map, hsome], fun hclean => absurd ?_ hclean⟩
      exact .of_get ((getElem?_set_of_some hget i).trans (if_pos rfl)) ((session_of_code hcode).trans hid) (by rw [hdirty]; rfl)
    · obtain ⟨m, hm⟩ := Option.isSome_iff_exists.1 hsome
      have hstream : s'.modeOf id = some "stream" := by rw [hmode', hm]; rfl
      exact ⟨hnot', by rw [hstream]; rfl, fun _ => hstream⟩
  · have hjoin := hok id hid herr
    rw [if_pos hrelay] at hjoin
    obtain ⟨m, hm⟩ := Option.isSome_iff_exists.1 hjoin.2
    have hmode : s'.modeOf id = some "stream" := by rw [hwrites.modeOf_eq hid herr, hm]; rfl
    exact ⟨hinv.not_cleaning_turn hget hturn hcode hlive hjoin.1, by rw [hmode]; rfl, fun _ => hmode⟩

theorem Inv.past_step (hinv : Inv w) (hget : w.threads[i]? = some t) (hturn : Turned i luck t w.shared t' s') (hcode : t'.code = t.code)
    (k : Nat) (x : Handler) (hk : (w.threads.set i t')[k]? = some x) (hpast : x.phase.past) (hid : x.session = some id) :
    ¬ Live (w.threads.set i t') id := fun hlive => by
  rw [getElem?_set_of_some hget] at hk
  have ht := List.mem_of_getElem? hget
  rcases hinv.live_turn hget hturn hcode hlive with hold | ⟨code, body, j, ccSessionID, cwd, rfl, hdone, hts, -⟩
  · split at hk
    · obtain rfl := Option.some.inj hk
      have hts : t.session = some id := (session_of_code hcode).symm.trans hid
      rcases hturn.past hpast with hold' | hnone
      · exact hinv.past i t hget hold' id hts hold
      · obtain ⟨j, -, -, -, -, hrelay⟩ := hinv.live_relay hold ht hts
        cases hnone.symm.trans hrelay
    · exact hinv.past k x hk hpast id hid hold
  · split at hk
    · obtain rfl := Option.some.inj hk
      rcases hpast with h | ⟨j', h⟩ <;> cases hdone.symm.trans h
    · -- two handoffs of the session would be in progress
      rename_i hik
      refine hik (hinv.locks.unique hget hk rfl ?_)
      have hrun : x.phase.running = true := by rcases hpast with h | ⟨j', h⟩ <;> rw [h] <;> rfl
      rw [Handler.holds, if_pos hrun]
      exact congrArg some (hinv.spelt x (List.mem_of_getElem? hk) _ ht id hid hts)

theorem Inv.seen_step (hinv : Inv w) (hget : w.threads[i]? = some t) (hturn : Turned i luck t w.shared t' s') (hcode : t'.code = t.code) :
    ∀ u ∈ w.threads.set i t', ∀ j, u.phase.seen = some j → ∃ v, (w.threads.set i t')[j]? = some v ∧ v.code = u.code ∧ v.phase.wasRelay = true := by
  have hkeep : ∀ (c : String) (j : Nat), (∃ v, w.threads[j]? = some v ∧ v.code = c ∧ v.phase.wasRelay = true) →
      ∃ v, (w.threads.set i t')[j]? = some v ∧ v.code = c ∧ v.phase.wasRelay = true := by
    rintro c j ⟨v, hv, hvc, hwas⟩
    by_cases hij : i = j
    · subst hij
      obtain rfl := Option.some.inj (hget.symm.trans hv)
      exact ⟨t', (getElem?_set_of_some hget i).trans (if_pos rfl), hcode.trans hvc, hturn.wasRelay hwas⟩
    · exact ⟨v, (getElem?_set_of_some hget j).trans ((if_neg hij).trans hv), hvc, hwas⟩
  have ht := List.mem_of_getElem? hget
  intro u hu j hj
  rcases List.mem_or_eq_of_mem_set hu with hu | rfl
  · exact hkeep _ j (hinv.seen u hu j hj)
  · rw [hcode]
    rcases hturn.seen hj with hold | hrelay
    · exact hkeep _ j (hinv.seen t ht j hold)
    · obtain ⟨v, hv, hentered⟩ := (hinv.relays t.code j).1 hrelay
      unfold Handler.entered at hentered
      split at hentered
      · rename_i hreg
        exact hkeep _ j ⟨v, hv, Option.some.inj hentered, by rw [hreg]; rfl⟩
      · cases hentered

theorem Inv.turn (hinv : Inv w) (hok : TurnOk w i luck t) (hget : w.threads[i]? = some t) (hact : serveHandler i luck t w.shared = some (t', s')) :
    Inv ⟨s', w.threads.set i t'⟩ := by
  have hturn := turned_of_serve hact
  have hcode := code_of_serve hact
  have hspelt : ∀ u ∈ w.threads.set i t', ∃ v ∈ w.threads, v.code = u.code := forall_mem_set (fun u hu => ⟨u, hu, rfl⟩)
    ⟨t, List.mem_of_getElem? hget, hcode.symm⟩
  refine ⟨hturn.tracks_relays hcode hget hinv.relays, hturn.tracks_locks hcode hget hinv.locks, fun x hx y hy id hxs hys => ?_,
    hinv.seen_step hget hturn hcode, fun _ => hinv.sound_turn hok hget hturn hcode, fun _ => hinv.live_step hok hget hturn hcode,
    fun k x hk hpast _ hid => hinv.past_step hget hturn hcode k x hk hpast hid⟩
  obtain ⟨x', hx', hxc⟩ := hspelt x hx
  obtain ⟨y', hy', hyc⟩ := hspelt y hy
  rw [← hxc, ← hyc]
  exact hinv.spelt x' hx' y' hy' id ((session_of_code hxc).trans hxs) ((session_of_code hyc).trans hys)

/-- A handler that begins has nothing in hand. -/
theorem fresh_phase (h : t.Fresh) : t.phase = .outside := by
  cases t with
  | handoff code body at' =>
    obtain rfl : at' = .start := h
    rfl
  | relay code captured at' =>
    obtain ⟨-, rfl⟩ : captured = false ∧ at' = .start := h
    rfl

theorem inPhase_append {ts : List Handler} {p : Phase → Bool} (ht : t.phase = .outside) (hp : p .outside = false) :
    InPhase (ts ++ [t]) id p ↔ InPhase ts id p := by
  constructor
  · rintro ⟨u, hu, hus, hup⟩
    rcases List.mem_append.1 hu with hu | hu
    · exact ⟨u, hu, hus, hup⟩
    · rw [List.mem_singleton.1 hu, ht, hp] at hup
      cases hup
  · rintro ⟨u, hu, hus, hup⟩
    exact ⟨u, List.mem_append_left _ hu, hus, hup⟩

theorem live_of_append {ts : List Handler} (ht : t.phase = .outside) (h : Live (ts ++ [t]) id) : Live ts id := by
  obtain ⟨x, hx, hxs, j, u, hj, hu, hreg⟩ := live_mem h
  rcases List.mem_append.1 hx with hx | hx
  · rcases of_getElem?_append hu with hu | ⟨-, rfl⟩
    · exact ⟨x, hx, hxs, j, hj, u, hu, hreg⟩
    · cases ht.symm.trans hreg
  · rw [List.mem_singleton.1 hx, ht] at hj
    cases hj

theorem Inv.start (hinv : Inv w) (hfresh : t.Fresh) (hspelt : SpeltAlike w.threads t) : Inv ⟨w.shared, w.threads ++ [t]⟩ := by
  have ht := fresh_phase hfresh
  refine ⟨hinv.relays.append (if_neg (by rw [ht]; nofun)), hinv.locks.append (if_neg (by rw [ht]; nofun)), fun x hx y hy id hxs hys => ?_,
    fun x hx j hj => ?_, fun id hmode => (inPhase_append ht rfl).2 (hinv.sound id hmode), fun id hlive => ?_, fun k x hk hpast id hid hlive => ?_⟩
  · rcases List.mem_append.1 hx with hx | hx <;> rcases List.mem_append.1 hy with hy | hy
    · exact hinv.spelt x hx y hy id hxs hys
    · rw [List.mem_singleton.1 hy] at hys ⊢
      exact hspelt x hx id hys hxs
    · rw [List.mem_singleton.1 hx] at hxs ⊢
      exact (hspelt y hy id hxs hys).symm
    · rw [List.mem_singleton.1 hx, List.mem_singleton.1 hy]
  · rcases List.mem_append.1 hx with hx | hx
    · obtain ⟨u, hu, hrest⟩ := hinv.seen x hx j hj
      exact ⟨u, getElem?_append_of_some hu, hrest⟩
    · rw [List.mem_singleton.1 hx, ht] at hj
      cases hj
  · obtain ⟨hnot, hsome, hmode⟩ := hinv.live id (live_of_append ht hlive)
    exact ⟨fun h => hnot ((inPhase_append ht rfl).1 h), hsome, fun h => hmode fun hd => h ((inPhase_append ht rfl).2 hd)⟩
  · rcases of_getElem?_append hk with hk | ⟨-, rfl⟩
    · exact hinv.past k x hk hpast id hid (live_of_append ht hlive)
    · rw [ht] at hpast
      rcases hpast with h | ⟨j, h⟩ <;> cases h

theorem Inv.init (h : Started w) : Inv w := by
  have hno : ∀ (k : Nat) u, w.threads[k]? ≠ some u := by simp [h.threads]
  have hmem : ∀ u, u ∉ w.threads := by simp [h.threads]
  refine ⟨fun code j => ?_, fun code j => ?_, fun t ht => absurd ht (hmem t), fun t ht => absurd ht (hmem t), fun id hmode => ?_,
    fun id ⟨t, ht, _⟩ => absurd ht (hmem t), fun k t hk => absurd hk (hno k t)⟩
  · rw [h.relays code]
    exact iff_of_false nofun fun ⟨u, hu, _⟩ => hno j u hu
  · rw [h.locks code]
    exact iff_of_false nofun fun ⟨u, hu, _⟩ => hno j u hu
  · obtain ⟨row, hrow, hstream⟩ := Option.map_eq_some_iff.1 hmode
    exact absurd ((h.rows id row hrow).symm.trans hstream) (by decide)

theorem inv_of_runs {tr : HostTrace} (hr : handoffs.Runs Started InOrder w tr) : Inv w := by
  refine hr.invariant (P := fun w _ => Inv w) (fun _ => Inv.init) fun w w' _ mv _ hinv hok hst => ?_
  rcases Stages.step_cases hst with ⟨t, rfl, rfl⟩ | ⟨i, luck, t, t', s', rfl, hget, hact, rfl⟩ | ⟨o, -⟩
  · exact hinv.start (hok.fresh t rfl) (hok.spelt t rfl)
  · exact hinv.turn (hok.turn i luck t rfl hget) hget hact
  · exact o.elim

end Step

end Purdex.Stream
