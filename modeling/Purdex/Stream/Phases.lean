/-
What the handlers of handoffs and of relays have in hand, whatever they do in between: a lock, a mode that they wrote, a
relay. Every turn of theirs is one of a few.
-/
import Purdex.Stream.Handoff

namespace Purdex.Stream

open Conc
open Purdex.Session (SessionMeta MetaUpdate decodeSessionID)

/-! ## Phases -/

/-- A handoff is `dirty` while the mode it found may be replaced by "terminal", and `cleared` once it saw that there is no relay;
`done` and `ended` name the relay of a handoff to the stream that was reported. -/
inductive Phase where
  | outside
  | locked
  | dirty
  | cleared
  | joined (relay : Nat)
  | done (relay : Option Nat)
  | ended (relay : Option Nat)
  | registered
  | cleaning
  | left
  deriving Repr, DecidableEq

def Outcome.relay : Outcome → Option Nat
  | .streaming j => some j
  | .failed _ | .interactive => none

def HandoffAt.phase : HandoffAt → Phase
  | .start | .found _ | .refused .. => .outside
  | .toStream _ | .preUpdating | .stopping false | .toTerm _ => .locked
  | .stopping true | .marked _ | .stoppingTerm _ | .rollingBack .. => .dirty
  | .preparing .. | .resuming .. => .cleared
  | .joined j _ _ => .joined j
  | .unlocking outcome => .done outcome.relay
  | .ended outcome => .ended outcome.relay

def RelayAt.phase : RelayAt → Phase
  | .start | .found | .upgraded | .refused .. => .outside
  | .connected | .closing => .registered
  | .unregistered | .reverting => .cleaning
  | .ended => .left

def Handler.phase : Handler → Phase
  | .handoff _ _ at' => at'.phase
  | .relay _ _ at' => at'.phase

/-- The handler is about to look its session up for the first time. -/
def Handler.starts : Handler → Bool
  | .handoff _ _ .start | .relay _ _ .start => true
  | _ => false

def Handler.session (t : Handler) : Option Nat := decodeSessionID t.code

/-- The handoff is in progress. -/
def Phase.running : Phase → Bool
  | .locked | .dirty | .cleared | .joined _ | .done _ => true
  | _ => false

/-- The relay of this handler was registered once. -/
def Phase.wasRelay : Phase → Bool
  | .registered | .cleaning | .left => true
  | _ => false

/-- The relay a handoff saw. -/
def Phase.seen : Phase → Option Nat
  | .joined j => some j
  | .done r | .ended r => r
  | _ => none

/-- The relay a handoff was reported with. -/
def Phase.reported : Phase → Option Nat
  | .done r | .ended r => r
  | _ => none

def Handler.holds (t : Handler) : Option String := if t.phase.running then some t.code else none

def Handler.entered (t : Handler) : Option String := if t.phase = .registered then some t.code else none

/-! ## What is stored -/

namespace Serving

def modeOf (s : Serving) (id : Nat) : Option String := (s.rows id).map (·.mode)

variable {s s' : Serving} {luck : Luck} {code type value mode : String} {id : Nat} {upd : MetaUpdate}

@[simp] theorem broadcast_modeOf : (s.broadcast code type value).modeOf = s.modeOf := rfl

@[simp] theorem broadcast_relays : (s.broadcast code type value).relays = s.relays := rfl

@[simp] theorem broadcast_locks : (s.broadcast code type value).locks = s.locks := rfl

@[simp] theorem updateMeta_relays : (s.updateMeta luck code upd).2.relays = s.relays := by
  unfold updateMeta
  split
  · rfl
  · split <;> rfl

@[simp] theorem updateMeta_locks : (s.updateMeta luck code upd).2.locks = s.locks := by
  unfold updateMeta
  split
  · rfl
  · split <;> rfl

@[simp] theorem getSession_relays : (s.getSession luck code).2.relays = s.relays := by
  unfold getSession
  split
  · rfl
  · split_ifs <;> rfl

@[simp] theorem getSession_locks : (s.getSession luck code).2.locks = s.locks := by
  unfold getSession
  split
  · rfl
  · split_ifs <;> rfl

theorem updateMeta_modeOf (id : Nat) : (s.updateMeta luck code upd).2.modeOf id =
    if decodeSessionID code = some id ∧ luck.err = none then (s.modeOf id).map fun m => upd.mode.getD m else s.modeOf id := by
  unfold updateMeta
  split
  · rename_i hcode
    rw [hcode, if_neg (fun h => by cases h.1)]
  · rename_i id' hcode
    rw [hcode]
    cases herr : luck.err with
    | some err => exact (if_neg (fun h => by cases h.2)).symm
    | none =>
      simp only [modeOf, Function.update_apply, Option.some.injEq, and_true]
      by_cases hid : id' = id
      · subst hid
        rw [if_pos rfl, if_pos rfl, Option.map_map, Option.map_map]
        rfl
      · rw [if_neg (Ne.symm hid), if_neg hid]

/-- An update that reports no error is made. -/
theorem updateMeta_ok (h : (s.updateMeta luck code upd).1 = none) : luck.err = none := by
  unfold updateMeta at h
  split at h
  · cases h
  · split at h
    · cases h
    · assumption

theorem getSession_modeOf (id : Nat) : (s.getSession luck code).2.modeOf id =
    if decodeSessionID code = some id ∧ luck.gone = true ∧ luck.err = none then none else s.modeOf id := by
  unfold getSession
  split
  · rename_i hcode
    rw [hcode, if_neg (fun h => by cases h.1)]
  · rename_i id' hcode
    rw [hcode]
    cases luck.gone with
    | false =>
      simp only [Bool.false_eq_true, if_false, false_and, and_false]
      split_ifs <;> rfl
    | true =>
      cases herr : luck.err with
      | some err => simp
      | none =>
        simp only [if_true, Option.isSome_none, Bool.false_eq_true, if_false, modeOf, Function.update_apply, Option.some.injEq, and_true]
        by_cases hid : id' = id
        · rw [if_pos hid.symm, if_pos hid]
          rfl
        · rw [if_neg (Ne.symm hid), if_neg hid]

/-- A session that is found has the mode that is stored. -/
theorem getSession_found {sess : SessionSeen} (h : (s.getSession luck code).1 = some sess) (hid : decodeSessionID code = some id) :
    (s.getSession luck code).2 = s ∧ (s.modeOf id = some "stream" → sess.mode = "stream") := by
  unfold getSession at h ⊢
  rw [hid] at h ⊢
  dsimp only at h ⊢
  split at h
  · cases h
  · rename_i hgone
    rw [if_neg hgone]
    split at h
    · cases h
    · rename_i herr
      rw [if_neg herr]
      refine ⟨rfl, fun hmode => ?_⟩
      obtain ⟨row, hrow, hstream⟩ := Option.map_eq_some_iff.1 hmode
      rw [← Option.some.inj h, hrow]
      exact hstream

/-- A look that does not find the session, and leaves its row: something failed. -/
theorem getSession_missed (h : (s.getSession luck code).1 = none) (hid : decodeSessionID code = some id) :
    (luck.gone = true ∧ luck.err = none) ∨ luck.err.isSome = true := by
  unfold getSession at h
  rw [hid] at h
  dsimp only at h
  cases herr : luck.err with
  | some err => exact .inr rfl
  | none =>
    refine .inl ⟨?_, rfl⟩
    by_contra hgone
    rw [herr, if_neg hgone] at h
    simp at h

end Serving

/-! ## Turns -/

/-- A turn that writes the mode of its session, unless the write fails; a session without a row stays without. -/
def Writes (luck : Luck) (t : Handler) (mode : String) (s s' : Serving) : Prop :=
  ∀ id, s'.modeOf id = if t.session = some id ∧ luck.err = none then (s.modeOf id).map fun _ => mode else s.modeOf id

/-- Everything a turn can do to the modes, the relays and the locks. -/
inductive Turned (i : Nat) (luck : Luck) (t : Handler) (s : Serving) (t' : Handler) (s' : Serving) : Prop where
  | stays (phase : t'.phase = t.phase) (modes : s'.modeOf = s.modeOf) (relays : s'.relays = s.relays) (locks : s'.locks = s.locks)
  | forgets (id : Nat) (before : t.starts = true) (phase : t.phase = .outside) (after : t'.phase = .outside) (session : t.session = some id)
      (gone : luck.gone = true ∧ luck.err = none) (modes : s'.modeOf = Function.update s.modeOf id none) (relays : s'.relays = s.relays)
      (locks : s'.locks = s.locks)
  | takes (phase : t.phase = .outside) (after : t'.phase = .locked) (free : s.locks t.code = none) (modes : s'.modeOf = s.modeOf)
      (relays : s'.relays = s.relays) (locks : s'.locks = Function.update s.locks t.code (some i))
  | marks (phase : t.phase = .locked) (after : t'.phase = .dirty) (modes : Writes luck t "terminal" s s') (relays : s'.relays = s.relays)
      (locks : s'.locks = s.locks)
  | clears (phase : t.phase = .locked ∨ t.phase = .dirty) (after : t'.phase = .cleared) (none : s.relays t.code = none)
      (modes : s'.modeOf = s.modeOf) (relays : s'.relays = s.relays) (locks : s'.locks = s.locks)
  | fails (phase : t.phase = .locked ∨ t.phase = .cleared ∨ ∃ j, t.phase = .joined j) (after : t'.phase = .done none)
      (modes : s'.modeOf = s.modeOf) (relays : s'.relays = s.relays) (locks : s'.locks = s.locks)
  | givesUp (code : String) (body : Option HandoffRequest) (before : t = .handoff code body (.stopping true)) (after : t'.phase = .done none)
      (late : luck.late = true) (there : (s.relays code).isSome = true) (modes : s'.modeOf = s.modeOf) (relays : s'.relays = s.relays)
      (locks : s'.locks = s.locks)
  | turnsBack (phase : t.phase = .cleared) (after : t'.phase = .dirty) (modes : s'.modeOf = s.modeOf) (relays : s'.relays = s.relays)
      (locks : s'.locks = s.locks)
  | rollsBack (code : String) (body : Option HandoffRequest) (origMode text : String) (before : t = .handoff code body (.rollingBack origMode text))
      (after : t'.phase = .done none) (modes : Writes luck t origMode s s') (relays : s'.relays = s.relays) (locks : s'.locks = s.locks)
  | sees (j : Nat) (phase : t.phase = .cleared) (after : t'.phase = .joined j) (there : s.relays t.code = some j) (modes : s'.modeOf = s.modeOf)
      (relays : s'.relays = s.relays) (locks : s'.locks = s.locks)
  | reports (code : String) (body : Option HandoffRequest) (j : Nat) (ccSessionID cwd : String)
      (before : t = .handoff code body (.joined j ccSessionID cwd)) (after : t'.phase = .done (some j)) (ok : luck.err = none)
      (modes : Writes luck t "stream" s s') (relays : s'.relays = s.relays) (locks : s'.locks = s.locks)
  | unlocks (r : Option Nat) (phase : t.phase = .done r) (after : t'.phase = .ended r) (modes : s'.modeOf = s.modeOf)
      (relays : s'.relays = s.relays) (locks : s'.locks = Function.update s.locks t.code none)
  | registers (phase : t.phase = .outside) (after : t'.phase = .registered) (free : s.relays t.code = none) (modes : s'.modeOf = s.modeOf)
      (relays : s'.relays = Function.update s.relays t.code (some i)) (locks : s'.locks = s.locks)
  | unregisters (phase : t.phase = .registered) (after : t'.phase = .cleaning) (modes : s'.modeOf = s.modeOf)
      (relays : s'.relays = Function.update s.relays t.code none) (locks : s'.locks = s.locks)
  | cleans (phase : t.phase = .cleaning) (after : t'.phase = .left) (init : luck.init = none)
      (modes : ∀ id, s'.modeOf id = s.modeOf id ∧ (t.session = some id → luck.err.isSome = true) ∨
        t.session = some id ∧ s'.modeOf id ≠ some "stream")
      (relays : s'.relays = s.relays) (locks : s'.locks = s.locks)

variable {i : Nat} {luck : Luck} {s s' : Serving} {code text mode : String} {body : Option HandoffRequest} {outcome : Outcome}

theorem finish_spec {r : HandoffAt × Serving} (h : finish code outcome s = some r) : r.1 = .unlocking outcome ∧ r.2.modeOf = s.modeOf ∧
    r.2.relays = s.relays ∧ r.2.locks = s.locks := by
  rw [← Option.some.inj h]
  exact ⟨rfl, rfl, rfl, rfl⟩

@[simp] theorem announce_modeOf {step : PaneStep} : (announce code step s).modeOf = s.modeOf := by
  unfold announce
  split <;> rfl

@[simp] theorem announce_relays {step : PaneStep} : (announce code step s).relays = s.relays := by
  unfold announce
  split <;> rfl

@[simp] theorem announce_locks {step : PaneStep} : (announce code step s).locks = s.locks := by
  unfold announce
  split <;> rfl

theorem none_of_hasRelay (h : s.hasRelay code = false) : s.relays code = none := Option.isSome_eq_false_iff.1 h |> Option.isNone_iff_eq_none.1

theorem writes_updateMode {t : Handler} (ht : t.code = code) : Writes luck t mode s (s.updateMode luck code mode).2 := fun id => by
  rw [Serving.updateMode, Serving.updateMeta_modeOf, ← ht]
  rfl

theorem Writes.of_modeOf {t : Handler} {s₁ : Serving} (hmodes : s'.modeOf = s₁.modeOf) (h : Writes luck t mode s s₁) : Writes luck t mode s s' :=
  fun id => (congrFun hmodes id).trans (h id)

/-- A first look at a session leaves everything but the row of one that is gone. -/
theorem turned_of_lookup {t t' : Handler} (hstarts : t.starts = true) (hphase : t.phase = .outside) (hafter : t'.phase = .outside)
    (hs : s' = (s.getSession luck t.code).2) : Turned i luck t s t' s' := by
  have hmodes : ∀ id, s'.modeOf id = _ := fun id => hs ▸ Serving.getSession_modeOf id
  have hrelays : s'.relays = s.relays := hs ▸ Serving.getSession_relays
  have hlocks : s'.locks = s.locks := hs ▸ Serving.getSession_locks
  have hstays : (∀ id, ¬ (decodeSessionID t.code = some id ∧ luck.gone = true ∧ luck.err = none)) → Turned i luck t s t' s' := fun hnot =>
    .stays (hafter.trans hphase.symm) (funext fun id => (hmodes id).trans (if_neg (hnot id))) hrelays hlocks
  cases hcode : decodeSessionID t.code with
  | none => exact hstays fun id h => by rw [hcode] at h; cases h.1
  | some id =>
    by_cases hgone : luck.gone = true ∧ luck.err = none
    · refine .forgets id hstarts hphase hafter hcode hgone (funext fun id' => ?_) hrelays hlocks
      rw [hmodes id', hcode, Function.update_apply]
      by_cases hid : id' = id
      · rw [if_pos ⟨congrArg some hid.symm, hgone⟩, if_pos hid]
      · rw [if_neg (fun h => hid (Option.some.inj h.1).symm), if_neg hid]
    · exact hstays fun _ h => hgone h.2

theorem turned_of_handleHandoff {at' at'' : HandoffAt} (h : handleHandoff i luck code body at' s = some (at'', s')) :
    Turned i luck (.handoff code body at') s (.handoff code body at'') s' := by
  unfold handleHandoff at h
  split at h
  · split at h
    all_goals
      rename_i hgot
      obtain ⟨rfl, rfl⟩ := Prod.mk.inj (Option.some.inj h)
      exact turned_of_lookup rfl rfl rfl (congrArg Prod.snd hgot).symm
  · split at h
    · obtain ⟨rfl, rfl⟩ := Prod.mk.inj (Option.some.inj h)
      exact .stays rfl rfl rfl rfl
    · rename_i req
      split_ifs at h with hmode hpreset hlock hterm
      all_goals obtain ⟨rfl, rfl⟩ := Prod.mk.inj (Option.some.inj h)
      · exact .stays rfl rfl rfl rfl
      · exact .stays rfl rfl rfl rfl
      · exact .stays rfl rfl rfl rfl
      · refine .takes rfl ?_ ?_ rfl rfl rfl
        · rfl
        · exact Option.not_isSome_iff_eq_none.1 hlock
      · refine .takes rfl ?_ ?_ rfl rfl rfl
        · rfl
        · exact Option.not_isSome_iff_eq_none.1 hlock
  · cases h

/-- A handoff fails by leaving everything as it is. -/
theorem turned_of_finish {at' : HandoffAt} {r : HandoffAt × Serving}
    (hphase : at'.phase = .locked ∨ at'.phase = .cleared ∨ ∃ j, at'.phase = .joined j) (hout : outcome.relay = none)
    (hmodes : s'.modeOf = s.modeOf) (hrelays : s'.relays = s.relays) (hlocks : s'.locks = s.locks) (h : finish code outcome s' = some r) :
    Turned i luck (.handoff code body at') s (.handoff code body r.1) r.2 := by
  obtain ⟨hat, hm, hr, hl⟩ := finish_spec h
  refine .fails hphase ?_ (hm.trans hmodes) (hr.trans hrelays) (hl.trans hlocks)
  rw [Handler.phase, hat, HandoffAt.phase, hout]

theorem modeOf_of_failed {upd : MetaUpdate} {err : String} (h : s.updateMeta luck code upd = (some err, s')) : s' = s := by
  unfold Serving.updateMeta at h
  split at h
  · exact (Prod.mk.inj h).2.symm
  · split at h
    · exact (Prod.mk.inj h).2.symm
    · cases (Prod.mk.inj h).1

theorem turned_of_runHandoff {at' at'' : HandoffAt} (h : runHandoff luck code at' s = some (at'', s')) :
    Turned i luck (.handoff code body at') s (.handoff code body at'') s' := by
  unfold runHandoff at h
  split at h
  · -- the relay that is there has to go first
    split_ifs at h with hnone hmode
    all_goals obtain ⟨rfl, rfl⟩ := Prod.mk.inj (Option.some.inj h)
    · exact .clears (.inl rfl) rfl (none_of_hasRelay (Bool.not_eq_true' _ ▸ hnone)) rfl rfl rfl
    · exact .stays rfl rfl rfl rfl
    · exact .stays rfl rfl rfl rfl
  · split at h
    · rename_i err s₁ hupd
      obtain rfl := modeOf_of_failed hupd
      exact turned_of_finish (.inl rfl) rfl rfl rfl rfl h
    · rename_i s₁ hupd
      obtain ⟨rfl, rfl⟩ := Prod.mk.inj (Option.some.inj h)
      have hs : s₁ = (s.updateMode luck code "terminal").2 := (congrArg Prod.snd hupd).symm
      subst hs
      exact .marks rfl rfl (Writes.of_modeOf rfl (writes_updateMode (by rfl))) Serving.updateMeta_relays Serving.updateMeta_locks
  · rename_i updated
    split_ifs at h with hnone hlate
    · obtain ⟨rfl, rfl⟩ := Prod.mk.inj (Option.some.inj h)
      refine .clears ?_ rfl (none_of_hasRelay (Bool.not_eq_true' _ ▸ hnone)) rfl rfl rfl
      cases updated
      · exact .inl rfl
      · exact .inr rfl
    · cases updated
      · exact turned_of_finish (.inl rfl) rfl rfl rfl rfl h
      · obtain ⟨hat, hm, hr, hl⟩ := finish_spec h
        refine .givesUp code body rfl ?_ hlate ?_ hm hr hl
        · rw [Handler.phase, show at'' = _ from hat]
          rfl
        · exact Bool.not_eq_false _ ▸ (by simpa [Serving.hasRelay] using hnone)
  · rename_i step steps ccSessionID cwd
    split at h
    · obtain ⟨rfl, rfl⟩ := Prod.mk.inj (Option.some.inj h)
      exact .stays rfl rfl rfl rfl
    · split at h
      · exact turned_of_finish (.inr (.inl rfl)) rfl announce_modeOf announce_relays announce_locks h
      · obtain ⟨rfl, rfl⟩ := Prod.mk.inj (Option.some.inj h)
        exact .stays rfl announce_modeOf announce_relays announce_locks
  · split at h
    · rename_i j hj
      obtain ⟨rfl, rfl⟩ := Prod.mk.inj (Option.some.inj h)
      exact .sees j rfl rfl hj rfl rfl rfl
    · split at h
      · exact turned_of_finish (.inr (.inl rfl)) rfl rfl rfl rfl h
      · cases h
  · rename_i j ccSessionID cwd
    split at h
    · rename_i err s₁ hupd
      obtain rfl := modeOf_of_failed hupd
      exact turned_of_finish (.inr (.inr ⟨j, rfl⟩)) rfl rfl rfl rfl h
    · rename_i s₁ hupd
      obtain ⟨hat, hm, hr, hl⟩ := finish_spec h
      have hs : s₁ = (s.updateMeta luck code _).2 := (congrArg Prod.snd hupd).symm
      have hok := Serving.updateMeta_ok (congrArg Prod.fst hupd)
      refine .reports code body j ccSessionID cwd rfl ?_ hok (fun id => ?_) (hr.trans (hs ▸ Serving.updateMeta_relays))
        (hl.trans (hs ▸ Serving.updateMeta_locks))
      · rw [Handler.phase, show at'' = _ from hat]
        rfl
      · rw [show s'.modeOf = _ from hm, hs, Serving.updateMeta_modeOf]
        rfl
  · rename_i outcome
    obtain ⟨rfl, rfl⟩ := Prod.mk.inj (Option.some.inj h)
    exact .unlocks outcome.relay rfl rfl rfl rfl rfl
  · cases h

theorem turned_of_runHandoffToTerm {at' at'' : HandoffAt} (h : runHandoffToTerm luck code at' s = some (at'', s')) :
    Turned i luck (.handoff code body at') s (.handoff code body at'') s' := by
  unfold runHandoffToTerm at h
  split at h
  · split at h
    · exact turned_of_finish (.inl rfl) rfl rfl rfl rfl h
    · split at h
      · rename_i err s₁ hupd
        obtain rfl := modeOf_of_failed hupd
        exact turned_of_finish (.inl rfl) rfl rfl rfl rfl h
      · rename_i s₁ hupd
        obtain ⟨rfl, rfl⟩ := Prod.mk.inj (Option.some.inj h)
        have hs : s₁ = (s.updateMode luck code "terminal").2 := (congrArg Prod.snd hupd).symm
        subst hs
        exact .marks rfl rfl (Writes.of_modeOf rfl (writes_updateMode (by rfl))) Serving.updateMeta_relays Serving.updateMeta_locks
  · split at h
    · obtain ⟨rfl, rfl⟩ := Prod.mk.inj (Option.some.inj h)
      exact .stays rfl rfl rfl rfl
    · rename_i hhas
      obtain ⟨rfl, rfl⟩ := Prod.mk.inj (Option.some.inj h)
      exact .clears (.inr rfl) rfl (none_of_hasRelay (Bool.eq_false_of_not_eq_true hhas)) rfl rfl rfl
  · split_ifs at h with hnone hlate
    all_goals obtain ⟨rfl, rfl⟩ := Prod.mk.inj (Option.some.inj h)
    · exact .clears (.inr rfl) rfl (none_of_hasRelay (Bool.not_eq_true' _ ▸ hnone)) rfl rfl rfl
    · exact .stays rfl rfl rfl rfl
  · split at h
    all_goals obtain ⟨rfl, rfl⟩ := Prod.mk.inj (Option.some.inj h)
    · exact .turnsBack rfl rfl announce_modeOf announce_relays announce_locks
    · exact .stays rfl announce_modeOf announce_relays announce_locks
  · -- whether the id of the agent was cleared is not looked at
    refine turned_of_finish (.inr (.inl rfl)) rfl (funext fun id => ?_) Serving.updateMeta_relays Serving.updateMeta_locks h
    rw [Serving.updateMeta_modeOf]
    split
    · exact Option.map_id'
    · rfl
  · rename_i origMode text
    obtain ⟨hat, hm, hr, hl⟩ := finish_spec h
    refine .rollsBack code body origMode text rfl ?_ (fun id => ?_) (hr.trans Serving.updateMeta_relays) (hl.trans Serving.updateMeta_locks)
    · rw [Handler.phase, show at'' = _ from hat]
      rfl
    · exact Writes.of_modeOf hm (writes_updateMode (by rfl)) id
  · cases h

theorem turned_of_handleCliBridge {captured : Bool} {at' at'' : RelayAt} (hinit : luck.init = none) (h : handleCliBridge i luck code at' s = some (at'', s')) :
    Turned i luck (.relay code captured at') s (.relay code captured at'') s' := by
  unfold handleCliBridge at h
  split at h
  · split at h
    all_goals
      rename_i hgot
      obtain ⟨rfl, rfl⟩ := Prod.mk.inj (Option.some.inj h)
      exact turned_of_lookup rfl rfl rfl (congrArg Prod.snd hgot).symm
  · split at h
    · obtain ⟨rfl, rfl⟩ := Prod.mk.inj (Option.some.inj h)
      exact .stays rfl rfl rfl rfl
    · split at h
      all_goals
        obtain ⟨rfl, rfl⟩ := Prod.mk.inj (Option.some.inj h)
        exact .stays rfl rfl rfl rfl
  · split at h
    · obtain ⟨rfl, rfl⟩ := Prod.mk.inj (Option.some.inj h)
      exact .stays rfl rfl rfl rfl
    · rename_i hhas
      obtain ⟨rfl, rfl⟩ := Prod.mk.inj (Option.some.inj h)
      exact .registers rfl rfl (none_of_hasRelay (Bool.eq_false_of_not_eq_true hhas)) rfl rfl rfl
  · obtain ⟨rfl, rfl⟩ := Prod.mk.inj (Option.some.inj h)
    exact .stays rfl rfl rfl rfl
  · obtain ⟨rfl, rfl⟩ := Prod.mk.inj (Option.some.inj h)
    exact .unregisters rfl rfl rfl rfl rfl
  · split at h
    · rename_i s₁ hgot
      obtain ⟨rfl, rfl⟩ := Prod.mk.inj (Option.some.inj h)
      have hs : s₁ = (s.getSession luck code).2 := (congrArg Prod.snd hgot).symm
      refine .cleans rfl rfl hinit (fun id => ?_) (hs ▸ Serving.getSession_relays) (hs ▸ Serving.getSession_locks)
      have hmode : s₁.modeOf id = _ := hs ▸ Serving.getSession_modeOf id
      by_cases hid : decodeSessionID code = some id
      · rcases Serving.getSession_missed (congrArg Prod.fst hgot) hid with hgone | herr
        · exact .inr ⟨hid, by rw [hmode, if_pos ⟨hid, hgone⟩]; nofun⟩
        · refine .inl ⟨hmode.trans (if_neg fun hall => ?_), fun _ => herr⟩
          rw [hall.2.2] at herr
          cases herr
      · exact .inl ⟨hmode.trans (if_neg fun hall => hid hall.1), fun hsess => absurd hsess hid⟩
    · rename_i sess s₁ hgot
      obtain ⟨rfl, rfl⟩ := Prod.mk.inj (Option.some.inj h)
      have hs : s₁ = (s.getSession luck code).2 := (congrArg Prod.snd hgot).symm
      have hfst : (s.getSession luck code).1 = some sess := congrArg Prod.fst hgot
      have hsome : ∃ id, decodeSessionID code = some id := by
        cases hcode : decodeSessionID code with
        | some id => exact ⟨id, rfl⟩
        | none => simp [Serving.getSession, hcode] at hfst
      obtain ⟨id, hid⟩ := hsome
      obtain ⟨hsame, hstream⟩ := Serving.getSession_found hfst hid
      obtain rfl : s₁ = s := hs.trans hsame
      by_cases hterm : sess.mode = "terminal"
      · rw [if_pos hterm]
        refine .cleans rfl rfl hinit (fun id' => ?_) rfl rfl
        by_cases hid' : id' = id
        · refine .inr ⟨hid'.symm ▸ hid, fun hmode => ?_⟩
          rw [hid'] at hmode
          exact absurd (hterm.symm.trans (hstream hmode)) (by decide)
        · exact .inl ⟨rfl, fun hsess => absurd (Option.some.inj (hsess.symm.trans hid)) hid'⟩
      · rw [if_neg hterm]
        exact .stays rfl rfl rfl rfl
  · obtain ⟨rfl, rfl⟩ := Prod.mk.inj (Option.some.inj h)
    refine .cleans rfl rfl hinit (fun id => ?_) Serving.updateMeta_relays Serving.updateMeta_locks
    have hmode : (s.updateMode luck code "terminal").2.modeOf id = _ := writes_updateMode (t := .relay code captured .reverting) rfl id
    rw [Serving.broadcast_modeOf]
    by_cases hid : decodeSessionID code = some id
    · cases herr : luck.err with
      | none =>
        refine .inr ⟨hid, ?_⟩
        rw [hmode, if_pos ⟨hid, herr⟩]
        intro hstream
        obtain ⟨m, -, hm⟩ := Option.map_eq_some_iff.1 hstream
        exact absurd hm (by decide)
      | some err => exact .inl ⟨hmode.trans (if_neg fun hall => by rw [herr] at hall; cases hall.2), fun _ => rfl⟩
    · exact .inl ⟨hmode.trans (if_neg fun hall => hid hall.1), fun hsess => absurd hsess hid⟩
  · cases h
  · cases h

theorem captureInitMetadata_spec {model sessionID : String} : (captureInitMetadata luck code model sessionID s).modeOf = s.modeOf ∧
    (captureInitMetadata luck code model sessionID s).relays = s.relays ∧ (captureInitMetadata luck code model sessionID s).locks = s.locks := by
  have hmode : ∀ upd : MetaUpdate, upd.mode = none → (s.updateMeta luck code upd).2.modeOf = s.modeOf := fun upd hupd => funext fun id => by
    rw [Serving.updateMeta_modeOf, hupd]
    split
    · exact Option.map_id'
    · rfl
  unfold captureInitMetadata
  dsimp only
  split_ifs
  · exact ⟨rfl, rfl, rfl⟩
  · exact ⟨hmode _ rfl, Serving.updateMeta_relays, Serving.updateMeta_locks⟩
  · exact ⟨hmode _ rfl, Serving.updateMeta_relays, Serving.updateMeta_locks⟩

/-- The handlers do what their phases say. -/
theorem turned_of_serve {t t' : Handler} (h : serveHandler i luck t s = some (t', s')) : Turned i luck t s t' s' := by
  cases t with
  | handoff code body at' =>
    obtain ⟨⟨at'', s₁⟩, hrun, heq⟩ := Option.map_eq_some_iff.1 h
    obtain ⟨rfl, rfl⟩ := Prod.mk.inj heq
    rcases Option.or_eq_some_iff.1 hrun with hrun | ⟨-, hrun⟩
    · exact turned_of_handleHandoff hrun
    · rcases Option.or_eq_some_iff.1 hrun with hrun | ⟨-, hrun⟩
      · exact turned_of_runHandoff hrun
      · exact turned_of_runHandoffToTerm hrun
  | relay code captured at' =>
    unfold serveHandler at h
    dsimp only at h
    split at h
    · obtain ⟨⟨at'', s₁⟩, hrun, heq⟩ := Option.map_eq_some_iff.1 h
      obtain ⟨rfl, rfl⟩ := Prod.mk.inj heq
      exact turned_of_handleCliBridge ‹_› hrun
    · split at h
      · cases h
      · obtain ⟨rfl, rfl⟩ := Prod.mk.inj (Option.some.inj h)
        exact .stays rfl captureInitMetadata_spec.1 captureInitMetadata_spec.2.1 captureInitMetadata_spec.2.2

/-- A handler keeps its code. -/
theorem code_of_serve {t t' : Handler} (h : serveHandler i luck t s = some (t', s')) : t'.code = t.code := by
  cases t with
  | handoff code body at' =>
    obtain ⟨r, -, heq⟩ := Option.map_eq_some_iff.1 h
    rw [← (Prod.mk.inj heq).1]
    rfl
  | relay code captured at' =>
    unfold serveHandler at h
    dsimp only at h
    split at h
    · obtain ⟨r, -, heq⟩ := Option.map_eq_some_iff.1 h
      rw [← (Prod.mk.inj heq).1]
      rfl
    · split at h
      · cases h
      · rw [← (Prod.mk.inj (Option.some.inj h)).1]
        rfl

end Purdex.Stream
