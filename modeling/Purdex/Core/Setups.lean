/-
Setups and changes of the settings: while only one setup at a time begins to write the file, and none after one that
succeeded, the file, the settings in memory and the token that was sent agree.
-/
import Purdex.Core.Pairing
import Mathlib

namespace Purdex.Core

open Conc

/-! ## What a step does to the settings -/

/-- The settings and what guards them. -/
structure Daemon.SameConfig (d d' : Daemon) : Prop where
  mode : d'.mode = d.mode
  cfg : d'.cfg = d.cfg
  lock : d'.lock = d.lock
  dir : d'.dir = d.dir

variable {encode : Config → List UInt8} {d d' : Daemon} {luck : Luck} {i j : Nat}

theorem sameConfig_refl (d : Daemon) : d.SameConfig d := ⟨rfl, rfl, rfl, rfl⟩

theorem verify_sameConfig {secret : Option String} : ∀ {at' at'' : VerifyAt}, handlePairVerify luck secret at' d = some (at'', d') → d.SameConfig d'
  | .start, _, h => (Prod.mk.inj (Option.some.inj h)).2 ▸ sameConfig_refl d
  | .checked, _, h => by
    unfold handlePairVerify at h
    dsimp only at h
    split at h
    · exact (Prod.mk.inj (Option.some.inj h)).2 ▸ sameConfig_refl d
    · split at h
      · cases h
      · exact (Prod.mk.inj (Option.some.inj h)).2 ▸ sameConfig_refl d
  | .read _ _, _, h => by
    unfold handlePairVerify at h
    dsimp only at h
    split at h
    · exact (Prod.mk.inj (Option.some.inj h)).2 ▸ sameConfig_refl d
    · split at h <;> exact (Prod.mk.inj (Option.some.inj h)).2 ▸ ⟨rfl, rfl, rfl, rfl⟩
  | .tenth, _, h => by
    unfold handlePairVerify at h
    dsimp only at h
    split at h
    · exact (Prod.mk.inj (Option.some.inj h)).2 ▸ sameConfig_refl d
    · split at h
      · cases h
      · exact (Prod.mk.inj (Option.some.inj h)).2 ▸ ⟨rfl, rfl, rfl, rfl⟩
  | .renewed, _, h => (Prod.mk.inj (Option.some.inj h)).2 ▸ ⟨rfl, rfl, rfl, rfl⟩
  | .reset, _, h => by
    unfold handlePairVerify at h
    dsimp only at h
    split at h
    · cases h
    · split at h
      · exact (Prod.mk.inj (Option.some.inj h)).2 ▸ sameConfig_refl d
      · split at h <;> exact (Prod.mk.inj (Option.some.inj h)).2 ▸ ⟨rfl, rfl, rfl, rfl⟩
  | .answered .., _, h => by cases h

theorem validate_sameConfig (secret : String) (d : Daemon) : d.SameConfig (d.validate secret).2 := by
  unfold Daemon.validate
  split <;> exact ⟨rfl, rfl, rfl, rfl⟩

/-- It has begun to write the file, and has not failed. -/
def SetupAt.begun : SetupAt → Bool
  | .writing _ at' => at' ≠ .start
  | .persisted | .stored => true
  | .answered status => status = 200
  | _ => false

/-- It has written the file. -/
def SetupAt.committed : SetupAt → Bool
  | .persisted | .stored => true
  | .answered status => status = 200
  | _ => false

/-- The token that a setup carries. -/
def tokenOf (body : Option (String × String)) : String := (body.getD ("", "")).2

/-- Everything a setup does. -/
inductive SetUp (encode : Config → List UInt8) (luck : Luck) (body : Option (String × String)) : SetupAt → Daemon → SetupAt → Daemon → Prop where
  | quiet {at' at'' : SetupAt} {d d' : Daemon} : d.SameConfig d' → at'.begun = false → at''.begun = false → (∀ c a, at'' ≠ .writing c a) →
      SetUp encode luck body at' d at'' d'
  | copies (d : Daemon) : SetUp encode luck body .accepted d (.writing { d.cfg with token := tokenOf body } .start) d
  | writes {c : Config} {at' next : WriteAt} {d : Daemon} {dir : ConfigDir} : writeFile (encode c) luck.ok luck.n at' d.dir = (.going next, dir) →
      SetUp encode luck body (.writing c at') d (.writing c next) { d with dir }
  | wrote {c : Config} {at' : WriteAt} {d : Daemon} {dir : ConfigDir} : writeFile (encode c) luck.ok luck.n at' d.dir = (.done, dir) →
      SetUp encode luck body (.writing c at') d .persisted { d with dir }
  | fails {c : Config} {at' : WriteAt} {d : Daemon} {dir : ConfigDir} : writeFile (encode c) luck.ok luck.n at' d.dir = (.failed, dir) →
      SetUp encode luck body (.writing c at') d (.answered 500) { d with dir }
  | stores (d : Daemon) : SetUp encode luck body .persisted d .stored { d with cfg := { d.cfg with token := tokenOf body } }
  | ends (d : Daemon) : SetUp encode luck body .stored d (.answered 200) { d with mode := .normal }

theorem setUp_of_setup {body : Option (String × String)} : ∀ {at' at'' : SetupAt}, handlePairSetup encode luck body at' d = some (at'', d') →
    SetUp encode luck body at' d at'' d'
  | .start, at'', h => by
    obtain ⟨rfl, rfl⟩ := Prod.mk.inj (Option.some.inj h)
    refine .quiet (sameConfig_refl _) rfl ?_ ?_
    · split <;> rfl
    · intro c a
      split <;> nofun
  | .checked, at'', h => by
    unfold handlePairSetup at h
    dsimp only at h
    split at h
    · obtain ⟨rfl, rfl⟩ := Prod.mk.inj (Option.some.inj h)
      exact .quiet (sameConfig_refl _) rfl rfl nofun
    · obtain ⟨rfl, rfl⟩ := Prod.mk.inj (Option.some.inj h)
      refine .quiet (validate_sameConfig _ d) rfl ?_ ?_
      · split
        · rfl
        · split <;> rfl
      · intro c a
        split
        · nofun
        · split <;> nofun
  | .accepted, at'', h => by
    unfold handlePairSetup at h
    dsimp only at h
    split at h
    · cases h
    · obtain ⟨rfl, rfl⟩ := Prod.mk.inj (Option.some.inj h)
      exact .copies _
  | .writing c at', at'', h => by
    unfold handlePairSetup at h
    dsimp only at h
    split at h <;> rename_i hwrite <;> obtain ⟨rfl, rfl⟩ := Prod.mk.inj (Option.some.inj h)
    · exact .writes hwrite
    · exact .wrote hwrite
    · exact .fails hwrite
  | .persisted, at'', h => by
    unfold handlePairSetup at h
    dsimp only at h
    split at h
    · cases h
    · obtain ⟨rfl, rfl⟩ := Prod.mk.inj (Option.some.inj h)
      exact .stores _
  | .stored, at'', h => by
    obtain ⟨rfl, rfl⟩ := Prod.mk.inj (Option.some.inj h)
    exact .ends _
  | .answered _, at'', h => by cases h

/-- Everything a change of the settings does. -/
inductive PutIn (encode : Config → List UInt8) (i : Nat) (luck : Luck) (body : Option ConfigUpdate) : PutAt → Daemon → PutAt → Daemon → Prop where
  | quiet {at' : PutAt} {status : Nat} (d : Daemon) : (∀ s a, at' ≠ .writing s a) → status ≠ 200 → PutIn encode i luck body at' d (.answered status) d
  | admitted (d : Daemon) : d.mode ≠ .pairing → PutIn encode i luck body .start d .admitted d
  | locks (upd : ConfigUpdate) (d : Daemon) : body = some upd → d.lock = none →
      PutIn encode i luck body .admitted d (.writing d.cfg .start) { d with cfg := upd.apply d.cfg, lock := some i }
  | writes {snapshot : Config} {at' next : WriteAt} {d : Daemon} {dir : ConfigDir} :
      writeFile (encode d.cfg) luck.ok luck.n at' d.dir = (.going next, dir) →
      PutIn encode i luck body (.writing snapshot at') d (.writing snapshot next) { d with dir }
  | wrote {snapshot : Config} {at' : WriteAt} {d : Daemon} {dir : ConfigDir} : writeFile (encode d.cfg) luck.ok luck.n at' d.dir = (.done, dir) →
      PutIn encode i luck body (.writing snapshot at') d (.answered 200) { d with dir, lock := none }
  | fails {snapshot : Config} {at' : WriteAt} {d : Daemon} {dir : ConfigDir} : writeFile (encode d.cfg) luck.ok luck.n at' d.dir = (.failed, dir) →
      PutIn encode i luck body (.writing snapshot at') d (.answered 500) { d with dir, cfg := snapshot, lock := none }

theorem putIn_of_put {body : Option ConfigUpdate} : ∀ {at' at'' : PutAt}, handlePutConfig encode i luck body at' d = some (at'', d') →
    PutIn encode i luck body at' d at'' d'
  | .start, at'', h => by
    obtain ⟨rfl, rfl⟩ := Prod.mk.inj (Option.some.inj h)
    split
    · exact .quiet _ nofun (by decide)
    · rename_i hmode
      exact .admitted _ hmode
  | .admitted, at'', h => by
    unfold handlePutConfig at h
    dsimp only at h
    split at h
    · obtain ⟨rfl, rfl⟩ := Prod.mk.inj (Option.some.inj h)
      exact .quiet _ nofun (by decide)
    · split at h
      · cases h
      · rename_i hlock
        split at h <;> obtain ⟨rfl, rfl⟩ := Prod.mk.inj (Option.some.inj h)
        · exact .quiet _ nofun (by decide)
        · exact .locks _ _ rfl (by simpa using hlock)
  | .writing snapshot at', at'', h => by
    unfold handlePutConfig at h
    dsimp only at h
    split at h <;> rename_i hwrite <;> obtain ⟨rfl, rfl⟩ := Prod.mk.inj (Option.some.inj h)
    · exact .writes hwrite
    · exact .wrote hwrite
    · exact .fails hwrite
  | .answered _, at'', h => by cases h

/-! ## One setup at a time -/

def Request.begun : Request → Bool
  | .setup _ at' => at'.begun
  | _ => false

def Request.isPaired : Request → Bool
  | .setup _ (.answered status) => status = 200
  | _ => false

/-- It is writing the file with the settings locked. -/
def Request.isLocking : Request → Bool
  | .put _ (.writing ..) => true
  | _ => false

/-- When a step of a setup may come: it begins to write the file only when every other that began to has failed. -/
def SetupOk (w : Served) : Call → Prop
  | .turn i luck => match w.threads[i]? with
    | some (.setup _ (.writing _ .start)) => luck.ok = true → ∀ t ∈ w.threads, t.begun = false
    | _ => True
  | _ => True

def setupOk (w : Served) : Call → Bool
  | .turn i luck => match w.threads[i]? with
    | some (.setup _ (.writing _ .start)) => !luck.ok || w.threads.all fun t => !t.begun
    | _ => true
  | _ => true

theorem setupOk_iff (w : Served) (mv : Call) : setupOk w mv = true ↔ SetupOk w mv := by
  unfold setupOk SetupOk
  split
  · rename_i luck
    split
    · cases luck.ok <;> simp
    · simp
  · simp

instance (w : Served) (mv : Call) : Decidable (SetupOk w mv) := decidable_of_iff _ (setupOk_iff w mv)

/-- What holds where a request is. -/
def Holds (encode : Config → List UInt8) (d : Daemon) (i : Nat) : Request → Prop
  | .setup body (.writing c at') => (d.mode = .pairing → c = { d.cfg with token := tokenOf body }) ∧
      (at' ≠ .start → d.mode = .pairing ∧ at'.Sole (encode c) d.dir)
  | .setup body .persisted => d.mode = .pairing ∧ d.dir.file = some (encode { d.cfg with token := tokenOf body })
  | .setup body .stored => d.mode = .pairing ∧ d.dir.file = some (encode d.cfg) ∧ d.cfg.token = tokenOf body
  | .setup body (.answered status) => status = 200 → d.mode = .normal ∧ d.cfg.token = tokenOf body
  | .put _ .admitted => d.mode ≠ .pairing
  | .put body (.writing snapshot at') => d.mode = .normal ∧ d.lock = some i ∧ d.dir.file = some (encode snapshot) ∧
      (∃ upd, body = some upd ∧ d.cfg = upd.apply snapshot) ∧ at'.Sole (encode d.cfg) d.dir
  | _ => True

structure SetupInv (encode : Config → List UInt8) (d : Daemon) (ts : List Request) : Prop where
  dir : d.dir.Ok
  mode : d.mode = .pairing ∨ d.mode = .normal
  one : ∀ (i j : Nat) (t u : Request), ts[i]? = some t → ts[j]? = some u → t.begun = true → u.begun = true → i = j
  paired : d.mode = .normal → ∃ t ∈ ts, t.isPaired = true
  lock : ∀ i, d.lock = some i → ∃ t : Request, ts[i]? = some t ∧ t.isLocking = true
  file : d.mode = .normal → d.lock = none → d.dir.file = some (encode d.cfg)
  each : ∀ (i : Nat) (t : Request), ts[i]? = some t → Holds encode d i t

theorem setupInv_begins {w : Served} (h : Begins w) : SetupInv encode w.shared w.threads where
  dir := h.dir
  mode := .inl h.mode
  one i j t u hi := by simp [h.threads] at hi
  paired hmode := by rw [h.mode] at hmode; cases hmode
  lock i hlock := by rw [h.lock] at hlock; cases hlock
  file hmode := by rw [h.mode] at hmode; cases hmode
  each i t hi := by simp [h.threads] at hi

theorem begun_of_isPaired {t : Request} (h : t.isPaired = true) : t.begun = true := by
  unfold Request.isPaired at h
  split at h
  · exact h
  · cases h

theorem holds_same (hsame : d.SameConfig d') : ∀ {t : Request}, Holds encode d i t → Holds encode d' i t := by
  obtain ⟨hmode, hcfg, hlock, hdir⟩ := hsame
  intro t h
  unfold Holds at h ⊢
  rw [hmode, hcfg, hlock, hdir]
  exact h

/-- While the daemon is pairing, what does not write the file only depends on the settings but for the token. -/
theorem holds_pairing (hmode : d.mode = .pairing) (hcfg : ∀ token, { d'.cfg with token } = { d.cfg with token }) : ∀ {t : Request}, t.begun = false → Holds encode d j t → Holds encode d' j t
  | .setup body (.writing c .start), _, h => ⟨fun _ => (h.1 hmode).trans (hcfg _).symm, fun hne => absurd rfl hne⟩
  | .setup _ (.writing _ (.opened _)), hb, _ | .setup _ (.writing _ (.written ..)), hb, _ | .setup _ (.writing _ .closed), hb, _ => by cases hb
  | .setup _ .persisted, hb, _ | .setup _ .stored, hb, _ => by cases hb
  | .setup _ .start, _, _ | .setup _ .checked, _, _ | .setup _ .accepted, _, _ => trivial
  | .setup _ (.answered _), hb, _ => fun h200 => absurd h200 (by simpa [Request.begun, SetupAt.begun] using hb)
  | .put _ .admitted, _, h => absurd hmode h
  | .put _ (.writing ..), _, h => absurd (hmode.symm.trans h.1) nofun
  | .put _ .start, _, _ | .put _ (.answered _), _, _ | .verify .., _, _ => trivial

/-- Once it is paired, what does not hold the lock only depends on the token. -/
theorem holds_normal (hmode : d.mode = .normal) (hmode' : d'.mode = .normal) (htoken : d'.cfg.token = d.cfg.token) :
    ∀ {t : Request}, t.isLocking = false → Holds encode d j t → Holds encode d' j t
  | .setup _ (.writing ..), _, h => ⟨fun hp => absurd (hmode'.symm.trans hp) nofun, fun hne => absurd (hmode.symm.trans (h.2 hne).1) nofun⟩
  | .setup _ .persisted, _, h | .setup _ .stored, _, h => absurd (hmode.symm.trans h.1) nofun
  | .setup _ .start, _, _ | .setup _ .checked, _, _ | .setup _ .accepted, _, _ => trivial
  | .setup _ (.answered _), _, h => fun h200 => ⟨hmode', htoken.trans (h h200).2⟩
  | .put _ .admitted, _, _ => fun hp => absurd (hmode'.symm.trans hp) nofun
  | .put _ (.writing ..), hl, _ => by cases hl
  | .put _ .start, _, _ | .put _ (.answered _), _, _ | .verify .., _, _ => trivial

section Steps

variable {ts : List Request} {t t' : Request}

/-- What is to be shown of a step of one request. -/
theorem setupInv_set (hinv : SetupInv encode d ts) (hget : ts[i]? = some t) (hdir : d'.dir.Ok) (hmode : d'.mode = .pairing ∨ d'.mode = .normal)
    (hbegun : t'.begun = true → ∀ j u, j ≠ i → ts[j]? = some u → u.begun = false)
    (hpaired : d'.mode = .normal → t'.isPaired = true ∨ d.mode = .normal ∧ t.isPaired = false)
    (hlock : ∀ k, d'.lock = some k → k = i ∧ t'.isLocking = true ∨ k ≠ i ∧ d.lock = some k)
    (hfile : d'.mode = .normal → d'.lock = none → d'.dir.file = some (encode d'.cfg)) (hself : Holds encode d' i t')
    (hothers : ∀ j u, j ≠ i → ts[j]? = some u → Holds encode d j u → Holds encode d' j u) : SetupInv encode d' (ts.set i t') := by
  have hone : ∀ k u, k ≠ i → ts[k]? = some u → u.begun = true → t'.begun = true → False := fun k u hk hu hub ht' =>
    absurd (hub.symm.trans (hbegun ht' k u hk hu)) nofun
  refine ⟨hdir, hmode, fun k l u v hu hv hub hvb => ?_, fun hnormal => ?_, fun k hk => ?_, hfile, fun k u hu => ?_⟩
  · rw [getElem?_set_of_some hget] at hu hv
    split at hu <;> split at hv
    · omega
    · rename_i hik hil
      obtain rfl := Option.some.inj hu
      exact (hone l v (Ne.symm hil) hv hvb hub).elim
    · rename_i hik hil
      obtain rfl := Option.some.inj hv
      exact (hone k u (Ne.symm hik) hu hub hvb).elim
    · exact hinv.one k l u v hu hv hub hvb
  · rcases hpaired hnormal with ht' | ⟨hold, ht⟩
    · exact ⟨t', mem_set_of_some hget, ht'⟩
    · obtain ⟨u, hu, hup⟩ := hinv.paired hold
      obtain ⟨k, hk⟩ := List.mem_iff_getElem?.1 hu
      have hik : i ≠ k := fun heq => by
        subst heq
        obtain rfl := Option.some.inj (hget.symm.trans hk)
        rw [ht] at hup
        cases hup
      exact ⟨u, List.mem_of_getElem? ((getElem?_set_of_some hget k).trans ((if_neg hik).trans hk)), hup⟩
  · rcases hlock k hk with ⟨rfl, ht'⟩ | ⟨hki, hold⟩
    · exact ⟨t', (getElem?_set_of_some hget k).trans (if_pos rfl), ht'⟩
    · obtain ⟨u, hu, hul⟩ := hinv.lock k hold
      exact ⟨u, (getElem?_set_of_some hget k).trans ((if_neg (Ne.symm hki)).trans hu), hul⟩
  · rw [getElem?_set_of_some hget] at hu
    split at hu
    · rename_i hik
      subst hik
      obtain rfl := Option.some.inj hu
      exact hself
    · rename_i hik
      exact hothers k u (Ne.symm hik) hu (hinv.each k u hu)

/-- Next to one that has begun the others have not. -/
theorem alone_of_begun (hinv : SetupInv encode d ts) (hget : ts[i]? = some t) (ht : t.begun = true) : ∀ j u, j ≠ i → ts[j]? = some u → u.begun = false :=
  fun j u hj hu => Bool.eq_false_iff.2 fun hub => hj (hinv.one j i u t hu hget hub ht)

/-- A step that leaves the settings alone. -/
theorem setupInv_quiet (hinv : SetupInv encode d ts) (hget : ts[i]? = some t) (hsame : d.SameConfig d') (hbegun : t'.begun = true → t.begun = true)
    (hpaired : t.isPaired = false) (hlocking : t.isLocking = false) (hself : Holds encode d' i t') : SetupInv encode d' (ts.set i t') := by
  have hnot : ∀ k, d.lock = some k → k ≠ i := fun k hk heq => by
    subst heq
    obtain ⟨u, hu, hul⟩ := hinv.lock k hk
    obtain rfl := Option.some.inj (hget.symm.trans hu)
    rw [hlocking] at hul
    cases hul
  refine setupInv_set hinv hget (hsame.dir ▸ hinv.dir) (hsame.mode ▸ hinv.mode) (fun ht' => alone_of_begun hinv hget (hbegun ht')) (fun hm => .inr ⟨hsame.mode ▸ hm, hpaired⟩)
    (fun k hk => .inr ⟨hnot k (hsame.lock ▸ hk), hsame.lock ▸ hk⟩) (fun hm hl => ?_) hself fun _ _ _ _ => holds_same hsame
  rw [hsame.dir, hsame.cfg]
  exact hinv.file (hsame.mode ▸ hm) (hsame.lock ▸ hl)

/-- A setup that writes the file is alone, and the daemon still pairing. -/
theorem sole_of_writing {w : Served} {body : Option (String × String)} {c : Config} {at' : WriteAt} (hinv : SetupInv encode w.shared w.threads)
    (hget : w.threads[i]? = some (.setup body (.writing c at'))) (hok : SetupOk w (.turn i luck)) (hbegins : at' = .start → luck.ok = true) :
    w.shared.mode = .pairing ∧ c = { w.shared.cfg with token := tokenOf body } ∧ at'.Sole (encode c) w.shared.dir ∧
      ∀ j u, j ≠ i → w.threads[j]? = some u → u.begun = false := by
  obtain ⟨hcopy, hsole⟩ := hinv.each i _ hget
  by_cases hstart : at' = .start
  · subst hstart
    simp only [SetupOk, hget] at hok
    have hnone : ∀ t ∈ w.threads, t.begun = false := hok (hbegins rfl)
    have hmode : w.shared.mode = .pairing := hinv.mode.resolve_right fun hnormal => by
      obtain ⟨u, hu, hup⟩ := hinv.paired hnormal
      have := hnone u hu
      rw [begun_of_isPaired hup] at this
      cases this
    exact ⟨hmode, hcopy hmode, trivial, fun j u _ hu => hnone u (List.mem_of_getElem? hu)⟩
  · obtain ⟨hmode, hat⟩ := hsole hstart
    exact ⟨hmode, hcopy hmode, hat, alone_of_begun hinv hget (by simp [Request.begun, SetupAt.begun, hstart])⟩

/-- One step of a setup; only one that has written the file changes the token anywhere. -/
theorem setupInv_setup {w : Served} {body : Option (String × String)} {at' at'' : SetupAt} (hinv : SetupInv encode w.shared w.threads)
    (hget : w.threads[i]? = some (.setup body at')) (hok : SetupOk w (.turn i luck))
    (h : handlePairSetup encode luck body at' w.shared = some (at'', d')) :
    SetupInv encode d' (w.threads.set i (.setup body at'')) ∧
      (d'.cfg.token = w.shared.cfg.token ∧ d'.dir.file = w.shared.dir.file ∨ at''.committed = true) := by
  have hstep := setUp_of_setup h
  generalize hd : w.shared = d at hstep
  have hinv' : SetupInv encode d w.threads := hd ▸ hinv
  -- what the others rely on while this one writes
  have hothers : (∀ j u, j ≠ i → w.threads[j]? = some u → u.begun = false) → d.mode = .pairing →
      (∀ token, { d'.cfg with token } = { d.cfg with token }) → ∀ j u, j ≠ i → w.threads[j]? = some u → Holds encode d j u → Holds encode d' j u :=
    fun halone hmode hcfg j u hj hu => holds_pairing hmode hcfg (halone j u hj hu)
  have hlock : d.mode = .pairing → d.lock = none := fun hmode => by
    cases hlock : d.lock with
    | none => rfl
    | some k =>
      obtain ⟨u, hu, hul⟩ := hinv'.lock k hlock
      have hholds := hinv'.each k u hu
      cases u with
      | put b a =>
        cases a with
        | writing s a => exact absurd (hmode.symm.trans hholds.1) nofun
        | _ => cases hul
      | _ => cases hul
  cases hstep with
  | quiet hsame hold hnew hwriting =>
    refine ⟨setupInv_quiet hinv' hget hsame (fun ht => absurd (hnew.symm.trans ht) nofun) ?_ rfl ?_, .inl ⟨by rw [hsame.cfg], by rw [hsame.dir]⟩⟩
    · cases at' with
      | answered status => exact hold
      | _ => rfl
    · cases at'' with
      | writing c a => exact absurd rfl (hwriting c a)
      | persisted => cases hnew
      | stored => cases hnew
      | answered status => exact fun h200 => absurd h200 (by simpa [SetupAt.begun] using hnew)
      | _ => trivial
  | copies =>
    exact ⟨setupInv_quiet hinv' hget (sameConfig_refl _) nofun rfl rfl ⟨fun _ => rfl, fun hne => absurd rfl hne⟩, .inl ⟨rfl, rfl⟩⟩
  | @writes c at' next _ dir hwrite =>
    subst hd
    obtain ⟨hmode, hc, hsole, halone⟩ := sole_of_writing hinv hget hok (begins_of_writeFile hwrite nofun)
    obtain ⟨hdir, ⟨next', hgoing, hnext, hstart, hfile⟩ | ⟨hfailed, -⟩ | ⟨hdone, -⟩⟩ := writeFile_sole hinv.dir hsole hwrite
    · obtain rfl := Wrote.going.inj hgoing
      refine ⟨setupInv_set hinv hget hdir hinv.mode (fun _ => halone) (fun hm => ?_) (fun k hk => ?_) (fun hm => ?_) ⟨fun _ => hc, fun _ => ⟨hmode, hnext⟩⟩
        (hothers halone hmode fun _ => rfl), .inl ⟨rfl, hfile⟩⟩
      · exact absurd (hmode.symm.trans hm) nofun
      · exact absurd ((hlock hmode).symm.trans hk) nofun
      · exact absurd (hmode.symm.trans hm) nofun
    · cases hfailed
    · cases hdone
  | @wrote c at' _ dir hwrite =>
    subst hd
    obtain ⟨hmode, hc, hsole, halone⟩ := sole_of_writing hinv hget hok (begins_of_writeFile hwrite nofun)
    obtain ⟨hdir, ⟨next', hgoing, -⟩ | ⟨hfailed, -⟩ | ⟨-, hfile⟩⟩ := writeFile_sole hinv.dir hsole hwrite
    · cases hgoing
    · cases hfailed
    · refine ⟨setupInv_set hinv hget hdir hinv.mode (fun _ => halone) (fun hm => ?_) (fun k hk => ?_) (fun hm => ?_) ⟨hmode, hc ▸ hfile⟩
        (hothers halone hmode fun _ => rfl), .inr rfl⟩
      · exact absurd (hmode.symm.trans hm) nofun
      · exact absurd ((hlock hmode).symm.trans hk) nofun
      · exact absurd (hmode.symm.trans hm) nofun
  | @fails c at' _ dir hwrite =>
    subst hd
    by_cases hbegins : at' = .start → luck.ok = true
    · obtain ⟨hmode, hc, hsole, halone⟩ := sole_of_writing hinv hget hok hbegins
      obtain ⟨hdir, ⟨next', hgoing, -⟩ | ⟨-, hfile⟩ | ⟨hdone, -⟩⟩ := writeFile_sole hinv.dir hsole hwrite
      · cases hgoing
      · refine ⟨setupInv_set hinv hget hdir hinv.mode (fun hb => by cases hb) (fun hm => ?_) (fun k hk => ?_) (fun hm => ?_) nofun (hothers halone hmode fun _ => rfl),
          .inl ⟨rfl, hfile⟩⟩
        · exact absurd (hmode.symm.trans hm) nofun
        · exact absurd ((hlock hmode).symm.trans hk) nofun
        · exact absurd (hmode.symm.trans hm) nofun
      · cases hdone
    · obtain ⟨rfl, hluck⟩ := Classical.not_imp.1 hbegins
      simp only [writeFile, if_neg hluck] at hwrite
      obtain ⟨-, rfl⟩ := Prod.mk.inj hwrite
      exact ⟨setupInv_quiet hinv hget (sameConfig_refl _) (fun hb => by cases hb) rfl rfl nofun, .inl ⟨rfl, rfl⟩⟩
  | stores =>
    obtain ⟨hmode, hfile⟩ := hinv'.each i _ hget
    refine ⟨setupInv_set hinv' hget hinv'.dir hinv'.mode (fun _ => alone_of_begun hinv' hget rfl) (fun hm => ?_) (fun k hk => ?_) (fun hm => ?_) ⟨hmode, hfile, rfl⟩
      (hothers (alone_of_begun hinv' hget rfl) hmode fun _ => rfl), .inr rfl⟩
    · exact absurd (hmode.symm.trans hm) nofun
    · exact absurd ((hlock hmode).symm.trans hk) nofun
    · exact absurd (hmode.symm.trans hm) nofun
  | ends =>
    obtain ⟨hmode, hfile, htoken⟩ := hinv'.each i _ hget
    exact ⟨setupInv_set hinv' hget hinv'.dir (.inr rfl) (fun _ => alone_of_begun hinv' hget rfl) (fun _ => .inl rfl)
      (fun k hk => absurd ((hlock hmode).symm.trans hk) nofun) (fun _ _ => hfile) (fun _ => ⟨rfl, htoken⟩)
      (hothers (alone_of_begun hinv' hget rfl) hmode fun _ => rfl), .inr rfl⟩

/-- One step of a change of the settings. -/
theorem setupInv_put {body : Option ConfigUpdate} {at' at'' : PutAt} (hinv : SetupInv encode d ts)
    (hget : ts[i]? = some (.put body at')) (h : handlePutConfig encode i luck body at' d = some (at'', d')) :
    SetupInv encode d' (ts.set i (.put body at'')) := by
  have hlocked : d.lock = some i → ∀ j u, j ≠ i → ts[j]? = some u → u.isLocking = false := fun hlock j u hj hu => by
    cases u with
    | put b a =>
      cases a with
      | writing s a => exact absurd (Option.some.inj ((hinv.each j _ hu).2.1.symm.trans hlock)) hj
      | _ => rfl
    | _ => rfl
  cases putIn_of_put h with
  | quiet _ hold hstatus =>
    refine setupInv_quiet hinv hget (sameConfig_refl _) nofun rfl ?_ trivial
    cases at' with
    | writing s a => exact absurd rfl (hold s a)
    | _ => rfl
  | admitted _ hmode => exact setupInv_quiet hinv hget (sameConfig_refl _) nofun rfl rfl hmode
  | locks upd _ hbody hlock =>
    have hmode : d.mode = .normal := hinv.mode.resolve_left (hinv.each i _ hget)
    have hfile := hinv.file hmode hlock
    refine setupInv_set hinv hget hinv.dir (.inr hmode) nofun (fun _ => .inr ⟨hmode, rfl⟩) (fun k hk => .inl ⟨(Option.some.inj hk).symm, rfl⟩)
      nofun ⟨hmode, rfl, hfile, ⟨upd, hbody, rfl⟩, trivial⟩ fun j u hj hu hholds => holds_normal hmode (by exact hmode) (by rfl) ?_ hholds
    cases u with
    | put b a =>
      cases a with
      | writing s a => exact absurd (hlock.symm.trans (hinv.each j _ hu).2.1) nofun
      | _ => rfl
    | _ => rfl
  | @writes snapshot at' next _ dir hwrite =>
    obtain ⟨hmode, hlock, hsnapshot, hupd, hsole⟩ := hinv.each i _ hget
    obtain ⟨hdir, ⟨next', hgoing, hnext, hstart, hfile⟩ | ⟨hfailed, -⟩ | ⟨hdone, -⟩⟩ := writeFile_sole hinv.dir hsole hwrite
    · obtain rfl := Wrote.going.inj hgoing
      exact setupInv_set hinv hget hdir (.inr hmode) nofun (fun _ => .inr ⟨hmode, rfl⟩)
        (fun k hk => .inl ⟨(Option.some.inj (hlock.symm.trans hk)).symm, rfl⟩) (fun _ hl => absurd (hlock.symm.trans hl) nofun)
        ⟨hmode, hlock, hfile.trans hsnapshot, hupd, hnext⟩ fun j u hj hu => holds_normal hmode (by exact hmode) (by rfl) (hlocked hlock j u hj hu)
    · cases hfailed
    · cases hdone
  | @wrote snapshot at' _ dir hwrite =>
    obtain ⟨hmode, hlock, -, -, hsole⟩ := hinv.each i _ hget
    obtain ⟨hdir, ⟨next', hgoing, -⟩ | ⟨hfailed, -⟩ | ⟨-, hfile⟩⟩ := writeFile_sole hinv.dir hsole hwrite
    · cases hgoing
    · cases hfailed
    · exact setupInv_set hinv hget hdir (.inr hmode) nofun (fun _ => .inr ⟨hmode, rfl⟩) nofun (fun _ _ => hfile) trivial
        fun j u hj hu => holds_normal hmode (by exact hmode) (by rfl) (hlocked hlock j u hj hu)
  | @fails snapshot at' _ dir hwrite =>
    obtain ⟨hmode, hlock, hsnapshot, ⟨upd, -, hupd⟩, hsole⟩ := hinv.each i _ hget
    have htoken : snapshot.token = d.cfg.token := by rw [hupd, apply_token]
    obtain ⟨hdir, ⟨next', hgoing, -⟩ | ⟨-, hfile⟩ | ⟨hdone, -⟩⟩ := writeFile_sole hinv.dir hsole hwrite
    · cases hgoing
    · exact setupInv_set hinv hget hdir (.inr hmode) nofun (fun _ => .inr ⟨hmode, rfl⟩) nofun (fun _ _ => hfile.trans hsnapshot) trivial
        fun j u hj hu => holds_normal hmode (by exact hmode) (by exact htoken) (hlocked hlock j u hj hu)
    · cases hdone

/-- A request comes in. -/
theorem setupInv_append (hinv : SetupInv encode d ts) (hbegun : t.begun = false) (hholds : Holds encode d ts.length t) : SetupInv encode d (ts ++ [t]) := by
  have hnot : t.begun ≠ true := by simp [hbegun]
  refine ⟨hinv.dir, hinv.mode, fun k l u v hu hv hub hvb => ?_, fun hm => ?_, fun k hk => ?_, hinv.file, fun k u hu => ?_⟩
  · rcases of_getElem?_append hu with hu | ⟨-, rfl⟩
    · rcases of_getElem?_append hv with hv | ⟨-, rfl⟩
      · exact hinv.one k l u v hu hv hub hvb
      · exact absurd hvb hnot
    · exact absurd hub hnot
  · obtain ⟨u, hu, hup⟩ := hinv.paired hm
    exact ⟨u, List.mem_append_left _ hu, hup⟩
  · obtain ⟨u, hu, hul⟩ := hinv.lock k hk
    exact ⟨u, getElem?_append_of_some hu, hul⟩
  · rcases of_getElem?_append hu with hu | ⟨rfl, rfl⟩
    · exact hinv.each k u hu
    · exact hholds

theorem begun_of_fresh : ∀ {t : Request}, t.Fresh → t.begun = false ∧ Holds encode d i t
  | .verify .., _ => ⟨rfl, trivial⟩
  | .setup _ .start, _ => ⟨rfl, trivial⟩
  | .put _ .start, _ => ⟨rfl, trivial⟩

end Steps

/-! ## Runs -/

theorem setupInv_runs {ok : Served → Call → Prop} (hok : ∀ w mv, ok w mv → SetupOk w mv ∧ ∀ t, mv = .start t → t.Fresh) {w : Served}
    {tr : List (Moved Daemon Request Luck Nat)} (hr : (pairing encode).Runs Begins ok w tr) : SetupInv encode w.shared w.threads := by
  refine hr.invariant (P := fun w _ => SetupInv encode w.shared w.threads) (fun w => setupInv_begins) fun w w' tr mv _ hinv hmv hst => ?_
  rcases Stages.step_cases hst with ⟨t, rfl, rfl⟩ | ⟨i, luck, t, t', d', rfl, hget, hact, rfl⟩ | ⟨n, rfl, rfl⟩
  · obtain ⟨hbegun, hholds⟩ := begun_of_fresh ((hok w _ hmv).2 t rfl)
    exact setupInv_append hinv hbegun hholds
  · cases t with
    | verify secret at' =>
      obtain ⟨⟨at'', d''⟩, hstep, heq⟩ := Option.map_eq_some_iff.1 hact
      obtain ⟨rfl, rfl⟩ := Prod.mk.inj heq
      exact setupInv_quiet hinv hget (verify_sameConfig hstep) nofun rfl rfl trivial
    | setup body at' =>
      obtain ⟨⟨at'', d''⟩, hstep, heq⟩ := Option.map_eq_some_iff.1 hact
      obtain ⟨rfl, rfl⟩ := Prod.mk.inj heq
      exact (setupInv_setup hinv hget (hok w _ hmv).1 hstep).1
    | put body at' =>
      obtain ⟨⟨at'', d''⟩, hstep, heq⟩ := Option.map_eq_some_iff.1 hact
      obtain ⟨rfl, rfl⟩ := Prod.mk.inj heq
      exact setupInv_put hinv hget hstep
  · obtain ⟨hdir, hmode, hone, hpaired, hlock, hfile, heach⟩ := hinv
    exact ⟨hdir, hmode, hone, hpaired, hlock, hfile, fun i t ht => holds_same ⟨rfl, rfl, rfl, rfl⟩ (heach i t ht)⟩

end Purdex.Core
