/-
Pairing completes once: over every run whose requests do not get in each other's way, at most one setup succeeds, the token
is the same everywhere from then on, and a change of the settings that was answered stays in the file.
-/
import Purdex.Core.Guesses
import Purdex.Core.Setups

namespace Purdex.Core

open Conc

abbrev Trace := List (Moved Daemon Request Luck Nat)

variable (encode : Config → List UInt8)

/-! ## What is meant -/

/-- A change of the settings is answered with success. -/
def Succeeds (e : Moved Daemon Request Luck Nat) (upd : ConfigUpdate) : Prop :=
  ∃ i luck at' w', e.move = .turn i luck ∧ e.pre.threads[i]? = some (.put (some upd) at') ∧ (pairing encode).step e.move e.pre = some w' ∧
    w'.threads[i]? = some (.put (some upd) (.answered 200))

structure PairedOnce (w : Served) (tr : Trace) : Prop where
  once : ∀ (i j : Nat) body body', w.threads[i]? = some (.setup body (.answered 200)) → w.threads[j]? = some (.setup body' (.answered 200)) → i = j
  agrees : ∀ (i : Nat) body, w.threads[i]? = some (.setup body (.answered 200)) → w.shared.cfg.token = tokenOf body ∧
    ∃ c, w.shared.dir.file = some (encode c) ∧ c.token = tokenOf body
  /-- No step of a setup that fails in the end changes the token in memory, or the file. -/
  failed : ∀ e ∈ tr, ∀ i luck body at' w', e.move = .turn i luck → e.pre.threads[i]? = some (.setup body at') →
    (pairing encode).step e.move e.pre = some w' → ∀ body' status, w.threads[i]? = some (.setup body' (.answered status)) → status ≠ 200 →
      w'.shared.cfg.token = e.pre.shared.cfg.token ∧ w'.shared.dir.file = e.pre.shared.dir.file
  /-- What was answered stays in the file until another change gives the field. -/
  kept : ∀ newer e older, tr = newer ++ e :: older → ∀ upd, Succeeds encode e upd → ∀ F : ConfigField, upd.Gives F →
    (∀ e' ∈ newer, ∀ upd', Succeeds encode e' upd' → ¬ upd'.Gives F) → ∃ c, w.shared.dir.file = some (encode c) ∧ F.Same c (upd.apply c)
  spent : Spent tr

/-- A step that comes in time. -/
structure InTime (w : Served) (mv : Call) : Prop where
  fresh : ∀ t, mv = .start t → t.Fresh
  guess : GuessOk w mv
  setup : SetupOk w mv

/-! ## Setups that fail -/

variable {encode} {w w' : Served} {tr : Trace} {mv : Call}

theorem inTime_setupInv (hr : (pairing encode).Runs Begins InTime w tr) : SetupInv encode w.shared w.threads :=
  setupInv_runs (fun _ _ h => ⟨h.setup, h.fresh⟩) hr

theorem committed_of_setUp {luck : Luck} {body : Option (String × String)} {at' at'' : SetupAt} {d d' : Daemon}
    (h : SetUp encode luck body at' d at'' d') (hcommitted : at'.committed = true) : at''.committed = true := by
  cases h with
  | quiet hsame hold =>
    cases at' with
    | answered status => exact absurd (hold.symm.trans hcommitted) nofun
    | _ => cases hcommitted <;> cases hold
  | copies => cases hcommitted
  | writes => cases hcommitted
  | wrote => cases hcommitted
  | fails => cases hcommitted
  | stores => rfl
  | ends => rfl

/-- A setup has written the file. -/
def Committed (w : Served) (i : Nat) : Prop := ∃ body at', w.threads[i]? = some (.setup body at') ∧ at'.committed = true

/-- It stays so. -/
theorem committed_step {i : Nat} (hst : (pairing encode).step mv w = some w') (h : Committed w i) : Committed w' i := by
  obtain ⟨body, at', hget, hat⟩ := h
  rcases Stages.step_cases hst with ⟨t, rfl, rfl⟩ | ⟨j, luck, t, t', d', rfl, hget', hact, rfl⟩ | ⟨n, rfl, rfl⟩
  · exact ⟨body, at', getElem?_append_of_some hget, hat⟩
  · by_cases hij : j = i
    · subst hij
      obtain rfl := Option.some.inj (hget.symm.trans hget')
      obtain ⟨⟨at'', d''⟩, hstep, heq⟩ := Option.map_eq_some_iff.1 hact
      obtain ⟨rfl, rfl⟩ := Prod.mk.inj heq
      exact ⟨body, at'', (getElem?_set_of_some hget' j).trans (if_pos rfl), committed_of_setUp (setUp_of_setup hstep) hat⟩
    · exact ⟨body, at', (getElem?_set_of_some hget' i).trans ((if_neg hij).trans hget), hat⟩
  · exact ⟨body, at', hget, hat⟩

/-- A step of a setup changes nothing that counts, or the setup has written the file. -/
theorem unchanged_or_committed (hr : (pairing encode).Runs Begins InTime w tr) : ∀ e ∈ tr, ∀ i luck body at' w', e.move = .turn i luck →
    e.pre.threads[i]? = some (.setup body at') → (pairing encode).step e.move e.pre = some w' →
      w'.shared.cfg.token = e.pre.shared.cfg.token ∧ w'.shared.dir.file = e.pre.shared.dir.file ∨ Committed w i := by
  refine hr.invariant (P := fun w tr => ∀ e ∈ tr, ∀ i luck body at' w', e.move = .turn i luck →
    e.pre.threads[i]? = some (.setup body at') → (pairing encode).step e.move e.pre = some w' →
      w'.shared.cfg.token = e.pre.shared.cfg.token ∧ w'.shared.dir.file = e.pre.shared.dir.file ∨ Committed w i) (by simp)
    fun w w₁ tr mv hr ih hmv hst e he i luck body at' w' hmove hget hst' => ?_
  rcases List.mem_cons.1 he with rfl | he
  · obtain rfl := Option.some.inj (hst.symm.trans hst')
    dsimp only at hmove
    subst hmove
    rcases Stages.step_cases hst with ⟨t, hmove, -⟩ | ⟨j, luck', t, t', d', hmove, hget', hact, rfl⟩ | ⟨n, hmove, -⟩
    · cases hmove
    · cases hmove
      obtain rfl := Option.some.inj (hget'.symm.trans hget)
      obtain ⟨⟨at'', d''⟩, hstep, heq⟩ := Option.map_eq_some_iff.1 hact
      obtain ⟨rfl, rfl⟩ := Prod.mk.inj heq
      rcases (setupInv_setup (inTime_setupInv hr) hget hmv.setup hstep).2 with hsame | hcommitted
      · exact .inl hsame
      · exact .inr ⟨body, at'', (getElem?_set_of_some hget i).trans (if_pos rfl), hcommitted⟩
    · cases hmove
  · exact (ih e he i luck body at' w' hmove hget hst').imp_right (committed_step hst)

/-! ## Changes that stay -/

/-- The settings that the file is to have: those in memory, or those from before the change that is just written. -/
def Persisted (w : Served) (c : Config) : Prop :=
  w.shared.lock = none ∧ c = w.shared.cfg ∨ ∃ (j : Nat) (body : Option ConfigUpdate) (at' : WriteAt), w.threads[j]? = some (.put body (.writing c at'))

theorem persisted_file (hinv : SetupInv encode w.shared w.threads) (hmode : w.shared.mode = .normal) :
    ∃ c, Persisted w c ∧ w.shared.dir.file = some (encode c) ∧ c.token = w.shared.cfg.token := by
  cases hlock : w.shared.lock with
  | none => exact ⟨_, .inl ⟨hlock, rfl⟩, hinv.file hmode hlock, rfl⟩
  | some j =>
    obtain ⟨t, ht, hlocking⟩ := hinv.lock j hlock
    cases t with
    | put body at' =>
      cases at' with
      | writing c at' =>
        obtain ⟨-, -, hfile, ⟨upd, -, hupd⟩, -⟩ := hinv.each j _ ht
        exact ⟨c, .inr ⟨j, body, at', ht⟩, hfile, by rw [hupd, apply_token]⟩
      | _ => cases hlocking
    | _ => cases hlocking

/-- With the lock free there is only what is in memory. -/
theorem eq_of_persisted {c : Config} (hinv : SetupInv encode w.shared w.threads) (hlock : w.shared.lock = none) (h : Persisted w c) : c = w.shared.cfg := by
  rcases h with ⟨-, hc⟩ | ⟨j, body, at', hj⟩
  · exact hc
  · exact absurd (hlock.symm.trans (hinv.each j _ hj).2.1) nofun

/-- A step of a request that leaves settings and lock alone and is not about to write them. -/
theorem persisted_set {i : Nat} {t t' : Request} {d' : Daemon} {c : Config} (hget : w.threads[i]? = some t) (hlock : d'.lock = w.shared.lock)
    (hcfg : d'.cfg = w.shared.cfg) (ht' : ∀ body s a, t' = .put body (.writing s a) → ∃ a, t = .put body (.writing s a))
    (h : Persisted ⟨d', w.threads.set i t'⟩ c) : Persisted w c := by
  rcases h with ⟨hnone, hc⟩ | ⟨j, body, at', hj⟩
  · exact .inl ⟨hlock.symm.trans hnone, hc.trans hcfg⟩
  · rw [getElem?_set_of_some hget] at hj
    split at hj
    · obtain ⟨a, rfl⟩ := ht' body c at' (Option.some.inj hj)
      exact .inr ⟨i, body, a, hget⟩
    · exact .inr ⟨j, body, at', hj⟩

/-- Once the daemon is paired, what the file is to have changes by changes that succeed only. -/
theorem persisted_step (hinv : SetupInv encode w.shared w.threads) (hok : InTime w mv) (hmode : w.shared.mode = .normal)
    (hst : (pairing encode).step mv w = some w') : w'.shared.mode = .normal ∧
      ∀ c, Persisted w' c → Persisted w c ∨ ∃ upd c', Succeeds encode ⟨mv, w⟩ upd ∧ Persisted w c' ∧ c = upd.apply c' := by
  have hst' := hst
  rcases Stages.step_cases hst with ⟨t, rfl, rfl⟩ | ⟨i, luck, t, t', d', rfl, hget, hact, rfl⟩ | ⟨n, rfl, rfl⟩
  · refine ⟨hmode, fun c h => .inl (h.imp_right fun ⟨j, body, at', hj⟩ => ⟨j, body, at', (of_getElem?_append hj).resolve_right ?_⟩)⟩
    rintro ⟨-, rfl⟩
    cases hok.fresh _ rfl
  · cases t with
    | verify secret at' =>
      obtain ⟨⟨at'', d''⟩, hstep, heq⟩ := Option.map_eq_some_iff.1 hact
      obtain ⟨rfl, rfl⟩ := Prod.mk.inj heq
      have hsame := verify_sameConfig hstep
      exact ⟨hsame.mode.trans hmode, fun c h => .inl (persisted_set hget hsame.lock hsame.cfg (fun _ _ _ heq => by cases heq) h)⟩
    | setup body at' =>
      obtain ⟨⟨at'', d''⟩, hstep, heq⟩ := Option.map_eq_some_iff.1 hact
      obtain ⟨rfl, rfl⟩ := Prod.mk.inj heq
      have hup := setUp_of_setup hstep
      have hholds := hinv.each i _ hget
      generalize hd : w.shared = d at hup hholds hmode
      cases hup with
      | quiet hsame =>
        subst hd
        exact ⟨hsame.mode.trans hmode, fun c h => .inl (persisted_set hget hsame.lock hsame.cfg (fun _ _ _ heq => by cases heq) h)⟩
      | stores => exact absurd (hmode.symm.trans hholds.1) nofun
      | ends => subst hd; exact ⟨rfl, fun c h => .inl (persisted_set hget rfl rfl (fun _ _ _ heq => by cases heq) h)⟩
      | _ => subst hd; exact ⟨hmode, fun c h => .inl (persisted_set hget rfl rfl (fun _ _ _ heq => by cases heq) h)⟩
    | put body at' =>
      obtain ⟨⟨at'', d''⟩, hstep, heq⟩ := Option.map_eq_some_iff.1 hact
      obtain ⟨rfl, rfl⟩ := Prod.mk.inj heq
      have hput := putIn_of_put hstep
      have hholds := hinv.each i _ hget
      generalize hd : w.shared = d at hput hholds hmode
      cases hput with
      | quiet => subst hd; exact ⟨hmode, fun c h => .inl (persisted_set hget rfl rfl (fun _ _ _ heq => by cases heq) h)⟩
      | admitted => subst hd; exact ⟨hmode, fun c h => .inl (persisted_set hget rfl rfl (fun _ _ _ heq => by cases heq) h)⟩
      | locks upd _ hbody hlock =>
        subst hd
        refine ⟨hmode, fun c h => .inl ?_⟩
        rcases h with ⟨hnone, -⟩ | ⟨j, b, a, hj⟩
        · cases hnone
        · rw [getElem?_set_of_some hget] at hj
          split at hj
          · cases hj
            exact .inl ⟨hlock, rfl⟩
          · exact .inr ⟨j, b, a, hj⟩
      | writes => subst hd; exact ⟨hmode, fun c h => .inl (persisted_set hget rfl rfl (fun _ _ _ heq => by cases heq; exact ⟨_, rfl⟩) h)⟩
      | @wrote snapshot at' =>
        subst hd
        obtain ⟨-, -, -, ⟨upd, rfl, hupd⟩, -⟩ := hholds
        refine ⟨hmode, fun c h => ?_⟩
        rcases h with ⟨-, hc⟩ | ⟨j, b, a, hj⟩
        · exact .inr ⟨upd, snapshot, ⟨i, luck, _, _, rfl, hget, hst', (getElem?_set_of_some hget i).trans (if_pos rfl)⟩,
            .inr ⟨i, _, at', hget⟩, hc.trans hupd⟩
        · rw [getElem?_set_of_some hget] at hj
          split at hj
          · cases hj
          · exact .inl (.inr ⟨j, b, a, hj⟩)
      | @fails snapshot at' =>
        subst hd
        refine ⟨hmode, fun c h => .inl ?_⟩
        rcases h with ⟨-, hc⟩ | ⟨j, b, a, hj⟩
        · exact .inr ⟨i, body, at', hc ▸ hget⟩
        · rw [getElem?_set_of_some hget] at hj
          split at hj
          · cases hj
          · exact .inr ⟨j, b, a, hj⟩
  · exact ⟨hmode, fun c h => .inl h⟩

/-- A change that succeeds leaves the settings with it, the lock free and the daemon paired. -/
theorem succeeds_spec {upd : ConfigUpdate} (hinv : SetupInv encode w.shared w.threads) (hst : (pairing encode).step mv w = some w')
    (hsucc : Succeeds encode ⟨mv, w⟩ upd) : w'.shared.mode = .normal ∧ w'.shared.lock = none ∧ ∃ c, w'.shared.cfg = upd.apply c := by
  obtain ⟨i, luck, at', w₁, rfl, hget, hst', hdone⟩ := hsucc
  obtain rfl := Option.some.inj (hst.symm.trans hst')
  rcases Stages.step_cases hst with ⟨t, hmove, -⟩ | ⟨j, luck', t, t', d', hmove, hget', hact, rfl⟩ | ⟨n, hmove, -⟩
  · cases hmove
  · cases hmove
    obtain rfl := Option.some.inj (hget.symm.trans hget')
    obtain ⟨⟨at'', d''⟩, hstep, heq⟩ := Option.map_eq_some_iff.1 hact
    obtain ⟨rfl, rfl⟩ := Prod.mk.inj heq
    have hself : at'' = .answered 200 := by
      have := (getElem?_set_of_some hget i).symm.trans hdone
      rw [if_pos rfl] at this
      cases this
      rfl
    have hholds := hinv.each i _ hget
    have hput := putIn_of_put hstep
    dsimp only at hget hstep hholds hput
    generalize hd : w.shared = d at hput hholds
    cases hput with
    | quiet _ _ hstatus => cases hself; exact absurd rfl hstatus
    | wrote =>
      obtain ⟨hmode, -, -, ⟨upd', hupd', hcfg⟩, -⟩ := hholds
      obtain rfl := Option.some.inj hupd'
      exact ⟨hmode, rfl, _, hcfg⟩
    | fails => cases hself
    | _ => cases hself
  · cases hmove

/-- What a change gave is in the settings that the file is to have, until another gives it. -/
theorem given_stays (hr : (pairing encode).Runs Begins InTime w tr) : ∀ newer e older, tr = newer ++ e :: older → ∀ upd, Succeeds encode e upd →
    ∀ F : ConfigField, upd.Gives F → (∀ e' ∈ newer, ∀ upd', Succeeds encode e' upd' → ¬ upd'.Gives F) →
      w.shared.mode = .normal ∧ ∀ c, Persisted w c → F.Same c (upd.apply c) := by
  refine hr.invariant (P := fun w tr => ∀ newer e older, tr = newer ++ e :: older → ∀ upd, Succeeds encode e upd →
    ∀ F : ConfigField, upd.Gives F → (∀ e' ∈ newer, ∀ upd', Succeeds encode e' upd' → ¬ upd'.Gives F) →
      w.shared.mode = .normal ∧ ∀ c, Persisted w c → F.Same c (upd.apply c)) (by simp)
    fun w w' tr mv hr ih hmv hst newer e older heq upd hsucc F hF hnewer => ?_
  have hinv := inTime_setupInv hr
  cases newer with
  | nil =>
    obtain ⟨rfl, rfl⟩ := List.cons.inj heq
    obtain ⟨hmode, hlock, c₀, hc₀⟩ := succeeds_spec hinv hst hsucc
    refine ⟨hmode, fun c hc => ?_⟩
    obtain rfl := (eq_of_persisted (inTime_setupInv (hr.step hmv hst)) hlock hc).trans hc₀
    exact same_apply_of_gives hF
  | cons e' newer =>
    obtain ⟨rfl, hrest⟩ := List.cons.inj heq
    obtain ⟨hmode, hsame⟩ := ih newer e older hrest upd hsucc F hF fun e' he' => hnewer e' (List.mem_cons_of_mem _ he')
    obtain ⟨hmode', hchanged⟩ := persisted_step hinv hmv hmode hst
    refine ⟨hmode', fun c hc => ?_⟩
    rcases hchanged c hc with hold | ⟨upd', c', hsucc', hold, rfl⟩
    · exact hsame c hold
    · have hnot : ¬ upd'.Gives F := hnewer _ List.mem_cons_self upd' hsucc'
      have hstay : F.Same (upd'.apply c') c' := same_apply_of_not_gives hnot
      exact Same.trans hstay (Same.trans (hsame c' hold) (same_apply_of_gives hF))

/-- Over every run whose steps come in time, pairing completes at most once, and consistently. -/
theorem paired_once (hr : (pairing encode).Runs Begins InTime w tr) : PairedOnce encode w tr := by
  have hinv := inTime_setupInv hr
  refine ⟨fun i j body body' hi hj => hinv.one i j _ _ hi hj rfl rfl, fun i body hi => ?_, fun e he i luck body at' w' hmove hget hst body' status hi hstatus => ?_,
    fun newer e older heq upd hsucc F hF hnewer => ?_, spent_of_runs (fun _ _ h => ⟨h.guess, h.fresh⟩) hr⟩
  · obtain ⟨hmode, htoken⟩ := hinv.each i _ hi rfl
    obtain ⟨c, -, hfile, hc⟩ := persisted_file hinv hmode
    exact ⟨htoken, c, hfile, hc.trans htoken⟩
  · refine (unchanged_or_committed hr e he i luck body at' w' hmove hget hst).resolve_right ?_
    rintro ⟨b, a, hi', hcommitted⟩
    cases hi.symm.trans hi'
    exact hstatus (of_decide_eq_true hcommitted)
  · obtain ⟨hmode, hsame⟩ := given_stays hr newer e older heq upd hsucc F hF hnewer
    obtain ⟨c, hc, hfile, -⟩ := persisted_file hinv hmode
    exact ⟨c, hfile, hsame c hc⟩

/-! ## Runs on fixed inputs -/

def startsFresh : Call → Bool
  | .start t => decide t.Fresh
  | _ => true

theorem fresh_of_startsFresh {mv : Call} (h : startsFresh mv = true) : ∀ t, mv = .start t → t.Fresh := by
  rintro t rfl
  exact of_decide_eq_true h

theorem inTime_of_bool (w : Served) (mv : Call) (h : (startsFresh mv && decide (GuessOk w mv ∧ SetupOk w mv)) = true) : InTime w mv := by
  obtain ⟨hfresh, hok⟩ := Bool.and_eq_true_iff.1 h
  exact ⟨fresh_of_startsFresh hfresh, (of_decide_eq_true hok).1, (of_decide_eq_true hok).2⟩

/-- A file with the token and the upload directory in it. -/
def brief (c : Config) : List UInt8 := (c.token ++ c.uploadDir).toList.map fun ch => UInt8.ofNat ch.toNat

def unpaired : Served :=
  ⟨⟨.pairing, ⟨"", [], ["claude"], 2, "", "/tmp"⟩, none, ⟨none, none, []⟩, "a1b2c3", 0, "", 0, 0, 0, fun _ => 0⟩, []⟩

theorem unpaired_begins : Begins unpaired := ⟨rfl, rfl, rfl, ⟨nofun, nofun, nofun⟩, rfl, rfl, fun _ => rfl⟩

/-- A request that comes in as number `i` and takes `n` steps, with `random` as its random bytes. -/
def request (i n : Nat) (random : List UInt8) (t : Request) : List Call := .start t :: List.replicate n (.turn i ⟨true, 0, random⟩)

/-- A guess, a setup and a change of the settings, one after another. -/
def paired : List Call :=
  request 0 4 [1] (.verify (some "a1b2c3") .start) ++ request 1 9 [] (.setup (some ("01", "0123456789abcdefghij")) .start) ++
    request 2 6 [] (.put (some ⟨none, none, none, none, some "/up"⟩) .start)

theorem paired_once_paired : ∃ w tr, (pairing brief).play (fun w mv => startsFresh mv && decide (GuessOk w mv ∧ SetupOk w mv)) paired unpaired [] = some (w, tr) ∧
    w.threads[1]? = some (.setup (some ("01", "0123456789abcdefghij")) (.answered 200)) ∧
    w.threads[2]? = some (.put (some ⟨none, none, none, none, some "/up"⟩) (.answered 200)) ∧ PairedOnce brief w tr := by
  have hran : ((pairing brief).play (fun w mv => startsFresh mv && decide (GuessOk w mv ∧ SetupOk w mv)) paired unpaired []).any (fun r =>
      r.1.threads[1]? = some (.setup (some ("01", "0123456789abcdefghij")) (.answered 200)) ∧
      r.1.threads[2]? = some (.put (some ⟨none, none, none, none, some "/up"⟩) (.answered 200))) = true := by decide
  obtain ⟨⟨w, tr⟩, hplay, hdone⟩ := (Option.any_eq_true _ _).1 hran
  obtain ⟨hsetup, hput⟩ := of_decide_eq_true hdone
  exact ⟨w, tr, hplay, hsetup, hput, paired_once (Stages.Runs.play inTime_of_bool (.init unpaired_begins) hplay)⟩

/-- While a first setup is under way, a second guess is exchanged for a setup secret of its own. -/
def pairedTwice : List Call :=
  request 0 4 [1] (.verify (some "a1b2c3") .start) ++ request 1 2 [] (.setup (some ("01", "0123456789abcdefghij")) .start) ++
    request 2 4 [2] (.verify (some "a1b2c3") .start) ++ request 3 2 [] (.setup (some ("02", "ABCDEFGHIJ0123456789")) .start) ++
    List.replicate 7 (.turn 1 ⟨true, 0, []⟩) ++ List.replicate 7 (.turn 3 ⟨true, 0, []⟩)

/-- A right guess has read the secret when the tenth wrong one is counted. -/
def overtaken : List Call :=
  (List.range 9).flatMap (fun i => request i 3 [] (.verify (some "000000") .start)) ++ request 9 2 [] (.verify (some "a1b2c3") .start) ++
    request 10 3 [] (.verify (some "000000") .start) ++ [.turn 9 ⟨true, 0, []⟩]

/-- The last move of a run was a right guess at a secret that ten wrong ones were counted against. -/
def passes (tr : Trace) : Bool :=
  match tr with
  | ⟨.turn i _, w⟩ :: _ => match w.threads[i]? with
    | some (.verify secret (.read expected g)) => decide (Right (secret.getD "") expected ∧ maxVerifyFailures ≤ w.shared.wrong g)
    | _ => false
  | _ => false

theorem not_spent_of_passes {tr : Trace} (h : passes tr = true) : ¬ Spent tr := by
  unfold passes at h
  split at h
  · rename_i i luck w rest
    split at h
    · rename_i secret expected g hget
      obtain ⟨hright, hten⟩ := of_decide_eq_true h
      exact fun hs => Nat.not_lt.2 hten (hs _ List.mem_cons_self i luck secret expected g rfl hget hright)
    · cases h
  · cases h

/-- Two setups succeed; and a right guess passes after ten wrong ones. -/
theorem pairing_overtaken :
    (∃ w tr, (pairing brief).Runs Begins (fun _ mv => ∀ t, mv = .start t → t.Fresh) w tr ∧
      (∃ body body', w.threads[1]? = some (.setup body (.answered 200)) ∧ w.threads[3]? = some (.setup body' (.answered 200))) ∧ ¬ PairedOnce brief w tr) ∧
    ∃ w tr, (pairing brief).Runs Begins (fun _ mv => ∀ t, mv = .start t → t.Fresh) w tr ∧ ¬ Spent tr ∧ ¬ PairedOnce brief w tr := by
  constructor
  · have hran : ((pairing brief).play (fun _ => startsFresh) pairedTwice unpaired []).any (fun r =>
        r.1.threads[1]? = some (.setup (some ("01", "0123456789abcdefghij")) (.answered 200)) ∧
        r.1.threads[3]? = some (.setup (some ("02", "ABCDEFGHIJ0123456789")) (.answered 200))) = true := by decide +kernel
    obtain ⟨⟨w, tr⟩, hplay, hdone⟩ := (Option.any_eq_true _ _).1 hran
    obtain ⟨hone, hthree⟩ := of_decide_eq_true hdone
    refine ⟨w, tr, Stages.Runs.play (fun _ _ => fresh_of_startsFresh) (.init unpaired_begins) hplay, ⟨_, _, hone, hthree⟩, fun h => ?_⟩
    exact absurd (h.once 1 3 _ _ hone hthree) (by decide)
  · have hran : ((pairing brief).play (fun _ => startsFresh) overtaken unpaired []).any (fun r => passes r.2) = true := by decide +kernel
    obtain ⟨⟨w, tr⟩, hplay, hpasses⟩ := (Option.any_eq_true _ _).1 hran
    have hspent : ¬ Spent tr := not_spent_of_passes hpasses
    exact ⟨w, tr, Stages.Runs.play (fun _ _ => fresh_of_startsFresh) (.init unpaired_begins) hplay, hspent, fun h => hspent h.spent⟩

end Purdex.Core
