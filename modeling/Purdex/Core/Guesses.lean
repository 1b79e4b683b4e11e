/-
Guesses at the pairing code: ten wrong ones at a secret make it useless, as long as the tenth is not overtaken.
-/
import Purdex.Core.Pairing

namespace Purdex.Core

open Conc

/-! ## What a guess does -/

/-- Which secret a request holds that it will find to be the one guessed. -/
def Request.holdsRight : Request → Option Nat
  | .verify secret (.read expected generation) => if Right (secret.getD "") expected then some generation else none
  | _ => none

/-- It has counted ten, and the secret is still the same. -/
def Request.isTenth : Request → Bool
  | .verify _ .tenth => true
  | _ => false

/-- It has stored a new secret, and the counter is still the old. -/
def Request.isRenewed : Request → Bool
  | .verify _ .renewed => true
  | _ => false

def Request.reads : Request → Option Nat
  | .verify _ (.read _ generation) => some generation
  | _ => none

/-- What the guesses are about. -/
structure Daemon.SameGuess (d d' : Daemon) : Prop where
  pairingSecret : d'.pairingSecret = d.pairingSecret
  failedVerify : d'.failedVerify = d.failedVerify
  generation : d'.generation = d.generation
  wrong : d'.wrong = d.wrong

variable {encode : Config → List UInt8} {d d' : Daemon} {luck : Luck} {i : Nat}

theorem sameGuess_refl (d : Daemon) : d.SameGuess d := ⟨rfl, rfl, rfl, rfl⟩

theorem validate_sameGuess (secret : String) (d : Daemon) : d.SameGuess (d.validate secret).2 := by
  unfold Daemon.validate
  split <;> exact ⟨rfl, rfl, rfl, rfl⟩

theorem setup_sameGuess {body : Option (String × String)} {at' at'' : SetupAt} (h : handlePairSetup encode luck body at' d = some (at'', d')) :
    d.SameGuess d' := by
  unfold handlePairSetup at h
  split at h
  · obtain ⟨-, rfl⟩ := Prod.mk.inj (Option.some.inj h)
    exact sameGuess_refl d
  · split at h
    · obtain ⟨-, rfl⟩ := Prod.mk.inj (Option.some.inj h)
      exact sameGuess_refl d
    · obtain ⟨-, rfl⟩ := Prod.mk.inj (Option.some.inj h)
      exact validate_sameGuess _ d
  · split at h
    · cases h
    · obtain ⟨-, rfl⟩ := Prod.mk.inj (Option.some.inj h)
      exact sameGuess_refl d
  · split at h <;> obtain ⟨-, rfl⟩ := Prod.mk.inj (Option.some.inj h) <;> exact ⟨rfl, rfl, rfl, rfl⟩
  · split at h
    · cases h
    · obtain ⟨-, rfl⟩ := Prod.mk.inj (Option.some.inj h)
      exact ⟨rfl, rfl, rfl, rfl⟩
  · obtain ⟨-, rfl⟩ := Prod.mk.inj (Option.some.inj h)
    exact ⟨rfl, rfl, rfl, rfl⟩
  · cases h

theorem put_sameGuess {body : Option ConfigUpdate} {at' at'' : PutAt} (h : handlePutConfig encode i luck body at' d = some (at'', d')) :
    d.SameGuess d' := by
  unfold handlePutConfig at h
  split at h
  · obtain ⟨-, rfl⟩ := Prod.mk.inj (Option.some.inj h)
    exact sameGuess_refl d
  · split at h
    · obtain ⟨-, rfl⟩ := Prod.mk.inj (Option.some.inj h)
      exact sameGuess_refl d
    · split at h
      · cases h
      · split at h <;> obtain ⟨-, rfl⟩ := Prod.mk.inj (Option.some.inj h) <;> exact ⟨rfl, rfl, rfl, rfl⟩
  · split at h <;> obtain ⟨-, rfl⟩ := Prod.mk.inj (Option.some.inj h) <;> exact ⟨rfl, rfl, rfl, rfl⟩
  · cases h

/-- Everything a verification does that the guesses are about. -/
inductive Guessed (secret : Option String) : VerifyAt → Daemon → VerifyAt → Daemon → Prop where
  | reads (d : Daemon) : Guessed secret .checked d (.read d.pairingSecret d.generation) d
  | right (expected : String) (g : Nat) (d : Daemon) : Right (secret.getD "") expected →
      Guessed secret (.read expected g) d .reset d.resetWrong
  | tenth (expected : String) (g : Nat) (d : Daemon) : ¬ Right (secret.getD "") expected → (d.countWrong g).failedVerify = maxVerifyFailures →
      Guessed secret (.read expected g) d .tenth (d.countWrong g)
  | wrong (expected : String) (g : Nat) (d : Daemon) : ¬ Right (secret.getD "") expected → (d.countWrong g).failedVerify ≠ maxVerifyFailures →
      Guessed secret (.read expected g) d (.answered 401 none) (d.countWrong g)
  | renews (random : List UInt8) (d : Daemon) :
      Guessed secret .tenth d .renewed { d with pairingSecret := hexEncode random, generation := d.generation + 1 }
  | resets (d : Daemon) : Guessed secret .renewed d (.answered 401 none) { d with failedVerify := 0 }
  /-- All else leaves them alone, and a new code that could not be had leaves the tenth where it was. -/
  | other {at' at'' : VerifyAt} {d d' : Daemon} : d.SameGuess d' → at' ≠ .renewed → (∀ e g, at'' ≠ .read e g) → at'' ≠ .tenth → at'' ≠ .renewed →
      Guessed secret at' d at'' d'

theorem guessed_of_verify {secret : Option String} : ∀ {at' at'' : VerifyAt}, handlePairVerify luck secret at' d = some (at'', d') →
    Guessed secret at' d at'' d' ∧ (at' = .tenth → luck.ok = true → at'' = .renewed)
  | .start, at'', h => by
    obtain ⟨rfl, rfl⟩ := Prod.mk.inj (Option.some.inj h)
    refine ⟨.other (sameGuess_refl _) nofun ?_ ?_ ?_, nofun⟩ <;> (intros; split <;> nofun)
  | .checked, at'', h => by
    refine ⟨?_, nofun⟩
    unfold handlePairVerify at h
    dsimp only at h
    split at h
    · obtain ⟨rfl, rfl⟩ := Prod.mk.inj (Option.some.inj h)
      exact .other (sameGuess_refl _) nofun nofun nofun nofun
    · split at h
      · cases h
      · obtain ⟨rfl, rfl⟩ := Prod.mk.inj (Option.some.inj h)
        exact .reads _
  | .read expected g, at'', h => by
    refine ⟨?_, nofun⟩
    unfold handlePairVerify at h
    dsimp only at h
    split at h
    · obtain ⟨rfl, rfl⟩ := Prod.mk.inj (Option.some.inj h)
      exact .other (sameGuess_refl _) nofun nofun nofun nofun
    · split at h
      · rename_i hright
        obtain ⟨rfl, rfl⟩ := Prod.mk.inj (Option.some.inj h)
        exact .right expected g _ hright
      · rename_i hwrong
        split at h
        · rename_i hten
          obtain ⟨rfl, rfl⟩ := Prod.mk.inj (Option.some.inj h)
          exact .tenth expected g _ hwrong hten
        · rename_i hten
          obtain ⟨rfl, rfl⟩ := Prod.mk.inj (Option.some.inj h)
          exact .wrong expected g _ hwrong hten
  | .tenth, at'', h => by
    unfold handlePairVerify at h
    dsimp only at h
    split at h
    · rename_i hbad
      obtain ⟨rfl, rfl⟩ := Prod.mk.inj (Option.some.inj h)
      exact ⟨.other (sameGuess_refl _) nofun nofun nofun nofun, fun _ hok => absurd hok (by simpa using hbad)⟩
    · split at h
      · cases h
      · obtain ⟨rfl, rfl⟩ := Prod.mk.inj (Option.some.inj h)
        exact ⟨.renews _ _, fun _ _ => rfl⟩
  | .renewed, at'', h => by
    obtain ⟨rfl, rfl⟩ := Prod.mk.inj (Option.some.inj h)
    exact ⟨.resets _, nofun⟩
  | .reset, at'', h => by
    refine ⟨?_, nofun⟩
    unfold handlePairVerify at h
    dsimp only at h
    split at h
    · cases h
    · split at h
      · obtain ⟨rfl, rfl⟩ := Prod.mk.inj (Option.some.inj h)
        exact .other (sameGuess_refl _) nofun nofun nofun nofun
      · split at h <;> obtain ⟨rfl, rfl⟩ := Prod.mk.inj (Option.some.inj h) <;>
          exact .other ⟨rfl, rfl, rfl, rfl⟩ nofun nofun nofun nofun
  | .answered .., at'', h => by cases h

/-! ## Guesses that do not overtake the tenth -/

/-- No tenth wrong guess waits for a new secret. -/
def NoTenth (ts : List Request) : Prop := ∀ t ∈ ts, t.isTenth = false

/-- No new secret waits for the counter. -/
def NoRenewed (ts : List Request) : Prop := ∀ t ∈ ts, t.isRenewed = false

/-- When a step of a guess may come: no right guess reads the secret, or has read it, while the tenth wrong one is dealt with, no wrong
guess at the new secret is counted before the counter is reset, and there is a new secret to be had. -/
def GuessOk (w : Served) : Call → Prop
  | .turn i luck => match w.threads[i]? with
    | some (.verify secret .checked) => Right (secret.getD "") w.shared.pairingSecret → NoTenth w.threads
    | some (.verify secret (.read expected g)) => ¬ Right (secret.getD "") expected →
      ((w.shared.countWrong g).failedVerify = maxVerifyFailures → ∀ t ∈ w.threads, t.holdsRight = none) ∧
        (g = w.shared.generation → NoRenewed w.threads)
    | some (.verify _ .tenth) => luck.ok = true
    | _ => True
  | _ => True

instance (ts : List Request) : Decidable (NoTenth ts) := inferInstanceAs (Decidable (∀ t ∈ ts, _))

instance (ts : List Request) : Decidable (NoRenewed ts) := inferInstanceAs (Decidable (∀ t ∈ ts, _))

instance (w : Served) (mv : Call) : Decidable (GuessOk w mv) := by
  unfold GuessOk
  split
  · split <;> infer_instance
  · infer_instance

structure GuessInv (d : Daemon) (ts : List Request) : Prop where
  right : ∀ t ∈ ts, ∀ g, t.holdsRight = some g → g = d.generation ∧ NoTenth ts
  below : NoTenth ts → d.wrong d.generation < maxVerifyFailures
  calm : NoTenth ts → NoRenewed ts → 0 ≤ d.failedVerify ∧ d.failedVerify < maxVerifyFailures ∧ (d.wrong d.generation : Int) ≤ d.failedVerify
  renewed : NoTenth ts → ¬ NoRenewed ts → d.wrong d.generation = 0
  future : ∀ g, d.generation < g → d.wrong g = 0
  reads : ∀ t ∈ ts, ∀ g, t.reads = some g → g ≤ d.generation

theorem guessInv_begins {w : Served} (h : Begins w) : GuessInv w.shared w.threads where
  right t ht := by rw [h.threads] at ht; cases ht
  below _ := by rw [h.wrong]; decide
  calm _ _ := by rw [h.failedVerify, h.wrong]; decide
  renewed _ _ := h.wrong _
  future g _ := h.wrong g
  reads t ht := by rw [h.threads] at ht; cases ht

/-- A request that has nothing to do with a guess just now. -/
structure Request.Apart (t : Request) : Prop where
  holdsRight : t.holdsRight = none
  isTenth : t.isTenth = false
  isRenewed : t.isRenewed = false
  reads : t.reads = none

theorem apart_of_fresh : ∀ {t : Request}, t.Fresh → t.Apart
  | .verify _ .start, _ => ⟨rfl, rfl, rfl, rfl⟩
  | .setup .., _ => ⟨rfl, rfl, rfl, rfl⟩
  | .put .., _ => ⟨rfl, rfl, rfl, rfl⟩

theorem apart_of_stage {secret : Option String} : ∀ {at' : VerifyAt}, (∀ e g, at' ≠ .read e g) → at' ≠ .tenth → at' ≠ .renewed → (Request.verify secret at').Apart
  | .read e g, h, _, _ => absurd rfl (h e g)
  | .tenth, _, h, _ => absurd rfl h
  | .renewed, _, _, h => absurd rfl h
  | .start, _, _, _ | .checked, _, _, _ | .reset, _, _, _ | .answered .., _, _, _ => ⟨rfl, rfl, rfl, rfl⟩

section Steps

variable {ts : List Request} {t t' : Request}

theorem noTenth_set (hget : ts[i]? = some t) (ht : t.isTenth = false) (ht' : t'.isTenth = false) : NoTenth (ts.set i t') ↔ NoTenth ts :=
  ⟨fun h => forall_mem_of_set hget h ht, fun h => forall_mem_set h ht'⟩

theorem noRenewed_set (hget : ts[i]? = some t) (ht : t.isRenewed = false) (ht' : t'.isRenewed = false) :
    NoRenewed (ts.set i t') ↔ NoRenewed ts :=
  ⟨fun h => forall_mem_of_set hget h ht, fun h => forall_mem_set h ht'⟩

theorem not_noTenth_set (hget : ts[i]? = some t) (ht' : t'.isTenth = true) : ¬ NoTenth (ts.set i t') := fun h => by
  have := h t' (mem_set_of_some hget)
  rw [ht'] at this
  cases this

theorem not_noRenewed_set (hget : ts[i]? = some t) (ht' : t'.isRenewed = true) : ¬ NoRenewed (ts.set i t') := fun h => by
  have := h t' (mem_set_of_some hget)
  rw [ht'] at this
  cases this

/-- The threads but for one that leaves the guesses alone. -/
theorem guessInv_set (hinv : GuessInv d ts) (hget : ts[i]? = some t) (htenth : t.isTenth = false) (hrenewed : t.isRenewed = false)
    (hapart : t'.Apart) : GuessInv d (ts.set i t') where
  right := forall_mem_set (fun u hu g hg => ⟨(hinv.right u hu g hg).1, (noTenth_set hget htenth hapart.isTenth).2 (hinv.right u hu g hg).2⟩)
    fun g hg => by rw [hapart.holdsRight] at hg; cases hg
  below h := hinv.below ((noTenth_set hget htenth hapart.isTenth).1 h)
  calm h h' := hinv.calm ((noTenth_set hget htenth hapart.isTenth).1 h) ((noRenewed_set hget hrenewed hapart.isRenewed).1 h')
  renewed h h' := hinv.renewed ((noTenth_set hget htenth hapart.isTenth).1 h) fun hno => h' ((noRenewed_set hget hrenewed hapart.isRenewed).2 hno)
  future := hinv.future
  reads := forall_mem_set hinv.reads fun g hg => by rw [hapart.reads] at hg; cases hg

theorem forall_mem_append {P : Request → Prop} (hall : ∀ u ∈ ts, P u) (ht : P t) : ∀ u ∈ ts ++ [t], P u :=
  fun u hu => (List.mem_append.1 hu).elim (hall u) fun hu => List.mem_singleton.1 hu ▸ ht

/-- A request comes in. -/
theorem guessInv_append (hinv : GuessInv d ts) (hapart : t.Apart) : GuessInv d (ts ++ [t]) := by
  have hold : NoTenth (ts ++ [t]) → NoTenth ts := fun h u hu => h u (List.mem_append_left _ hu)
  have hold' : NoRenewed (ts ++ [t]) → NoRenewed ts := fun h u hu => h u (List.mem_append_left _ hu)
  have hright : ∀ g, t.holdsRight ≠ some g := fun g => by simp [hapart.holdsRight]
  have hreads : ∀ g, t.reads ≠ some g := fun g => by simp [hapart.reads]
  exact ⟨forall_mem_append (fun u hu g hg => ⟨(hinv.right u hu g hg).1, forall_mem_append (hinv.right u hu g hg).2 hapart.isTenth⟩)
      fun g hg => absurd hg (hright g),
    fun h => hinv.below (hold h), fun h h' => hinv.calm (hold h) (hold' h'),
    fun h h' => hinv.renewed (hold h) fun hno => h' (forall_mem_append hno hapart.isRenewed), hinv.future,
    forall_mem_append hinv.reads fun g hg => absurd hg (hreads g)⟩

theorem guessInv_same (hinv : GuessInv d ts) (hsame : d.SameGuess d') : GuessInv d' ts := by
  obtain ⟨-, hfailed, hgeneration, hwrong⟩ := hsame
  obtain ⟨hright, hbelow, hcalm, hrenewed, hfuture, hreads⟩ := hinv
  rw [← hgeneration] at hright hbelow hcalm hrenewed hfuture hreads
  rw [← hwrong] at hbelow hcalm hrenewed hfuture
  rw [← hfailed] at hcalm
  exact ⟨hright, hbelow, hcalm, hrenewed, hfuture, hreads⟩

/-- The secret is read. -/
theorem guessInv_reads {secret : Option String} (hinv : GuessInv d ts) (hget : ts[i]? = some (.verify secret .checked))
    (hok : Right (secret.getD "") d.pairingSecret → NoTenth ts) : GuessInv d (ts.set i (.verify secret (.read d.pairingSecret d.generation))) where
  right := forall_mem_set (fun u hu g hg => ⟨(hinv.right u hu g hg).1, (noTenth_set hget rfl rfl).2 (hinv.right u hu g hg).2⟩) fun g hg => by
    simp only [Request.holdsRight] at hg
    split at hg
    · rename_i hright
      exact ⟨(Option.some.inj hg).symm, (noTenth_set hget rfl rfl).2 (hok hright)⟩
    · cases hg
  below h := hinv.below ((noTenth_set hget rfl rfl).1 h)
  calm h h' := hinv.calm ((noTenth_set hget rfl rfl).1 h) ((noRenewed_set hget rfl rfl).1 h')
  renewed h h' := hinv.renewed ((noTenth_set hget rfl rfl).1 h) fun hno => h' ((noRenewed_set hget rfl rfl).2 hno)
  future := hinv.future
  reads := forall_mem_set hinv.reads fun g hg => (Option.some.inj hg).symm.le

/-- A right guess resets the counter. -/
theorem guessInv_right (hinv : GuessInv d ts) (hno : NoTenth ts) : GuessInv d.resetWrong ts := by
  have hzero : d.resetWrong.wrong d.generation = 0 := if_neg (Nat.not_le.2 (hinv.below hno))
  refine ⟨hinv.right, fun _ => ?_, fun _ _ => ?_, fun _ _ => hzero, fun g hg => ?_, hinv.reads⟩
  · show d.resetWrong.wrong d.generation < _
    rw [hzero]
    decide
  · show 0 ≤ (0 : Int) ∧ (0 : Int) < _ ∧ (d.resetWrong.wrong d.generation : Int) ≤ 0
    rw [hzero]
    decide
  · show (if maxVerifyFailures ≤ d.wrong g then d.wrong g else 0) = 0
    rw [hinv.future g hg]
    rfl

theorem countWrong_future {g : Nat} (hinv : GuessInv d ts) (hg : g ≤ d.generation) : ∀ g', d.generation < g' → (d.countWrong g).wrong g' = 0 :=
  fun g' hg' => (Function.update_of_ne (by omega) _ _).trans (hinv.future g' hg')

/-- The tenth wrong guess is counted, and no right one is under way. -/
theorem guessInv_tenth {secret : Option String} {expected : String} {g : Nat} (hinv : GuessInv d ts)
    (hget : ts[i]? = some (.verify secret (.read expected g))) (hnone : ∀ u ∈ ts, u.holdsRight = none) :
    GuessInv (d.countWrong g) (ts.set i (.verify secret .tenth)) where
  right := forall_mem_set (fun u hu g hg => by rw [hnone u hu] at hg; cases hg) nofun
  below h := absurd h (not_noTenth_set hget rfl)
  calm h _ := absurd h (not_noTenth_set hget rfl)
  renewed h _ := absurd h (not_noTenth_set hget rfl)
  future := countWrong_future hinv (hinv.reads _ (List.mem_of_getElem? hget) g rfl)
  reads := forall_mem_set hinv.reads nofun

theorem wrap32_succ {n : Int} (h0 : 0 ≤ n) (h : n < maxVerifyFailures) : wrap32 (n + 1) = n + 1 := by
  unfold wrap32
  simp only [maxVerifyFailures] at h
  omega

/-- Another wrong guess is counted. -/
theorem guessInv_wrong {g : Nat} (hinv : GuessInv d ts) (hle : g ≤ d.generation) (hten : (d.countWrong g).failedVerify ≠ maxVerifyFailures)
    (hfresh : g = d.generation → NoRenewed ts) : GuessInv (d.countWrong g) ts := by
  have hcalm : NoTenth ts → NoRenewed ts → 0 ≤ (d.countWrong g).failedVerify ∧ (d.countWrong g).failedVerify < maxVerifyFailures ∧
      ((d.countWrong g).wrong d.generation : Int) ≤ (d.countWrong g).failedVerify := fun h h' => by
    obtain ⟨hlow, hhigh, hle'⟩ := hinv.calm h h'
    have hcount : (d.countWrong g).failedVerify = d.failedVerify + 1 := wrap32_succ hlow hhigh
    have hwrong : (d.countWrong g).wrong d.generation ≤ d.wrong d.generation + 1 := by
      show Function.update d.wrong g (d.wrong g + 1) d.generation ≤ _
      rw [Function.update_apply]
      split
      · rename_i hg
        rw [hg]
      · omega
    rw [hcount] at hten ⊢
    exact ⟨by omega, by omega, by omega⟩
  have hrenewed : NoTenth ts → ¬ NoRenewed ts → (d.countWrong g).wrong d.generation = 0 := fun h h' =>
    (Function.update_of_ne (fun hg => h' (hfresh hg.symm)) _ _).trans (hinv.renewed h h')
  refine ⟨hinv.right, fun h => ?_, hcalm, hrenewed, countWrong_future hinv hle, hinv.reads⟩
  show (d.countWrong g).wrong d.generation < _
  by_cases h' : NoRenewed ts
  · have := hcalm h h'
    omega
  · rw [hrenewed h h']
    decide

/-- A new secret, which nobody has guessed at. -/
theorem guessInv_renews {secret : Option String} (hinv : GuessInv d ts) (hget : ts[i]? = some (.verify secret .tenth)) (fresh : String) :
    GuessInv { d with pairingSecret := fresh, generation := d.generation + 1 } (ts.set i (.verify secret .renewed)) := by
  have hnone : ∀ u ∈ ts, ∀ g, u.holdsRight ≠ some g := fun u hu g hg => by
    have := (hinv.right u hu g hg).2 _ (List.mem_of_getElem? hget)
    cases this
  have hzero : d.wrong (d.generation + 1) = 0 := hinv.future _ (Nat.lt_succ_self _)
  refine ⟨forall_mem_set (fun u hu g hg => absurd hg (hnone u hu g)) nofun, fun _ => ?_, fun _ h => absurd h (not_noRenewed_set hget rfl), fun _ _ => hzero,
    fun g hg => hinv.future g (Nat.lt_of_succ_lt hg), forall_mem_set (fun u hu g hg => (hinv.reads u hu g hg).trans (Nat.le_succ _)) nofun⟩
  show d.wrong (d.generation + 1) < _
  rw [hzero]
  decide

/-- The counter is reset for the new secret. -/
theorem guessInv_resets {secret : Option String} (hinv : GuessInv d ts) (hget : ts[i]? = some (.verify secret .renewed)) :
    GuessInv { d with failedVerify := 0 } (ts.set i (.verify secret (.answered 401 none))) := by
  have hpre : ¬ NoRenewed ts := fun h => by
    have := h _ (List.mem_of_getElem? hget)
    cases this
  have hzero : NoTenth (ts.set i (.verify secret (.answered 401 none))) → d.wrong d.generation = 0 := fun h =>
    hinv.renewed ((noTenth_set hget rfl rfl).1 h) hpre
  refine ⟨forall_mem_set (fun u hu g hg => ⟨(hinv.right u hu g hg).1, (noTenth_set hget rfl rfl).2 (hinv.right u hu g hg).2⟩) nofun, fun h => ?_,
    fun h _ => ?_, fun h _ => hzero h, hinv.future, forall_mem_set hinv.reads nofun⟩
  · show d.wrong d.generation < _
    rw [hzero h]
    decide
  · show 0 ≤ (0 : Int) ∧ (0 : Int) < _ ∧ (d.wrong d.generation : Int) ≤ 0
    rw [hzero h]
    decide

/-- One step of a verification. -/
theorem guessInv_verify {w : Served} {secret : Option String} {at' at'' : VerifyAt} (hinv : GuessInv w.shared w.threads)
    (hget : w.threads[i]? = some (.verify secret at')) (hok : GuessOk w (.turn i luck))
    (h : handlePairVerify luck secret at' w.shared = some (at'', d')) : GuessInv d' (w.threads.set i (.verify secret at'')) := by
  obtain ⟨hguessed, hnew⟩ := guessed_of_verify h
  have hmem : Request.verify secret at' ∈ w.threads := List.mem_of_getElem? hget
  simp only [GuessOk, hget] at hok
  generalize w.shared = d at hguessed hinv hok
  cases hguessed with
  | reads => exact guessInv_reads hinv hget hok
  | right expected g d hright =>
    have hno : NoTenth w.threads := (hinv.right _ hmem g (if_pos hright)).2
    exact guessInv_set (guessInv_right hinv hno) hget rfl rfl ⟨rfl, rfl, rfl, rfl⟩
  | tenth expected g d hwrong hten => exact guessInv_tenth hinv hget ((hok hwrong).1 hten)
  | wrong expected g d hwrong hten =>
    exact guessInv_set (guessInv_wrong hinv (hinv.reads _ hmem g rfl) hten (hok hwrong).2) hget rfl rfl ⟨rfl, rfl, rfl, rfl⟩
  | renews random d => exact guessInv_renews hinv hget _
  | resets d => exact guessInv_resets hinv hget
  | other hsame hrenewed hread htenth hrenewed' =>
    have hnotTenth : at' ≠ .tenth := fun heq => by
      subst heq
      exact hrenewed' (hnew rfl hok)
    have hold : (Request.verify secret at').isTenth = false ∧ (Request.verify secret at').isRenewed = false := by
      cases at' with
      | tenth => exact absurd rfl hnotTenth
      | renewed => exact absurd rfl hrenewed
      | _ => exact ⟨rfl, rfl⟩
    exact guessInv_set (guessInv_same hinv hsame) hget hold.1 hold.2 (apart_of_stage hread htenth hrenewed')

end Steps

/-! ## Runs -/

variable {w : Served} {tr : List (Moved Daemon Request Luck Nat)}

theorem guessInv_runs {ok : Served → Call → Prop} (hok : ∀ w mv, ok w mv → GuessOk w mv ∧ ∀ t, mv = .start t → t.Fresh)
    (hr : (pairing encode).Runs Begins ok w tr) : GuessInv w.shared w.threads := by
  refine hr.invariant (P := fun w _ => GuessInv w.shared w.threads) (fun w => guessInv_begins) fun w w' tr mv _ hinv hmv hst => ?_
  rcases Stages.step_cases hst with ⟨t, rfl, rfl⟩ | ⟨i, luck, t, t', d', rfl, hget, hact, rfl⟩ | ⟨n, rfl, rfl⟩
  · exact guessInv_append hinv (apart_of_fresh ((hok w _ hmv).2 t rfl))
  · cases t with
    | verify secret at' =>
      obtain ⟨⟨at'', d''⟩, hstep, heq⟩ := Option.map_eq_some_iff.1 hact
      obtain ⟨rfl, rfl⟩ := Prod.mk.inj heq
      exact guessInv_verify hinv hget (hok w _ hmv).1 hstep
    | setup body at' =>
      obtain ⟨⟨at'', d''⟩, hstep, heq⟩ := Option.map_eq_some_iff.1 hact
      obtain ⟨rfl, rfl⟩ := Prod.mk.inj heq
      exact guessInv_set (guessInv_same hinv (setup_sameGuess hstep)) hget rfl rfl ⟨rfl, rfl, rfl, rfl⟩
    | put body at' =>
      obtain ⟨⟨at'', d''⟩, hstep, heq⟩ := Option.map_eq_some_iff.1 hact
      obtain ⟨rfl, rfl⟩ := Prod.mk.inj heq
      exact guessInv_set (guessInv_same hinv (put_sameGuess hstep)) hget rfl rfl ⟨rfl, rfl, rfl, rfl⟩
  · exact guessInv_same hinv ⟨rfl, rfl, rfl, rfl⟩

/-- A right guess at a secret passes only while fewer than ten wrong ones were counted against it. -/
def Spent (tr : List (Moved Daemon Request Luck Nat)) : Prop :=
  ∀ d ∈ tr, ∀ i luck secret expected g, d.move = .turn i luck → d.pre.threads[i]? = some (.verify secret (.read expected g)) →
    Right (secret.getD "") expected → d.pre.shared.wrong g < maxVerifyFailures

theorem spent_of_runs {ok : Served → Call → Prop} (hok : ∀ w mv, ok w mv → GuessOk w mv ∧ ∀ t, mv = .start t → t.Fresh)
    (hr : (pairing encode).Runs Begins ok w tr) : Spent tr := by
  intro d hd i luck secret expected g _ hget hright
  obtain ⟨older, hpre, -⟩ := hr.of_mem hd
  have hinv := guessInv_runs hok hpre
  obtain ⟨rfl, hno⟩ := hinv.right _ (List.mem_of_getElem? hget) g (if_pos hright)
  exact hinv.below hno

end Purdex.Core
