/-
One loop at a time: what is reported and started belongs to the loop of the latest trigger, which has one check or one timer, and a loop that
was refused ends at its deadline.
-/
import Purdex.Retry.Machine
import Mathlib.Data.List.Perm.Basic
import Mathlib.Data.List.Induction

namespace Purdex.Retry

open Conc World

variable {w w' : World} {c c' : Check} {t : Timer} {r : HealthResult}

/-! ## The loop that goes on -/

/-- The loop of the latest trigger, if it was not stopped behind it and has not ended. -/
def live : List Event → Option Nat
  | [] => none
  | .triggered loop :: _ => some loop
  | .stopped :: _ => none
  | .started _ _ :: log => live log
  | .reported _ r _ :: log => if r.final then none else live log

/-- The last of the checks at once was refused then. -/
def RefusedAt (log : List Event) (loop now : Nat) : Prop :=
  ∃ c r, .reported c r now ∈ log ∧ c.loop = loop ∧ c.attempt = .fast 2 ∧ r.daemon = .refused

/-- Every result that was reported and every check that was started was of the loop that went on, and no check comes after the deadline. -/
def Sound : List Event → Prop
  | [] => True
  | .triggered _ :: log => Sound log
  | .stopped :: log => Sound log
  | .started c now :: log => live log = some c.loop ∧ (∀ then', RefusedAt log c.loop then' → now < then' + l2RetryTimeoutMs) ∧ Sound log
  | .reported c _ _ :: log => live log = some c.loop ∧ Sound log

/-! ## Checks and timers of the latest loop -/

def isCurrent (epoch : Nat) (c : Check) : Bool := c.epoch = epoch

def isArmed (epoch : Nat) (t : Timer) : Bool := t.armed && t.epoch = epoch

def busy (w : World) : Nat := w.checks.countP (isCurrent w.epoch) + w.timers.countP (isArmed w.epoch)

theorem countP_disarm_le {p : Timer → Bool} (hp : ∀ t : Timer, p { t with armed := false } = true → p t = true) :
    ∀ (l : List Timer) (k : Nat), (l.modify k fun t => { t with armed := false }).countP p ≤ l.countP p
  | [], _ => by simp
  | t :: l, 0 => by
    rw [List.modify_zero_cons, List.countP_cons, List.countP_cons]
    have hle : (if p { t with armed := false } = true then 1 else 0) ≤ if p t = true then 1 else 0 := by
      split
      · rename_i h
        exact Nat.le_of_eq (if_pos (hp t h)).symm
      · exact Nat.zero_le _
    omega
  | t :: l, k + 1 => by
    rw [List.modify_succ_cons, List.countP_cons, List.countP_cons]
    have hle := countP_disarm_le hp l k
    omega

theorem mem_disarm {l : List Timer} {k : Nat} (h : t ∈ l.modify k fun t => { t with armed := false }) :
    ∃ u ∈ l, t.loop = u.loop ∧ t.epoch = u.epoch := by
  induction l generalizing k with
  | nil => simp at h
  | cons u l ih =>
    cases k with
    | zero =>
      rw [List.modify_zero_cons, List.mem_cons] at h
      rcases h with rfl | h
      · exact ⟨u, List.mem_cons_self, rfl, rfl⟩
      · exact ⟨t, List.mem_cons_of_mem _ h, rfl, rfl⟩
    | succ k =>
      rw [List.modify_succ_cons, List.mem_cons] at h
      rcases h with rfl | h
      · exact ⟨t, List.mem_cons_self, rfl, rfl⟩
      · obtain ⟨v, hv, hsame⟩ := ih h
        exact ⟨v, List.mem_cons_of_mem _ hv, hsame⟩

theorem isArmed_disarm {epoch : Nat} (h : isArmed epoch { t with armed := false } = true) : isArmed epoch t = true := by
  simp [isArmed] at h

theorem stopBackground_timers (w : World) : (∀ t ∈ w.stopBackground.timers, ∃ u ∈ w.timers, t.loop = u.loop ∧ t.epoch = u.epoch) ∧
    ∀ epoch, w.stopBackground.timers.countP (isArmed epoch) ≤ w.timers.countP (isArmed epoch) := by
  unfold stopBackground
  cases w.backgroundTimer with
  | none => exact ⟨fun t ht => ⟨t, ht, rfl, rfl⟩, fun _ => Nat.le_refl _⟩
  | some k => exact ⟨fun t ht => mem_disarm ht, fun epoch => countP_disarm_le (fun t => isArmed_disarm) _ _⟩

/-! ## What every state keeps -/

structure Kept (w : World) : Prop where
  loops : w.loops = w.epoch
  checks : ∀ c ∈ w.checks, c.loop = c.epoch ∧ c.epoch ≤ w.epoch
  timers : ∀ t ∈ w.timers, t.loop = t.epoch ∧ t.epoch ≤ w.epoch
  one : busy w ≤ 1
  live : w.stopped = false → busy w ≠ 0 → live w.log = some w.epoch
  deadline : w.stopped = false → busy w ≠ 0 → ∀ now, RefusedAt w.log w.epoch now → w.backgroundDeadline = some (now + l2RetryTimeoutMs)
  /-- A loop makes its checks at once one after the other. -/
  fresh : ∀ c ∈ w.checks, c.epoch = w.epoch → ∀ i, c.attempt = .fast i → i < 3 ∧
    ∀ c' r now j, .reported c' r now ∈ w.log → c'.loop = w.epoch → c'.attempt = .fast j → j < i
  past : ∀ c r now, .reported c r now ∈ w.log → c.loop ≤ w.epoch
  sound : Sound w.log

theorem kept_initial : Kept World.initial where
  loops := rfl
  checks := nofun
  timers := nofun
  one := Nat.zero_le _
  live := fun _ h => absurd rfl h
  deadline := fun _ h => absurd rfl h
  fresh := fun _ h => absurd h List.not_mem_nil
  past := fun _ _ _ h => absurd h List.not_mem_nil
  sound := trivial

theorem not_current_of_busy (h : busy w = 0) (hc : c ∈ w.checks) : c.epoch ≠ w.epoch := by
  have hzero : w.checks.countP (isCurrent w.epoch) = 0 := Nat.eq_zero_of_add_eq_zero_right h
  exact fun heq => List.countP_eq_zero.1 hzero c hc (decide_eq_true heq)

/-- What `checkFn` is called for, in a state with neither a check nor a timer of the loop. -/
theorem Kept.start (h : Kept w) (hbusy : busy w = 0) (hloop : c.loop = w.epoch) (hepoch : c.epoch = w.epoch) (hlive : Retry.live w.log = some w.epoch)
    (hdeadline : ∀ now, RefusedAt w.log w.epoch now → w.backgroundDeadline = some (now + l2RetryTimeoutMs) ∧ w.now < now + l2RetryTimeoutMs)
    (hfresh : ∀ i, c.attempt = .fast i → i < 3 ∧ ∀ c' r now j, .reported c' r now ∈ w.log → c'.loop = w.epoch → c'.attempt = .fast j → j < i) :
    Kept (w.start c) := by
  have hreported : ∀ {c' : Check} {r : HealthResult} {now : Nat}, .reported c' r now ∈ (w.start c).log → .reported c' r now ∈ w.log := fun hmem =>
    (List.mem_cons.1 hmem).resolve_left nofun
  have hrefused : ∀ {loop now}, RefusedAt (w.start c).log loop now → RefusedAt w.log loop now := fun ⟨c', r, hmem, hrest⟩ =>
    ⟨c', r, hreported hmem, hrest⟩
  refine ⟨h.loops, fun c' hc' => ?_, h.timers, ?_, fun _ _ => hlive, fun _ _ now hnow => (hdeadline now (hrefused hnow)).1, fun c' hc' heq i hi => ?_,
    fun c' r now hmem => h.past c' r now (hreported hmem), ?_⟩
  · rcases List.mem_append.1 hc' with hc' | hc'
    · exact h.checks c' hc'
    · rw [List.mem_singleton.1 hc', hloop, hepoch]
      exact ⟨rfl, Nat.le_refl _⟩
  · change (w.checks ++ [c]).countP (isCurrent w.epoch) + w.timers.countP (isArmed w.epoch) ≤ 1
    have hle : [c].countP (isCurrent w.epoch) ≤ 1 := List.countP_le_length
    rw [List.countP_append]
    unfold busy at hbusy
    omega
  · rcases List.mem_append.1 hc' with hc' | hc'
    · exact absurd heq (not_current_of_busy (w := w) hbusy hc')
    · rw [List.mem_singleton.1 hc'] at hi
      exact ⟨(hfresh i hi).1, fun c'' r now j hmem => (hfresh i hi).2 c'' r now j (hreported hmem)⟩
  · refine ⟨hlive.trans (congrArg some hloop.symm), fun now hnow => ?_, h.sound⟩
    rw [hloop] at hnow
    exact (hdeadline now hnow).2

theorem Kept.startBackground (h : Kept w) (hbusy : busy w = 0) (hlive : w.stopped = false → Retry.live w.log = some w.epoch) {loop delayMs : Nat}
    (hloop : loop = w.epoch)
    (hdeadline : ∀ now, RefusedAt w.log w.epoch now → w.backgroundDeadline = some (now + l2RetryTimeoutMs)) :
    Kept (w.startBackground loop delayMs) := by
  unfold World.startBackground
  split
  · exact h
  rename_i hstopped
  refine ⟨h.loops, h.checks, fun t ht => ?_, ?_, fun hs _ => hlive hs, fun _ _ => hdeadline, h.fresh, h.past, h.sound⟩
  · rcases List.mem_append.1 ht with ht | ht
    · exact h.timers t ht
    · rw [List.mem_singleton.1 ht]
      exact ⟨hloop, Nat.le_refl _⟩
  · let t : Timer := ⟨loop, w.epoch, delayMs, w.now + delayMs, true⟩
    change w.checks.countP (isCurrent w.epoch) + (w.timers ++ [t]).countP (isArmed w.epoch) ≤ 1
    have hle : [t].countP (isArmed w.epoch) ≤ 1 := List.countP_le_length
    rw [List.countP_append]
    unfold busy at hbusy
    omega

/-! ## Calls -/

/-- A new loop, of which nothing is there yet. -/
theorem Kept.trigger (h : Kept w) : Kept w.trigger := by
  obtain ⟨hsame, -⟩ := stopBackground_timers w
  let v : World := { w.stopBackground with epoch := w.epoch + 1, stopped := false, loops := w.loops + 1, log := .triggered (w.loops + 1) :: w.log }
  have htimers : ∀ t ∈ v.timers, t.loop = t.epoch ∧ t.epoch ≤ w.epoch := fun t ht => by
    obtain ⟨u, hu, hloop, hepoch⟩ := hsame t ht
    rw [hloop, hepoch]
    exact h.timers u hu
  have hbusy : busy v = 0 := by
    have hchecks : w.checks.countP (isCurrent (w.epoch + 1)) = 0 := List.countP_eq_zero.2 fun c hc heq => by
      have hle := (h.checks c hc).2
      have heq : c.epoch = w.epoch + 1 := of_decide_eq_true heq
      omega
    have harmed : v.timers.countP (isArmed (w.epoch + 1)) = 0 := List.countP_eq_zero.2 fun t ht heq => by
      have hle := (htimers t ht).2
      have heq : t.epoch = w.epoch + 1 := of_decide_eq_true (Bool.and_eq_true_iff.1 heq).2
      omega
    change w.checks.countP (isCurrent (w.epoch + 1)) + v.timers.countP (isArmed (w.epoch + 1)) = 0
    rw [hchecks, harmed]
  have hreported : ∀ {c : Check} {r : HealthResult} {now : Nat}, .reported c r now ∈ v.log → c.loop ≤ w.epoch := fun hmem =>
    h.past _ _ _ ((List.mem_cons.1 hmem).resolve_left nofun)
  have hkept : Kept v := by
    refine ⟨congrArg (· + 1) h.loops, fun c hc => ?_, fun t ht => ?_, hbusy ▸ Nat.zero_le 1, fun _ hne => absurd hbusy hne,
      fun _ hne => absurd hbusy hne, fun c hc heq => absurd heq (not_current_of_busy hbusy hc),
      fun c r now hmem => Nat.le_succ_of_le (hreported hmem), h.sound⟩
    · exact ⟨(h.checks c hc).1, Nat.le_succ_of_le (h.checks c hc).2⟩
    · exact ⟨(htimers t ht).1, Nat.le_succ_of_le (htimers t ht).2⟩
  have hnone : ∀ {c : Check} {r : HealthResult} {now : Nat}, .reported c r now ∈ v.log → c.loop ≠ v.epoch := by
    intro c r now hmem heq
    have hle := hreported hmem
    have heq : c.loop = w.epoch + 1 := heq
    omega
  refine hkept.start hbusy (congrArg (· + 1) h.loops) rfl (congrArg (fun n => some (n + 1)) h.loops) ?_ fun i hi => ?_
  · rintro now ⟨c, r, hmem, hloop, -⟩
    exact absurd hloop (hnone hmem)
  · obtain rfl := Attempt.fast.inj hi
    exact ⟨by decide, fun c r now j hmem heq => absurd heq (hnone hmem)⟩

theorem Kept.stop (h : Kept w) : Kept w.stop := by
  obtain ⟨hsame, hcount⟩ := stopBackground_timers { w with stopped := true, log := .stopped :: w.log }
  have hreported : ∀ {c : Check} {r : HealthResult} {now : Nat}, .reported c r now ∈ w.stop.log → .reported c r now ∈ w.log := fun hmem =>
    (List.mem_cons.1 hmem).resolve_left nofun
  refine ⟨h.loops, h.checks, fun t ht => ?_, ?_, nofun, nofun, fun c hc heq i hi => ⟨(h.fresh c hc heq i hi).1, ?_⟩,
    fun c r now hmem => h.past c r now (hreported hmem), h.sound⟩
  · obtain ⟨u, hu, hloop, hepoch⟩ := hsame t ht
    rw [hloop, hepoch]
    exact h.timers u hu
  · exact Nat.le_trans (Nat.add_le_add_left (hcount w.epoch) _) h.one
  · exact fun c' r now j hmem => (h.fresh c hc heq i hi).2 c' r now j (hreported hmem)

theorem Kept.calls (h : Kept w) (calls : List Call) : Kept (calls.foldl (fun w call => call.apply w) w) := by
  induction calls generalizing w with
  | nil => exact h
  | cons call calls ih =>
    cases call with
    | trigger => exact ih h.trigger
    | stop => exact ih h.stop

/-- Where no other loop has begun and the machine has not stopped, there were no calls. -/
theorem calls_nil (calls : List Call) (w : World) :
    w.epoch ≤ (calls.foldl (fun w call => call.apply w) w).epoch ∧
      ((calls.foldl (fun w call => call.apply w) w).epoch = w.epoch → (calls.foldl (fun w call => call.apply w) w).stopped = false → calls = []) := by
  induction calls using List.reverseRecOn with
  | nil => exact ⟨Nat.le_refl _, fun _ _ => rfl⟩
  | append_singleton calls call ih =>
    rw [List.foldl_concat]
    cases call with
    | trigger =>
      have hepoch : (Call.trigger.apply (calls.foldl (fun w call => call.apply w) w)).epoch = (calls.foldl (fun w call => call.apply w) w).epoch + 1 := rfl
      rw [hepoch]
      have hle := ih.1
      exact ⟨by omega, fun heq => by omega⟩
    | stop =>
      exact ⟨ih.1, fun _ hstopped => absurd hstopped (Bool.noConfusion ·)⟩

/-! ## Timers and results -/

/-- A timer that fires is armed no more, and it was the only thing of its loop. -/
theorem Kept.disarm (h : Kept w) {k : Nat} (ht : w.timers[k]? = some t) (harmed : t.armed = true) :
    Kept { w with timers := w.timers.set k { t with armed := false } } ∧
      (t.epoch = w.epoch → busy w ≠ 0 ∧ busy { w with timers := w.timers.set k { t with armed := false } } = 0) := by
  obtain ⟨hk, hget⟩ := List.getElem?_eq_some_iff.1 ht
  have hnot : isArmed w.epoch { t with armed := false } = false := rfl
  have hcount : (w.timers.set k { t with armed := false }).countP (isArmed w.epoch) =
      w.timers.countP (isArmed w.epoch) - if isArmed w.epoch t = true then 1 else 0 := by
    rw [List.countP_set hk, hget, hnot]
    exact Nat.add_zero _
  have hle : busy { w with timers := w.timers.set k { t with armed := false } } ≤ busy w := by
    unfold busy
    dsimp only
    rw [hcount]
    omega
  refine ⟨⟨h.loops, h.checks, fun u hu => ?_, Nat.le_trans hle h.one, fun hs hne => h.live hs (by omega), fun hs hne => h.deadline hs (by omega),
    h.fresh, h.past, h.sound⟩, fun hepoch => ?_⟩
  · rcases List.mem_or_eq_of_mem_set hu with hu | rfl
    · exact h.timers u hu
    · exact h.timers t (List.mem_of_getElem? ht)
  · have hcurrent : isArmed w.epoch t = true := by simp [isArmed, harmed, hepoch]
    have hpos : 0 < w.timers.countP (isArmed w.epoch) := List.countP_pos_iff.2 ⟨t, List.mem_of_getElem? ht, hcurrent⟩
    have hone := h.one
    rw [if_pos hcurrent] at hcount
    unfold busy at hone ⊢
    dsimp only
    rw [hcount]
    omega

theorem left_eq_false {epoch : Nat} (h : ¬w.left epoch = true) : w.stopped = false ∧ w.epoch = epoch := by
  unfold World.left at h
  rw [Bool.not_eq_true, Bool.or_eq_false_iff] at h
  exact ⟨h.1, by simpa using h.2⟩

theorem Kept.fire (h : Kept w) {k : Nat} (hstep : step (.fire k) w = some w') : Kept w' := by
  obtain ⟨t, ht, hstep⟩ := Option.bind_eq_some_iff.1 hstep
  split at hstep
  · rename_i hdue
    obtain ⟨hkept, hcurrent⟩ := h.disarm ht hdue.1
    dsimp only at hstep
    split at hstep
    · exact Option.some.inj hstep ▸ hkept
    rename_i hleft
    obtain ⟨hstopped, hepoch⟩ := left_eq_false hleft
    obtain ⟨hbusy, hfree⟩ := hcurrent hepoch.symm
    split at hstep
    · exact Option.some.inj hstep ▸ hkept
    rename_i hdeadline
    rw [← Option.some.inj hstep]
    have hloop := (h.timers t (List.mem_of_getElem? ht)).1.trans hepoch.symm
    refine hkept.start hfree hloop hepoch.symm (h.live hstopped hbusy) (fun now hnow => ?_) nofun
    have hset := h.deadline hstopped hbusy now hnow
    refine ⟨hset, Nat.lt_of_not_le fun hle => hdeadline ?_⟩
    rw [hset, Option.any_some]
    exact decide_eq_true hle
  · cases hstep

/-- A result is reported, and its loop has nothing else. -/
theorem Kept.report (h : Kept w) {i : Nat} (hc : w.checks[i]? = some c) (r : HealthResult) :
    Kept { w with checks := w.checks.eraseIdx i } ∧ (w.stopped = false → w.epoch = c.epoch → busy w ≠ 0 ∧
      busy { w with checks := w.checks.eraseIdx i } = 0 ∧ Kept { w with checks := w.checks.eraseIdx i, log := .reported c r w.now :: w.log }) := by
  obtain ⟨hi, hget⟩ := List.getElem?_eq_some_iff.1 hc
  have hcount : w.checks.countP (isCurrent w.epoch) =
      (w.checks.eraseIdx i).countP (isCurrent w.epoch) + if isCurrent w.epoch c = true then 1 else 0 := by
    rw [← (List.getElem_cons_eraseIdx_perm hi).countP_eq, hget, List.countP_cons]
  have hle : busy { w with checks := w.checks.eraseIdx i } ≤ busy w := by
    unfold busy
    dsimp only
    omega
  have hmem : ∀ c ∈ w.checks.eraseIdx i, c ∈ w.checks := fun c hc => List.mem_of_mem_eraseIdx hc
  have hkept : Kept { w with checks := w.checks.eraseIdx i } :=
    ⟨h.loops, fun c hc => h.checks c (hmem c hc), h.timers, Nat.le_trans hle h.one, fun hs hne => h.live hs (by omega),
      fun hs hne => h.deadline hs (by omega), fun c hc => h.fresh c (hmem c hc), h.past, h.sound⟩
  refine ⟨hkept, fun hstopped hepoch => ?_⟩
  have hcurrent : isCurrent w.epoch c = true := decide_eq_true hepoch.symm
  rw [if_pos hcurrent] at hcount
  have hone := h.one
  have hbusy : busy w ≠ 0 := by
    unfold busy
    omega
  have hfree : busy { w with checks := w.checks.eraseIdx i } = 0 := by
    unfold busy at hone ⊢
    dsimp only
    omega
  have hloop : c.loop = w.epoch := (h.checks c (List.mem_of_getElem? hc)).1.trans hepoch.symm
  refine ⟨hbusy, hfree, h.loops, hkept.checks, h.timers, hkept.one, fun _ hne => absurd hfree hne, fun _ hne => absurd hfree hne,
    fun c hc heq => absurd heq (not_current_of_busy hfree hc), fun c' r' now hreported => ?_, ?_, h.sound⟩
  · rcases List.mem_cons.1 hreported with heq | hreported
    · obtain ⟨rfl, -, -⟩ := Event.reported.inj heq
      exact Nat.le_of_eq hloop
    · exact h.past c' r' now hreported
  · rw [hloop]
    exact h.live hstopped hbusy

theorem Kept.setDeadline (h : Kept w) (hfree : busy w = 0) (d : Option Nat) : Kept { w with backgroundDeadline := d } :=
  ⟨h.loops, h.checks, h.timers, h.one, fun _ hne => absurd hfree hne, fun _ hne => absurd hfree hne, h.fresh, h.past, h.sound⟩

theorem refusedAt_cons {log : List Event} {loop now now' : Nat} (h : RefusedAt (.reported c r now :: log) loop now') :
    (now' = now ∧ c.attempt = .fast 2 ∧ r.daemon = .refused) ∨ RefusedAt log loop now' := by
  obtain ⟨c', r', hmem, hloop, hattempt, hdaemon⟩ := h
  rcases List.mem_cons.1 hmem with heq | hmem
  · obtain ⟨rfl, rfl, rfl⟩ := Event.reported.inj heq
    exact .inl ⟨rfl, hattempt, hdaemon⟩
  · exact .inr ⟨c', r', hmem, hloop, hattempt, hdaemon⟩

/-- Where the last call does not start another loop, and the machine is not stopped, there were no calls. -/
theorem calls_nil_of_last {calls : List Call} (h : calls.getLast? ≠ some .trigger)
    (hstopped : (calls.foldl (fun w call => call.apply w) w).stopped = false) : calls = [] := by
  induction calls using List.reverseRecOn with
  | nil => rfl
  | append_singleton calls call _ =>
    rw [List.foldl_concat] at hstopped
    cases call with
    | trigger => exact absurd List.getLast?_concat h
    | stop => exact absurd hstopped (Bool.noConfusion ·)

theorem Kept.goOn {v : World} (hw : Kept w) (hc : c ∈ w.checks) (hepoch : w.epoch = c.epoch) (hstopped : w.stopped = false) (hbusy : busy w ≠ 0)
    (hv : Kept v) (hfree : busy v = 0) (hlog : v.log = .reported c r w.now :: w.log) (hnow : v.now = w.now) (hvepoch : v.epoch = w.epoch)
    (hvdeadline : v.backgroundDeadline = w.backgroundDeadline) (calls : List Call)
    (hlast : ∀ delayMs, c.attempt = .background delayMs → r.final = false → calls.getLast? ≠ some .trigger) :
    Kept ((calls.foldl (fun w call => call.apply w) v).goOn c r) := by
  have hcalls := hv.calls calls
  have hloop : c.loop = w.epoch := (hw.checks c hc).1.trans hepoch.symm
  unfold World.goOn
  split
  · exact hcalls
  rename_i hfinal
  have hfinal := eq_false_of_ne_true hfinal
  have hlive : Retry.live v.log = some v.epoch := by
    rw [hlog, hvepoch]
    exact (if_neg (ne_true_of_eq_false hfinal)).trans (hw.live hstopped hbusy)
  cases hattempt : c.attempt with
  | fast i =>
    obtain ⟨hlt, hold⟩ := hw.fresh c hc hepoch.symm i hattempt
    dsimp only
    split
    · exact hcalls
    rename_i hleft
    obtain ⟨hstopped', hepoch'⟩ := left_eq_false hleft
    obtain rfl := (calls_nil calls v).2 (hepoch'.trans (hepoch.symm.trans hvepoch.symm)) hstopped'
    -- No loop is refused at once before its third check.
    have hrefused : ∀ now, RefusedAt w.log w.epoch now → 2 < i := fun now ⟨c', r', hmem, hloop', hattempt', _⟩ =>
      hold c' r' now 2 hmem hloop' hattempt'
    change Kept (if i + 1 < fastRetryCount then v.start { c with attempt := .fast (i + 1) } else _)
    split
    · rename_i hnext
      refine hv.start hfree (hloop.trans hvepoch.symm) (hepoch.symm.trans hvepoch.symm) hlive (fun now hnow' => ?_) fun j hj => ?_
      · rw [hlog, hvepoch] at hnow'
        rcases refusedAt_cons hnow' with ⟨-, hsecond, -⟩ | hnow'
        · rw [hattempt] at hsecond
          obtain rfl := Attempt.fast.inj hsecond
          exact absurd hnext (by decide)
        · have hlt' := hrefused now hnow'
          omega
      · obtain rfl := Attempt.fast.inj hj
        refine ⟨hnext, fun c' r' now j hmem hloop' hattempt' => ?_⟩
        rw [hlog] at hmem
        rcases List.mem_cons.1 hmem with heq | hmem
        · obtain ⟨rfl, -, -⟩ := Event.reported.inj heq
          rw [hattempt] at hattempt'
          exact Attempt.fast.inj hattempt' ▸ Nat.lt_succ_self _
        · exact Nat.lt_succ_of_lt (hold c' r' now j hmem (hloop'.trans hvepoch) hattempt')
    · rename_i hnext
      have hthird : i = 2 := by
        unfold fastRetryCount at hnext
        omega
      have hnever : ∀ now, ¬RefusedAt w.log w.epoch now := fun now hnow' => by
        have hlt' := hrefused now hnow'
        omega
      cases hdaemon : r.daemon with
      | connected => exact hv
      | authError => exact hv
      | unreachable =>
        refine (hv.setDeadline hfree none).startBackground hfree (fun _ => hlive) (hloop.trans hvepoch.symm) fun now hnow' => ?_
        have hnow' : RefusedAt v.log v.epoch now := hnow'
        rw [hlog, hvepoch] at hnow'
        rcases refusedAt_cons hnow' with ⟨-, -, hrefused'⟩ | hnow'
        · rw [hdaemon] at hrefused'
          cases hrefused'
        · exact absurd hnow' (hnever now)
      | refused =>
        refine (hv.setDeadline hfree (some (v.now + l2RetryTimeoutMs))).startBackground hfree (fun _ => hlive) (hloop.trans hvepoch.symm)
          fun now hnow' => ?_
        have hnow' : RefusedAt v.log v.epoch now := hnow'
        rw [hlog, hvepoch] at hnow'
        rcases refusedAt_cons hnow' with ⟨rfl, -, -⟩ | hnow'
        · exact congrArg (fun n => some (n + l2RetryTimeoutMs)) hnow
        · exact absurd hnow' (hnever now)
  | background delayMs =>
    dsimp only
    cases hstopped' : (calls.foldl (fun w call => call.apply w) v).stopped with
    | true =>
      unfold World.startBackground
      rw [if_pos hstopped']
      exact hcalls
    | false =>
      obtain rfl := calls_nil_of_last (hlast delayMs hattempt hfinal) hstopped'
      refine hv.startBackground hfree (fun _ => hlive) (hloop.trans hvepoch.symm) fun now hnow' => ?_
      rw [hlog, hvepoch] at hnow'
      rcases refusedAt_cons hnow' with ⟨-, hsecond, -⟩ | hnow'
      · rw [hattempt] at hsecond
        cases hsecond
      · rw [hvdeadline]
        exact hw.deadline hstopped hbusy now hnow'

theorem Kept.step {m : Move} (h : Kept w) (hok : Restartless w m) (hstep : Retry.step m w = some w') : Kept w' := by
  cases m with
  | call call =>
    rw [← Option.some.inj hstep]
    cases call with
    | trigger => exact h.trigger
    | stop => exact h.stop
  | fire k => exact h.fire hstep
  | advance ms =>
    rw [← Option.some.inj hstep]
    exact ⟨h.loops, h.checks, h.timers, h.one, h.live, h.deadline, h.fresh, h.past, h.sound⟩
  | complete i r calls =>
    obtain ⟨c, hc, rfl⟩ := Option.map_eq_some_iff.1 hstep
    obtain ⟨hdropped, hreported⟩ := h.report hc r
    dsimp only
    split
    · exact hdropped
    rename_i hleft
    obtain ⟨hstopped, hepoch⟩ := left_eq_false hleft
    obtain ⟨hbusy, hfree, hkept⟩ := hreported hstopped hepoch
    exact h.goOn (List.mem_of_getElem? hc) hepoch hstopped hbusy hkept hfree rfl rfl rfl rfl calls fun delayMs => hok c delayMs hc

/-! ## Runs -/

theorem kept_reach (h : Reach step World.initial Restartless w) : Kept w :=
  h.invariant kept_initial fun _ _ _ _ hkept hok hstep => hkept.step hok hstep

theorem Sound.of_append {newer older : List Event} (h : Sound (newer ++ older)) : Sound older := by
  induction newer with
  | nil => exact h
  | cons e newer ih =>
    cases e with
    | triggered loop => exact ih h
    | stopped => exact ih h
    | started c now => exact ih h.2.2
    | reported c r now => exact ih h.2

/-- What is reported is of the loop of the latest trigger, which nothing has stopped or ended; so is every check that is started, and none comes
three minutes after its loop was refused the third time; and that loop has at most one check that runs and one timer that is armed. -/
structure OneLoop (w : World) : Prop where
  reported : ∀ newer c r now older, w.log = newer ++ .reported c r now :: older → live older = some c.loop
  started : ∀ newer c now older, w.log = newer ++ .started c now :: older → live older = some c.loop
  deadline : ∀ newer c now older then', w.log = newer ++ .started c now :: older → RefusedAt older c.loop then' → now < then' + 180000
  checks : w.checks.countP (fun c => c.loop = w.loops) ≤ 1
  timers : w.timers.countP (fun t => t.armed && t.loop = w.loops) ≤ 1

theorem Kept.oneLoop (h : Kept w) : OneLoop w := by
  have hsound := h.sound
  refine ⟨fun newer c r now older heq => ?_, fun newer c now older heq => ?_, fun newer c now older then' heq hthen => ?_, ?_, ?_⟩
  · rw [heq] at hsound
    exact hsound.of_append.1
  · rw [heq] at hsound
    exact hsound.of_append.1
  · rw [heq] at hsound
    exact hsound.of_append.2.1 then' hthen
  · have hcount : w.checks.countP (fun c => c.loop = w.loops) = w.checks.countP (isCurrent w.epoch) :=
      List.countP_congr fun c hc => by rw [h.loops, (h.checks c hc).1]; rfl
    have hone := h.one
    unfold busy at hone
    omega
  · have hcount : w.timers.countP (fun t => t.armed && t.loop = w.loops) = w.timers.countP (isArmed w.epoch) :=
      List.countP_congr fun t ht => by rw [h.loops, (h.timers t ht).1]; rfl
    have hone := h.one
    unfold busy at hone
    omega

/-- Where no result of a check in the background makes `onStateChange` begin another loop, there is one loop at a time, and one that was
refused ends. -/
theorem retry_one_loop (h : Reach step World.initial Restartless w) : OneLoop w := (kept_reach h).oneLoop

/-! ## Particular runs -/

def answer (daemon : Daemon) : HealthResult := ⟨daemon, false, none, .normal, none⟩

theorem reach_of_play {ok : World → Move → Prop} {okB : World → Move → Bool} (hok : ∀ w m, okB w m = true → ok w m) (moves : List Move)
    (h : playAll step okB moves World.initial = some w) : Reach step World.initial ok w :=
  Reach.init.playAll hok h

/-- Nothing is called while a result is reported. -/
def silent (_ : World) : Move → Bool
  | .complete _ _ calls => calls = []
  | _ => true

theorem restartless_of_silent (w : World) (m : Move) (h : silent w m = true) : Restartless w m := by
  cases m with
  | complete i r calls =>
    have hnil : calls = [] := of_decide_eq_true h
    rw [hnil]
    exact fun _ _ _ _ _ => nofun
  | call => trivial
  | fire => trivial
  | advance => trivial

def refusedThrice : List Move :=
  [.call .trigger, .complete 0 (answer .refused) [], .complete 0 (answer .refused) [], .complete 0 (answer .refused) []]

theorem retry_one_loop_refused : ∃ w, w.log.length = 9 ∧ OneLoop w :=
  ⟨_, rfl, retry_one_loop (reach_of_play restartless_of_silent
    (refusedThrice ++ [.advance 3000, .fire 0, .call .stop, .complete 0 (answer .connected) []]) rfl)⟩

/-- A daemon that refuses from the first, but takes its time: a check starts later than three minutes after that. -/
def slowly : List Move :=
  [.call .trigger, .complete 0 (answer .refused) [], .advance 1000, .complete 0 (answer .refused) [], .complete 0 (answer .refused) [],
    .advance 179500, .fire 0]

/-- A daemon that is not reached at first, and then refuses: the background goes on without an end. -/
def late : List Move :=
  [.call .trigger, .complete 0 (answer .unreachable) [], .complete 0 (answer .unreachable) [], .complete 0 (answer .unreachable) [],
    .advance 100, .fire 0, .complete 0 (answer .refused) [], .advance 200000, .fire 1]

/-- The result of a check in the background makes `onStateChange` begin another loop, and the old one goes on under its epoch. -/
def restarted : List Move :=
  [.call .trigger, .complete 0 (answer .unreachable) [], .complete 0 (answer .unreachable) [], .complete 0 (answer .unreachable) [],
    .advance 100, .fire 0, .complete 0 (answer .unreachable) [.trigger], .advance 100, .fire 1]

theorem retry_past_three_minutes :
    (∃ w, Reach step World.initial Restartless w ∧ ∃ older, w.log = .started ⟨1, 1, .background 3000⟩ 180500 :: older ∧
      .reported ⟨1, 1, .fast 0⟩ (answer .refused) 0 ∈ older ∧
      older.all (fun e => match e with | .reported _ r _ => r.daemon = .refused | _ => true) = true) ∧
    (∃ w, Reach step World.initial Restartless w ∧ ∃ older, w.log = .started ⟨1, 1, .background 100⟩ 200100 ::
      .reported ⟨1, 1, .background 100⟩ (answer .refused) 100 :: older) ∧
    ∃ w, Reach step World.initial (fun _ _ => True) w ∧ ∃ older, w.log = .started ⟨1, 2, .background 100⟩ 200 :: older ∧ live older = some 2 :=
  ⟨⟨_, reach_of_play restartless_of_silent slowly rfl, _, rfl, by decide, by decide⟩,
    ⟨_, reach_of_play restartless_of_silent late rfl, _, rfl⟩,
    ⟨_, @reach_of_play _ _ (fun _ _ => true) (fun _ _ _ => trivial) restarted rfl, _, rfl, rfl⟩⟩

end Purdex.Retry
