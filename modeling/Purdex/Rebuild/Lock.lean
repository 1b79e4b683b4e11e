/-
The operation lock: one grant holds it, and a caller that hands the holder's grant back may nest.
What runs of acquires and releases can rely on, and what a stale grant gets when the lock is free.
-/
import Purdex.Conc.Serial

namespace Purdex.Rebuild

open Conc

/-! ## The lock -/

/-- A grant; `id` is the symbol that was made when the lock was taken. -/
structure OperationLockGrant where
  owner : String
  id : Nat
  outermost : Bool
  deriving Repr, DecidableEq

/-- Who holds the lock, and how many symbols were made so far. -/
structure OperationLock where
  lockedBy : Option String
  lockGrant : Option OperationLockGrant
  symbols : Nat
  deriving Repr, DecidableEq

def OperationLock.free : OperationLock := ⟨none, none, 0⟩

def acquireOperationLock (owner : String) (parent : Option OperationLockGrant) (s : OperationLock) :
    Option OperationLockGrant × OperationLock :=
  match s.lockedBy with
  | none =>
    let grant : OperationLockGrant := ⟨owner, s.symbols, true⟩
    (some grant, ⟨some owner, some grant, s.symbols + 1⟩)
  | some _ =>
    match parent, s.lockGrant with
    | some parent, some held => (if parent.id = held.id then some ⟨owner, held.id, false⟩ else none, s)
    | _, _ => (none, s)

def releaseOperationLock (grant : Option OperationLockGrant) (s : OperationLock) : OperationLock :=
  match grant with
  | none => s
  | some grant =>
    if grant.outermost = true ∧ s.lockGrant.map (·.id) = some grant.id then { s with lockedBy := none, lockGrant := none }
    else s

/-- The chain that holds the lock. -/
def OperationLock.holder (s : OperationLock) : Option Nat := s.lockGrant.map (·.id)

/-- The owner's name and the grant come and go together. -/
def OperationLock.Sound (s : OperationLock) : Prop :=
  s.lockedBy = s.lockGrant.map (·.owner) ∧ ∀ grant ∈ s.lockGrant, grant.outermost = true

/-- An acquire takes the free lock, nests in the chain that holds it, or is refused. -/
theorem acquire_cases (owner : String) (parent : Option OperationLockGrant) {s : OperationLock} (hs : s.Sound) :
    (s.lockGrant = none ∧ ∃ grant, grant.outermost = true ∧ (acquireOperationLock owner parent s).1 = some grant ∧
      (acquireOperationLock owner parent s).2.lockedBy = some grant.owner ∧
        (acquireOperationLock owner parent s).2.lockGrant = some grant) ∨
    (∃ held p, s.lockGrant = some held ∧ parent = some p ∧ p.id = held.id ∧
      acquireOperationLock owner parent s = (some ⟨owner, held.id, false⟩, s)) ∨
    (s.lockGrant ≠ none ∧ (∀ p ∈ parent, s.holder ≠ some p.id) ∧ acquireOperationLock owner parent s = (none, s)) := by
  unfold acquireOperationLock
  cases hheld : s.lockGrant with
  | none =>
    have hfree : s.lockedBy = none := by rw [hs.1, hheld]; rfl
    rw [hfree]
    exact .inl ⟨rfl, _, rfl, rfl, rfl, rfl⟩
  | some held =>
    have hlocked : s.lockedBy = some held.owner := by rw [hs.1, hheld]; rfl
    rw [hlocked]
    cases parent with
    | none => exact .inr (.inr ⟨nofun, nofun, rfl⟩)
    | some p =>
      dsimp only
      by_cases hid : p.id = held.id
      · rw [if_pos hid]
        exact .inr (.inl ⟨held, p, rfl, rfl, hid, rfl⟩)
      · rw [if_neg hid]
        refine .inr (.inr ⟨nofun, ?_, rfl⟩)
        rintro _ ⟨⟩ hholder
        rw [OperationLock.holder, hheld] at hholder
        exact hid (Option.some.inj hholder).symm

theorem sound_acquire (owner : String) (parent : Option OperationLockGrant) {s : OperationLock} (hs : s.Sound) :
    (acquireOperationLock owner parent s).2.Sound := by
  rcases acquire_cases owner parent hs with ⟨_, grant, hout, _, howner, hgrant⟩ | ⟨_, _, _, _, _, heq⟩ | ⟨_, _, heq⟩
  · refine ⟨by rw [howner, hgrant]; rfl, fun g hg => ?_⟩
    rw [hgrant] at hg
    obtain rfl := Option.some.inj hg
    exact hout
  · rw [heq]
    exact hs
  · rw [heq]
    exact hs

/-- A release frees the lock or leaves it as it is. -/
theorem release_cases (grant : Option OperationLockGrant) (s : OperationLock) :
    (∃ g, grant = some g ∧ g.outermost = true ∧ s.holder = some g.id ∧
      (releaseOperationLock grant s).lockedBy = none ∧ (releaseOperationLock grant s).lockGrant = none) ∨
    ((∀ g, grant = some g → g.outermost = true → s.holder ≠ some g.id) ∧ releaseOperationLock grant s = s) := by
  unfold releaseOperationLock
  cases grant with
  | none => exact .inr ⟨nofun, rfl⟩
  | some g =>
    dsimp only
    by_cases hfrees : g.outermost = true ∧ s.lockGrant.map (·.id) = some g.id
    · rw [if_pos hfrees]
      exact .inl ⟨g, rfl, hfrees.1, hfrees.2, rfl, rfl⟩
    · rw [if_neg hfrees]
      refine .inr ⟨?_, rfl⟩
      rintro _ ⟨⟩ hout hholder
      exact hfrees ⟨hout, hholder⟩

/-! ## Callers -/

/-- The lock, and the grants of the `withOperationLock` bodies that run, by number of the call. -/
structure Callers where
  lock : OperationLock
  bodies : List (Nat × OperationLockGrant)
  calls : Nat

inductive LockEvent where
  | acquire (owner : String) (parent : Option OperationLockGrant)
  | release (grant : Option OperationLockGrant)
  | enter (owner : String) (parent : Option OperationLockGrant)
  | settle (call : Nat)
  deriving Repr, DecidableEq

namespace Callers

variable (s : Callers)

def body (call : Nat) : Option OperationLockGrant := (s.bodies.find? (·.1 = call)).map (·.2)

/-- `enter` and `settle` are the two ends of `withOperationLock`, of which a refused one runs no body. -/
def step : LockEvent → Option OperationLockGrant × Callers
  | .acquire owner parent =>
    let out := acquireOperationLock owner parent s.lock
    (out.1, { s with lock := out.2 })
  | .release grant => (none, { s with lock := releaseOperationLock grant s.lock })
  | .enter owner parent =>
    let out := acquireOperationLock owner parent s.lock
    (out.1, ⟨out.2, (out.1.map (s.calls, ·)).toList ++ s.bodies, s.calls + 1⟩)
  | .settle call =>
    (none, { s with
      lock := releaseOperationLock (s.body call) s.lock
      bodies := s.bodies.filter (·.1 ≠ call) })

end Callers

/-! ## Runs -/

/-- A call and what it returned. -/
abbrev LockCall := Served Callers LockEvent (Option OperationLockGrant)

def LockEvent.parent : LockEvent → Option OperationLockGrant
  | .acquire _ parent => parent
  | .enter _ parent => parent
  | _ => none

/-- The grant that an event gives back. -/
def LockEvent.releases (s : Callers) : LockEvent → Option OperationLockGrant
  | .release grant => grant
  | .settle call => s.body call
  | _ => none

/-- The outermost grants that were issued and not given back since. -/
def live : List LockCall → List OperationLockGrant
  | [] => []
  | e :: t => (e.reply.filter (·.outermost)).toList ++ (live t).filter fun grant => some grant ≠ e.request.releases e.pre

/-- The lock is exclusive, and only its own chain gets into it. -/
structure Exclusive (t : List LockCall) : Prop where
  one : (live t).length ≤ 1
  nested : ∀ e ∈ t, ∀ grant ∈ e.reply, grant.outermost = false → ∃ parent ∈ e.request.parent, e.pre.lock.holder = some parent.id
  kept : ∀ later e earlier, t = later ++ e :: earlier → ∀ grant, e.request.releases e.pre = some grant → grant ∉ live earlier →
    (e.pre.step e.request).2.lock = e.pre.lock
  freed : ∀ e ∈ t, ∀ call, e.request = .settle call → ∀ grant ∈ e.pre.body call, grant.outermost = true →
    (e.pre.step e.request).2.lock.lockedBy = none
  refused : ∀ e ∈ t, ∀ parent ∈ e.request.parent, e.pre.lock.holder ≠ some parent.id → e.reply = none

/-- No parent is passed while the lock is free, and the holder's grant is given back as it was issued,
by `withOperationLock` alone where that took it. -/
def Proper (s : Callers) : LockEvent → Prop
  | .acquire _ parent => parent ≠ none → s.lock.lockedBy ≠ none
  | .enter _ parent => parent ≠ none → s.lock.lockedBy ≠ none
  | .release grant => ∀ g ∈ grant, g.outermost = true → s.lock.holder = some g.id →
    s.lock.lockGrant = some g ∧ ∀ b ∈ s.bodies, b.2 ≠ g
  | .settle _ => True

instance (s : Callers) : ∀ ev, Decidable (Proper s ev)
  | .acquire _ _ | .enter _ _ => inferInstanceAs (Decidable (_ → _))
  | .release _ => inferInstanceAs (Decidable (∀ g ∈ _, _))
  | .settle _ => inferInstanceAs (Decidable True)

def Unlocked (s : Callers) : Prop := s.lock.lockGrant = none ∧ s.lock.lockedBy = none ∧ s.bodies = []

/-- Callers of the lock, in any order. -/
abbrev LockRuns (ok : Callers → LockEvent → Prop) : Callers → List LockCall → Prop := Serves (fun ev s => s.step ev) Unlocked ok

/-- The holder is the one live grant, and it is the grant of the outermost body, if one runs. -/
structure Held (s : Callers) (t : List LockCall) : Prop where
  sound : s.lock.Sound
  issued : live t = s.lock.lockGrant.toList
  holds : ∀ b ∈ s.bodies, b.2.outermost = true → s.lock.lockGrant = some b.2
  unique : ∀ a ∈ s.bodies, ∀ b ∈ s.bodies, a.2.outermost = true → b.2.outermost = true → a.1 = b.1

section Steps

variable {s : Callers} {t : List LockCall} {owner : String} {parent grant : Option OperationLockGrant} {call : Nat}

theorem mem_of_body {g : OperationLockGrant} (h : s.body call = some g) : (call, g) ∈ s.bodies := by
  obtain ⟨b, hfind, rfl⟩ := Option.map_eq_some_iff.1 h
  have hcall : b.1 = call := by simpa using List.find?_some hfind
  exact hcall ▸ List.mem_of_find?_eq_some hfind

theorem Held.live_acquire (h : Held s t) {ev : LockEvent} (hparent : ev.releases s = none)
    (hreply : (s.step ev).1 = (acquireOperationLock owner parent s.lock).1) :
    live (⟨ev, s, (s.step ev).1⟩ :: t) = (acquireOperationLock owner parent s.lock).2.lockGrant.toList := by
  have hkeep : (live t).filter (fun g => some g ≠ ev.releases s) = live t := by
    rw [hparent]
    exact List.filter_eq_self.2 fun _ _ => rfl
  rw [live, hreply, hkeep, h.issued]
  rcases acquire_cases owner parent h.sound with ⟨hfree, g, hout, hgot, _, hgrant⟩ | ⟨_, _, _, _, _, heq⟩ | ⟨_, _, heq⟩
  · rw [hgot, hgrant, hfree]
    simp [Option.filter, hout]
  · rw [heq]
    rfl
  · rw [heq]
    rfl

/-- Only a grant that is not outermost is issued while the lock is held. -/
theorem Held.holds_acquire (h : Held s t) : ∀ b ∈ s.bodies, b.2.outermost = true →
    (acquireOperationLock owner parent s.lock).2.lockGrant = some b.2 := by
  intro b hb hout
  have hholds := h.holds b hb hout
  rcases acquire_cases owner parent h.sound with ⟨hfree, _⟩ | ⟨_, _, _, _, _, heq⟩ | ⟨_, _, heq⟩
  · rw [hfree] at hholds
    cases hholds
  · rw [heq]
    exact hholds
  · rw [heq]
    exact hholds

theorem Held.acquire (h : Held s t) (owner : String) (parent : Option OperationLockGrant) :
    Held (s.step (.acquire owner parent)).2 (⟨.acquire owner parent, s, (s.step (.acquire owner parent)).1⟩ :: t) where
  sound := sound_acquire owner parent h.sound
  issued := h.live_acquire rfl rfl
  holds := h.holds_acquire
  unique := h.unique

theorem Held.enter (h : Held s t) (owner : String) (parent : Option OperationLockGrant) :
    Held (s.step (.enter owner parent)).2 (⟨.enter owner parent, s, (s.step (.enter owner parent)).1⟩ :: t) := by
  refine ⟨sound_acquire owner parent h.sound, h.live_acquire rfl rfl, fun b hb hout => ?_, fun a ha b hb houta houtb => ?_⟩
  · rcases List.mem_append.1 hb with hb | hb
    · obtain ⟨g, hg, rfl⟩ := Option.map_eq_some_iff.1 (Option.mem_toList.1 hb)
      rcases acquire_cases owner parent h.sound with ⟨_, g', _, hgot, _, hgrant⟩ | ⟨_, _, _, _, _, heq⟩ | ⟨_, _, heq⟩
      · rw [hgot] at hg
        exact hgrant.trans hg
      · rw [heq] at hg
        obtain rfl := Option.some.inj hg
        cases hout
      · rw [heq] at hg
        cases hg
    · exact h.holds_acquire b hb hout
  · -- a body that takes the lock finds it free, so that no other has an outermost grant
    have hnew : ∀ c ∈ s.bodies, c.2.outermost = true → ∀ g, (acquireOperationLock owner parent s.lock).1 = some g →
        g.outermost = true → False := by
      intro c hc houtc g hg houtg
      have hheld := h.holds c hc houtc
      rcases acquire_cases owner parent h.sound with ⟨hfree, _⟩ | ⟨_, _, _, _, _, heq⟩ | ⟨_, _, heq⟩
      · rw [hheld] at hfree
        cases hfree
      · rw [heq] at hg
        obtain rfl := Option.some.inj hg
        cases houtg
      · rw [heq] at hg
        cases hg
    rcases List.mem_append.1 ha with ha | ha <;> rcases List.mem_append.1 hb with hb | hb
    · obtain ⟨_, _, rfl⟩ := Option.map_eq_some_iff.1 (Option.mem_toList.1 ha)
      obtain ⟨_, _, rfl⟩ := Option.map_eq_some_iff.1 (Option.mem_toList.1 hb)
      rfl
    · obtain ⟨g, hg, rfl⟩ := Option.map_eq_some_iff.1 (Option.mem_toList.1 ha)
      exact (hnew b hb houtb g hg houta).elim
    · obtain ⟨g, hg, rfl⟩ := Option.map_eq_some_iff.1 (Option.mem_toList.1 hb)
      exact (hnew a ha houta g hg houtb).elim
    · exact h.unique a ha b hb houta houtb

/-- Giving back a grant that does not free the lock leaves the live one. -/
theorem Held.live_kept (h : Held s t) {grant : Option OperationLockGrant}
    (hkeep : ∀ g, grant = some g → g.outermost = true → s.lock.holder ≠ some g.id) :
    (live t).filter (fun g => some g ≠ grant) = s.lock.lockGrant.toList := by
  rw [h.issued]
  refine List.filter_eq_self.2 fun g hg => ?_
  have hg := Option.mem_toList.1 hg
  refine decide_eq_true fun heq => ?_
  exact hkeep g heq.symm (h.sound.2 g hg) (by rw [OperationLock.holder, hg]; rfl)

theorem Held.release (h : Held s t) (hok : Proper s (.release grant)) :
    Held (s.step (.release grant)).2 (⟨.release grant, s, none⟩ :: t) := by
  rcases release_cases grant s.lock with ⟨g, rfl, hout, hholder, hfree, hgrant⟩ | ⟨hkeep, heq⟩
  · obtain ⟨hheld, hbodies⟩ := hok g rfl hout hholder
    refine ⟨⟨?_, ?_⟩, ?_, fun b hb houtb => ?_, h.unique⟩
    · exact hfree.trans (by rw [Callers.step, hgrant]; rfl)
    · intro g' hg'
      rw [Callers.step, hgrant] at hg'
      cases hg'
    · rw [Callers.step, hgrant, live, h.issued, hheld]
      simp [LockEvent.releases]
    · have hb' := h.holds b hb houtb
      rw [hheld] at hb'
      exact absurd (Option.some.inj hb').symm (hbodies b hb)
  · have hstep : (s.step (.release grant)).2 = s := by
      rw [Callers.step, heq]
    rw [hstep]
    exact ⟨h.sound, (List.nil_append _).trans (h.live_kept hkeep), h.holds, h.unique⟩

theorem Held.settle (h : Held s t) (call : Nat) : Held (s.step (.settle call)).2 (⟨.settle call, s, none⟩ :: t) := by
  have hsub : ∀ b ∈ (s.step (.settle call)).2.bodies, b ∈ s.bodies ∧ b.1 ≠ call := by
    intro b hb
    obtain ⟨hmem, hne⟩ := List.mem_filter.1 hb
    exact ⟨hmem, of_decide_eq_true hne⟩
  have hunique := fun a ha b hb => h.unique a (hsub a ha).1 b (hsub b hb).1
  rcases release_cases (s.body call) s.lock with ⟨g, hbody, hout, _, hfree, hgrant⟩ | ⟨hkeep, heq⟩
  · have hmem := mem_of_body hbody
    have hheld := h.holds _ hmem hout
    refine ⟨⟨?_, ?_⟩, ?_, fun b hb houtb => ?_, hunique⟩
    · exact hfree.trans (by rw [Callers.step, hgrant]; rfl)
    · intro g' hg'
      rw [Callers.step, hgrant] at hg'
      cases hg'
    · rw [Callers.step, hgrant, live, h.issued, hheld]
      simp [LockEvent.releases, hbody]
    · obtain ⟨hb, hne⟩ := hsub b hb
      exact absurd (h.unique b hb _ hmem houtb hout) hne
  · refine ⟨?_, ?_, fun b hb houtb => ?_, hunique⟩
    · rw [Callers.step, heq]
      exact h.sound
    · rw [Callers.step, heq]
      exact (List.nil_append _).trans (h.live_kept hkeep)
    · rw [Callers.step, heq]
      exact h.holds b (hsub b hb).1 houtb

theorem Held.step (h : Held s t) {ev : LockEvent} (hok : Proper s ev) : Held (s.step ev).2 (⟨ev, s, (s.step ev).1⟩ :: t) := by
  cases ev with
  | acquire owner parent => exact h.acquire owner parent
  | enter owner parent => exact h.enter owner parent
  | release grant => exact h.release hok
  | settle call => exact h.settle call

/-- A nested grant is of the chain that holds the lock. -/
theorem Held.nested (h : Held s t) (ev : LockEvent) {g : OperationLockGrant} (hg : (s.step ev).1 = some g)
    (hout : g.outermost = false) : ∃ parent ∈ ev.parent, s.lock.holder = some parent.id := by
  have hacquire : ∀ owner parent, (acquireOperationLock owner parent s.lock).1 = some g → ∃ p ∈ parent, s.lock.holder = some p.id := by
    intro owner parent hg
    rcases acquire_cases owner parent h.sound with ⟨_, g', hout', hgot, _⟩ | ⟨held, p, hheld, hp, hid, _⟩ | ⟨_, _, heq⟩
    · rw [hgot] at hg
      obtain rfl := Option.some.inj hg
      exact absurd (hout'.symm.trans hout) nofun
    · refine ⟨p, hp, ?_⟩
      rw [OperationLock.holder, hheld, hid]
      rfl
    · rw [heq] at hg
      cases hg
  cases ev with
  | acquire owner parent => exact hacquire owner parent hg
  | enter owner parent => exact hacquire owner parent hg
  | release | settle => cases hg

/-- A parent that is not the holder's is refused. -/
theorem Held.refused (h : Held s t) {ev : LockEvent} (hok : Proper s ev) {p : OperationLockGrant} (hp : p ∈ ev.parent)
    (hne : s.lock.holder ≠ some p.id) : (s.step ev).1 = none := by
  have hacquire : ∀ owner parent, p ∈ parent → (parent ≠ none → s.lock.lockedBy ≠ none) → (acquireOperationLock owner parent s.lock).1 = none := by
    intro owner parent hp hlocked
    rcases acquire_cases owner parent h.sound with ⟨hfree, _⟩ | ⟨held, q, hheld, hq, hid, _⟩ | ⟨_, _, heq⟩
    · have hlocked := hlocked (by rintro rfl; cases hp)
      rw [h.sound.1, hfree] at hlocked
      exact absurd rfl hlocked
    · obtain rfl := Option.some.inj (hq.symm.trans hp)
      rw [OperationLock.holder, hheld, hid] at hne
      exact absurd rfl hne
    · rw [heq]
  cases ev with
  | acquire owner parent => exact hacquire owner parent hp hok
  | enter owner parent => exact hacquire owner parent hp hok
  | release | settle => cases hp

/-- Giving back a grant that is not live leaves the lock as it is. -/
theorem Held.kept (h : Held s t) {ev : LockEvent} (hok : Proper s ev) {g : OperationLockGrant} (hg : ev.releases s = some g)
    (hlive : g ∉ live t) : (s.step ev).2.lock = s.lock := by
  have hrelease : ∀ grant, grant = some g → (g.outermost = true → s.lock.holder = some g.id → s.lock.lockGrant = some g) →
      releaseOperationLock grant s.lock = s.lock := by
    intro grant hgrant hheld
    rcases release_cases grant s.lock with ⟨g', hg', hout, hholder, _⟩ | ⟨_, heq⟩
    · obtain rfl := Option.some.inj (hgrant.symm.trans hg')
      refine absurd ?_ hlive
      rw [h.issued]
      exact Option.mem_toList.2 (hheld hout hholder)
    · exact heq
  cases ev with
  | acquire | enter => cases hg
  | release grant => exact hrelease grant hg fun hout hholder => (hok g hg hout hholder).1
  | settle call => exact hrelease _ hg fun hout _ => h.holds _ (mem_of_body hg) hout

/-- The lock is free after its outermost body. -/
theorem Held.freed (h : Held s t) {g : OperationLockGrant} (hg : s.body call = some g) (hout : g.outermost = true) :
    (s.step (.settle call)).2.lock.lockedBy = none := by
  have hheld := h.holds _ (mem_of_body hg) hout
  rcases release_cases (s.body call) s.lock with ⟨_, _, _, _, hfree, _⟩ | ⟨hkeep, _⟩
  · exact hfree
  · exact absurd (by rw [OperationLock.holder, hheld]; rfl) (hkeep g hg hout)

theorem held_of_runs (h : LockRuns Proper s t) : Held s t := by
  induction h with
  | @init s hfree =>
    obtain ⟨hgrant, hlocked, hbodies⟩ := hfree
    have hempty : ∀ b, b ∉ s.bodies := by
      intro b
      rw [hbodies]
      exact List.not_mem_nil
    exact ⟨⟨by rw [hgrant, hlocked]; rfl, by rw [hgrant]; exact nofun⟩, by rw [hgrant]; rfl, fun b hb => absurd hb (hempty b),
      fun a ha => absurd ha (hempty a)⟩
  | step _ hok ih => exact ih.step hok

end Steps


/-- In a run in which no parent is passed while the lock is free, and the holder's grant is only given
back as it was issued and by whom it was issued to, the lock is exclusive. -/
theorem operation_lock_exclusive {s : Callers} {t : List LockCall} (h : LockRuns Proper s t) : Exclusive t := by
  induction h with
  | init =>
    exact ⟨Nat.zero_le _, fun _ he => absurd he List.not_mem_nil, fun _ _ _ ht => absurd ht (by simp),
      fun _ he => absurd he List.not_mem_nil, fun _ he => absurd he List.not_mem_nil⟩
  | @step s t ev hrun hok ih =>
    have hheld := held_of_runs hrun
    refine ⟨?_, ?_, ?_, ?_, ?_⟩
    · rw [(hheld.step hok).issued]
      cases (s.step ev).2.lock.lockGrant <;> simp
    · rintro e (_ | ⟨_, he⟩) g hg hout
      · exact hheld.nested ev hg hout
      · exact ih.nested e he g hg hout
    · intro later e earlier ht g hg hlive
      rcases later with _ | ⟨_, later⟩
      · obtain ⟨rfl, rfl⟩ := List.cons.inj ht
        exact hheld.kept hok hg hlive
      · obtain ⟨_, rfl⟩ := List.cons.inj ht
        exact ih.kept later e earlier rfl g hg hlive
    · rintro e (_ | ⟨_, he⟩) call hreq g hg hout
      · obtain rfl : ev = .settle call := hreq
        exact hheld.freed hg hout
      · exact ih.freed e he call hreq g hg hout
    · rintro e (_ | ⟨_, he⟩) p hp hne
      · exact hheld.refused hok hp hne
      · exact ih.refused e he p hp hne

/-! ## A batch -/

/-- Nobody has asked for the lock. -/
def idleCallers : Callers := ⟨.free, [], 0⟩

def batchGrant : OperationLockGrant := ⟨"rebuild:batch", 0, true⟩

/-- A batch with one group inside, and another operation after it. -/
def batchOfOne : List LockEvent :=
  [.enter "rebuild:batch" none, .enter "rebuild:p1" (some batchGrant), .acquire "rebuild:batch" none, .settle 1, .settle 0,
    .enter "snapshot:restoreAll" none]

theorem operation_lock_exclusive_batchOfOne : Exclusive (serveAll (fun ev s => s.step ev) batchOfOne idleCallers []).2 := by
  have hinit : LockRuns Proper idleCallers [] := .init ⟨rfl, rfl, rfl⟩
  have hok : AllOk (fun ev (s : Callers) => s.step ev) Proper batchOfOne idleCallers := by decide
  exact operation_lock_exclusive (hinit.all hok)

/-- A group of a batch that is over gets a lock of its own. -/
theorem staleParent_granted : ¬∀ s t, LockRuns (fun _ _ => True) s t → Exclusive t := by
  intro h
  have hinit : LockRuns (fun _ _ => True) idleCallers [] := .init ⟨rfl, rfl, rfl⟩
  have hrun := hinit.all (allOk_true _ [.enter "rebuild:batch" none, .settle 0, .enter "rebuild:p1" (some batchGrant)] idleCallers)
  exact absurd ((h _ _ hrun).refused _ List.mem_cons_self batchGrant rfl (by decide)) (by decide)

end Purdex.Rebuild
