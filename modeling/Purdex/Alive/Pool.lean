/-
The pool of tabs that stay alive: the visits it remembers, what a render keeps of them, and what it forgets afterwards.
-/
import Purdex.Lists.Quota
import Mathlib.Data.List.Nodup

namespace Purdex.Alive

open Quota

def lightKeepAliveMax : Nat := 8

structure MinimalTab where
  id : String
  pinned : Bool
  light : Bool
  deriving DecidableEq, Repr

structure Settings where
  keepAliveCount : Nat
  keepAlivePinned : Bool
  terminalSettingsVersion : Nat
  deriving DecidableEq, Repr

/-- What the hook is rendered with. Ids are generated, and a tab that is active is open. -/
structure Render where
  activeTabId : Option String
  tabs : List MinimalTab
  settings : Settings
  named : ∀ tab ∈ tabs, tab.id ≠ ""
  among : ∀ id ∈ activeTabId, id ∈ tabs.map (·.id)

/-- What the hook's references hold between two renders. -/
structure Pool where
  historyRef : List String
  prevVersionRef : Nat
  prevKeepAliveRef : Nat
  deriving DecidableEq, Repr

def Pool.mount (settings : Settings) : Pool := ⟨[], settings.terminalSettingsVersion, settings.keepAliveCount⟩

/-- What a tab is to the pool; `pinned` is one that does not count. -/
inductive Kind where
  | closed
  | pinned (light : Bool)
  | normal (light : Bool)
  deriving DecidableEq, Repr

/-- The visit comes to the front. -/
def visit (h : List String) (id : String) : List String :=
  match h.idxOf? id with
  | some 0 => h
  | some idx => id :: h.eraseIdx idx
  | none => id :: h

namespace Render

variable (r : Render)

/-- `if (activeTabId)`. -/
def active : Option String := r.activeTabId.filter (· ≠ "")

/-- `tabMap.get(id)`; of two tabs of one id the map has the last. -/
def get (id : String) : Option MinimalTab := r.tabs.reverse.find? (·.id = id)

def isOpen (id : String) : Bool := (r.get id).isSome

def isLight (id : String) : Bool := (r.get id).any (·.light)

def kind (id : String) : Kind :=
  match r.get id with
  | none => .closed
  | some tab => if r.settings.keepAlivePinned = true ∧ tab.pinned = true then .pinned tab.light else .normal tab.light

/-! ## Tabs that are kept alive -/

/-- The heavy tabs of the history, `maxNormal` of those that count. -/
def heavyLoop (maxNormal : Nat) : List String → List String → List String → Nat → List String
  | [], pinnedAlive, alive, _ => pinnedAlive ++ alive
  | id :: h, pinnedAlive, alive, normalCount =>
    match r.get id with
    | none => heavyLoop maxNormal h pinnedAlive alive normalCount
    | some tab =>
      if tab.light = true then heavyLoop maxNormal h pinnedAlive alive normalCount
      else if r.settings.keepAlivePinned = true ∧ tab.pinned = true then heavyLoop maxNormal h (pinnedAlive ++ [id]) alive normalCount
      else if normalCount < maxNormal then heavyLoop maxNormal h pinnedAlive (alive ++ [id]) (normalCount + 1)
      else heavyLoop maxNormal h pinnedAlive alive normalCount

/-- The active tab claims a slot of its own if it is heavy. -/
def maxNormal : Nat := r.settings.keepAliveCount + if r.active.any (fun id => r.isLight id = false) then 1 else 0

def heavyAlive (h : List String) : List String :=
  if r.settings.keepAliveCount = 0 then r.active.toList.filter fun id => r.isLight id = false
  else r.heavyLoop r.maxNormal h [] [] 0

def lightLoop : List String → List String → List String → Nat → List String
  | [], _, result, _ => result
  | id :: h, seen, result, lightCount =>
    match r.get id with
    | none => lightLoop h seen result lightCount
    | some tab =>
      if tab.light = false ∨ id ∈ seen then lightLoop h seen result lightCount
      else if r.settings.keepAlivePinned = true ∧ tab.pinned = true then lightLoop h (seen ++ [id]) (result ++ [id]) lightCount
      else if lightCount < lightKeepAliveMax then lightLoop h (seen ++ [id]) (result ++ [id]) (lightCount + 1)
      else lightLoop h seen result lightCount

def aliveIds (h : List String) : List String := r.lightLoop h (r.heavyAlive h) (r.heavyAlive h) 0

/-! ## What is remembered -/

def heavyBudget : Nat := max (r.settings.keepAliveCount + 10) 20

def trimLoop : List String → List String → Nat → Nat → List String
  | [], kept, _, _ => kept
  | id :: h, kept, lightKept, heavyKept =>
    match r.get id with
    | none => trimLoop h kept lightKept heavyKept
    | some tab =>
      if r.settings.keepAlivePinned = true ∧ tab.pinned = true then trimLoop h (kept ++ [id]) lightKept heavyKept
      else if tab.light = true then
        if lightKept < lightKeepAliveMax then trimLoop h (kept ++ [id]) (lightKept + 1) heavyKept else trimLoop h kept lightKept heavyKept
      else if heavyKept < r.heavyBudget then trimLoop h (kept ++ [id]) lightKept (heavyKept + 1)
      else trimLoop h kept lightKept heavyKept

def trim (h : List String) : List String :=
  let kept := r.trimLoop h [] 0 0
  if kept.length ≠ h.length then kept else h

end Render

namespace Pool

variable (p : Pool) (r : Render)

/-- The history is cleared where the version or the count is another. -/
def cleared : List String :=
  let h := if r.settings.terminalSettingsVersion ≠ p.prevVersionRef then [] else p.historyRef
  if r.settings.keepAliveCount ≠ p.prevKeepAliveRef then [] else h

/-- The history that the render reads. -/
def current : List String :=
  let h := (p.cleared r).filter fun id => id ∈ r.tabs.map (·.id)
  match r.active with
  | none => h
  | some activeTabId => visit h activeTabId

/-- The ids that are kept alive, the version of the pool, and what the hook remembers once the effects have run. -/
def render : (List String × Nat) × Pool :=
  ((r.aliveIds (p.current r), r.settings.terminalSettingsVersion),
    ⟨r.trim (p.current r), r.settings.terminalSettingsVersion, r.settings.keepAliveCount⟩)

end Pool

/-! ## The loops and their quotas -/

variable {r : Render} {h : List String} {id : String}

theorem active_eq (r : Render) : r.active = r.activeTabId := by
  rw [Render.active]
  cases hactive : r.activeTabId with
  | none => rfl
  | some id =>
    obtain ⟨tab, htab, rfl⟩ := List.mem_map.1 (r.among id hactive)
    simpa using r.named tab htab

theorem isOpen_iff : r.isOpen id = true ↔ id ∈ r.tabs.map (·.id) := by
  rw [Render.isOpen, Render.get, List.find?_isSome]
  simp

theorem kind_closed : r.kind id = .closed ↔ r.isOpen id = false := by
  rw [Render.kind, Render.isOpen]
  cases r.get id with
  | none => simp
  | some tab =>
    simp only
    split <;> simp

theorem isLight_of_kind {light : Bool} (hkind : r.kind id = .pinned light ∨ r.kind id = .normal light) : r.isLight id = light := by
  rw [Render.kind] at hkind
  rw [Render.isLight]
  cases hget : r.get id with
  | none =>
    rw [hget] at hkind
    rcases hkind with hkind | hkind <;> cases hkind
  | some tab =>
    rw [hget] at hkind
    simp only at hkind
    split at hkind
    · rcases hkind with hkind | hkind <;> cases hkind
      rfl
    · rcases hkind with hkind | hkind <;> cases hkind
      rfl

/-- An open tab counts or does not. -/
theorem kind_of_open (hopen : r.isOpen id = true) : r.kind id = .pinned (r.isLight id) ∨ r.kind id = .normal (r.isLight id) := by
  rw [Render.isOpen] at hopen
  rw [Render.kind, Render.isLight]
  cases hget : r.get id with
  | none =>
    rw [hget] at hopen
    cases hopen
  | some tab =>
    simp only
    split
    · exact .inl rfl
    · exact .inr rfl

theorem visit_eq (h : List String) (id : String) : visit h id = id :: h.erase id := by
  rw [visit]
  split
  · rename_i hidx
    cases h with
    | nil => cases hidx
    | cons first rest =>
      have hfirst : first = id := by
        by_contra hne
        rw [List.idxOf?_cons, if_neg (by simpa using hne)] at hidx
        cases hopt : rest.idxOf? id with
        | none => rw [hopt] at hidx; cases hidx
        | some i => rw [hopt] at hidx; cases hidx
      rw [hfirst, List.erase_cons_head]
  · rename_i hidx
    rw [List.erase_eq_eraseIdx, hidx]
  · rename_i hidx
    rw [List.erase_of_not_mem (List.idxOf?_eq_none_iff.1 hidx)]

def heavyQuota (maxNormal : Nat) : Kind → Option Nat
  | .pinned false => none
  | .normal false => some maxNormal
  | _ => some 0

def lightQuota (left : Nat) : Kind → Option Nat
  | .pinned true => none
  | .normal true => some left
  | _ => some 0

def trimQuota (lightLeft heavyLeft : Nat) : Kind → Option Nat
  | .closed => some 0
  | .pinned _ => none
  | .normal true => some lightLeft
  | .normal false => some heavyLeft

theorem heavyLoop_eq (maxNormal : Nat) (h pinnedAlive alive : List String) (normalCount : Nat) :
    r.heavyLoop maxNormal h pinnedAlive alive normalCount =
      pinnedAlive ++ ofClass r.kind (.pinned false) h ++ (alive ++ (ofClass r.kind (.normal false) h).take (maxNormal - normalCount)) := by
  induction h generalizing pinnedAlive alive normalCount with
  | nil => simp [Render.heavyLoop, ofClass]
  | cons id h ih =>
    rw [Render.heavyLoop]
    cases hget : r.get id with
    | none =>
      have hkind : r.kind id = .closed := by rw [Render.kind, hget]
      simp only
      rw [ih, ofClass_cons_of_ne (by simp [hkind]), ofClass_cons_of_ne (by simp [hkind])]
    | some tab =>
      have hkind : r.kind id = if r.settings.keepAlivePinned = true ∧ tab.pinned = true then .pinned tab.light else .normal tab.light := by
        rw [Render.kind, hget]
      simp only
      split
      · rename_i hlight
        rw [ih, ofClass_cons_of_ne, ofClass_cons_of_ne] <;> rw [hkind] <;> split <;> simp [hlight]
      rename_i hheavy
      rw [Bool.not_eq_true] at hheavy
      rw [hheavy] at hkind
      split
      · rename_i hpinned
        rw [if_pos hpinned] at hkind
        rw [ih, ofClass_cons_self hkind, ofClass_cons_of_ne (by simp [hkind])]
        simp
      · rename_i hpinned
        rw [if_neg hpinned] at hkind
        rw [ofClass_cons_of_ne (by simp [hkind]), ofClass_cons_self hkind]
        split
        · rename_i hroom
          have hleft : maxNormal - normalCount = maxNormal - (normalCount + 1) + 1 := by omega
          rw [ih, hleft, List.take_succ_cons]
          simp
        · rename_i hfull
          have hleft : maxNormal - normalCount = 0 := by omega
          rw [ih, hleft, List.take_zero, List.take_zero]

theorem lightQuota_update (n : Nat) : Function.update (lightQuota (n + 1)) (.normal true) (some n) = lightQuota n := by
  refine Function.update_eq_iff.2 ⟨rfl, ?_⟩
  rintro (_ | (_ | _) | (_ | _)) hkind
  all_goals first | rfl | exact absurd rfl hkind

theorem trimQuota_light (l k : Nat) : Function.update (trimQuota (l + 1) k) (.normal true) (some l) = trimQuota l k := by
  refine Function.update_eq_iff.2 ⟨rfl, ?_⟩
  rintro (_ | (_ | _) | (_ | _)) hkind
  all_goals first | rfl | exact absurd rfl hkind

theorem trimQuota_heavy (l k : Nat) : Function.update (trimQuota l (k + 1)) (.normal false) (some k) = trimQuota l k := by
  refine Function.update_eq_iff.2 ⟨rfl, ?_⟩
  rintro (_ | (_ | _) | (_ | _)) hkind
  all_goals first | rfl | exact absurd rfl hkind

theorem lightLoop_eq (seen result : List String) (lightCount : Nat) (hnodup : h.Nodup) (hseen : ∀ id ∈ h, r.isLight id = true → id ∉ seen) :
    r.lightLoop h seen result lightCount = result ++ quota r.kind (lightQuota (lightKeepAliveMax - lightCount)) h := by
  induction h generalizing seen result lightCount with
  | nil => simp [Render.lightLoop, quota]
  | cons id h ih =>
    obtain ⟨hnew, hrest⟩ := List.nodup_cons.1 hnodup
    have hseen' := (List.forall_mem_cons.1 hseen).2
    have hgrown : ∀ id' ∈ h, r.isLight id' = true → id' ∉ seen ++ [id] := by
      intro id' hid' hlight hmem
      rcases List.mem_append.1 hmem with hmem | hmem
      · exact hseen' id' hid' hlight hmem
      · exact hnew (List.mem_singleton.1 hmem ▸ hid')
    rw [Render.lightLoop]
    cases hget : r.get id with
    | none =>
      have hkind : r.kind id = .closed := by rw [Render.kind, hget]
      simp only
      rw [ih _ _ _ hrest hseen', quota_of_zero (by rw [hkind]; rfl)]
    | some tab =>
      have hkind : r.kind id = if r.settings.keepAlivePinned = true ∧ tab.pinned = true then .pinned tab.light else .normal tab.light := by
        rw [Render.kind, hget]
      have hlight : r.isLight id = tab.light := by rw [Render.isLight, hget]; rfl
      simp only
      split
      · rename_i hskip
        have hheavy : tab.light = false := by
          rcases hskip with hheavy | hmem
          · exact hheavy
          · exact eq_false_of_ne_true fun htrue => hseen id List.mem_cons_self (hlight.trans htrue) hmem
        rw [ih _ _ _ hrest hseen', quota_of_zero]
        rw [hkind, hheavy]
        split <;> rfl
      rename_i hskip
      rw [not_or, Bool.not_eq_false] at hskip
      rw [hskip.1] at hkind
      split
      · rename_i hpinned
        rw [if_pos hpinned] at hkind
        rw [ih _ _ _ hrest hgrown, quota_of_none (by rw [hkind]; rfl), List.append_assoc]
        rfl
      · rename_i hpinned
        rw [if_neg hpinned] at hkind
        split
        · rename_i hroom
          have hleft : lightKeepAliveMax - lightCount = lightKeepAliveMax - (lightCount + 1) + 1 := by omega
          rw [ih _ _ _ hrest hgrown, hleft, quota_of_succ (by rw [hkind]; rfl), hkind, lightQuota_update, List.append_assoc]
          rfl
        · rename_i hfull
          have hleft : lightKeepAliveMax - lightCount = 0 := by omega
          rw [ih _ _ _ hrest hseen', hleft, quota_of_zero (by rw [hkind]; rfl)]

theorem trimLoop_eq (h kept : List String) (lightKept heavyKept : Nat) :
    r.trimLoop h kept lightKept heavyKept =
      kept ++ quota r.kind (trimQuota (lightKeepAliveMax - lightKept) (r.heavyBudget - heavyKept)) h := by
  induction h generalizing kept lightKept heavyKept with
  | nil => simp [Render.trimLoop, quota]
  | cons id h ih =>
    rw [Render.trimLoop]
    cases hget : r.get id with
    | none =>
      have hkind : r.kind id = .closed := by rw [Render.kind, hget]
      simp only
      rw [ih, quota_of_zero (by rw [hkind]; rfl)]
    | some tab =>
      have hkind : r.kind id = if r.settings.keepAlivePinned = true ∧ tab.pinned = true then .pinned tab.light else .normal tab.light := by
        rw [Render.kind, hget]
      simp only
      split
      · rename_i hpinned
        rw [if_pos hpinned] at hkind
        rw [ih, quota_of_none (by rw [hkind]; rfl), List.append_assoc]
        rfl
      rename_i hpinned
      rw [if_neg hpinned] at hkind
      split
      · rename_i hlight
        rw [hlight] at hkind
        split
        · rename_i hroom
          have hleft : lightKeepAliveMax - lightKept = lightKeepAliveMax - (lightKept + 1) + 1 := by omega
          rw [ih, hleft, quota_of_succ (by rw [hkind]; rfl), hkind, trimQuota_light, List.append_assoc]
          rfl
        · rename_i hfull
          have hleft : lightKeepAliveMax - lightKept = 0 := by omega
          rw [ih, hleft, quota_of_zero (by rw [hkind]; rfl)]
      · rename_i hheavy
        rw [Bool.not_eq_true] at hheavy
        rw [hheavy] at hkind
        split
        · rename_i hroom
          have hleft : r.heavyBudget - heavyKept = r.heavyBudget - (heavyKept + 1) + 1 := by omega
          rw [ih, hleft, quota_of_succ (by rw [hkind]; rfl), hkind, trimQuota_heavy, List.append_assoc]
          rfl
        · rename_i hfull
          have hleft : r.heavyBudget - heavyKept = 0 := by omega
          rw [ih, hleft, quota_of_zero (by rw [hkind]; rfl)]

theorem trim_eq (r : Render) (h : List String) : r.trim h = quota r.kind (trimQuota lightKeepAliveMax r.heavyBudget) h := by
  have hloop := @trimLoop_eq r h [] 0 0
  rw [List.nil_append, Nat.sub_zero, Nat.sub_zero] at hloop
  rw [Render.trim, hloop]
  split
  · rfl
  · rename_i hlength
    exact ((quota_sublist _ h).eq_of_length (not_not.1 hlength)).symm

end Purdex.Alive
