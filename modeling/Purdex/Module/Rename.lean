/-
Renaming a session: which of the module's maps follow it, and exactly when all of the state that
guards status writes does.
-/
import Purdex.Module.Ops

namespace Purdex.Module

open Purdex.Agent

/-! ## The property and its condition -/

/-- `m'` carries the state of `oldName` under `newName`: nothing is left under the old name, and
every value that guards status writes is found under the new one. -/
structure Carries (m m' : Mem) (oldName newName : String) : Prop where
  noStatus : m'.currentStatus.lookup oldName = none
  noSubagents : m'.subagents.lookup oldName = none
  noWatcher : m'.activeWatchers.lookup oldName = none
  noIntent : ∀ kind, m'.activeProbeIntents.lookup (oldName, kind) = none
  noHook : m'.lastHookAt.lookup oldName = none
  status : ∀ v, m.currentStatus.lookup oldName = some v → m'.currentStatus.lookup newName = some v
  subagents : ∀ v, m.subagents.lookup oldName = some v → m'.subagents.lookup newName = some v
  hook : ∀ v, m.lastHookAt.lookup oldName = some v → m'.lastHookAt.lookup newName = some v
  /-- a signal inside the window of a recorded hook is suppressed as it was under the old name -/
  grace : ∀ kind signalAt, (m.lastHookAt.lookup oldName).isSome →
    withinPostGrace (probeIntentPostGraceWindow kind) (m'.lastHookAt.lookup newName) signalAt =
      withinPostGrace (probeIntentPostGraceWindow kind) (m.lastHookAt.lookup oldName) signalAt

/-- The names differ, and a recorded hook has a screen watcher beside it; or the names are the
same and there is nothing to carry. -/
def RenameCarries (m : Mem) (oldName newName : String) : Prop :=
  (oldName ≠ newName ∧ (m.lastHookAt.lookup oldName = none ∨ (m.activeWatchers.lookup oldName).isSome)) ∨
    (oldName = newName ∧ m.currentStatus.lookup oldName = none ∧ m.subagents.lookup oldName = none ∧
      m.lastHookAt.lookup oldName = none)

/-! ## One map -/

variable {β : Type} {l : AList fun _ : String => β} {oldName newName : String}

theorem moveEntry_old : (moveEntry l oldName newName).lookup oldName = none := by
  unfold moveEntry
  split
  · exact AList.lookup_erase _ _
  · rename_i h
    exact h

theorem moveEntry_new (hne : oldName ≠ newName) {v : β} (h : l.lookup oldName = some v) :
    (moveEntry l oldName newName).lookup newName = some v := by
  unfold moveEntry
  rw [h]
  dsimp only
  rw [AList.lookup_erase_ne hne.symm, AList.lookup_insert]

variable {m : Mem}

theorem dropSessionIntents_lookup (session : String) (kind : ProbeIntentKind) :
    (dropSessionIntents m session).2.activeProbeIntents.lookup (session, kind) = none := by
  rw [AList.lookup_eq_none, AList.mem_keys]
  simp [dropSessionIntents, AList.keys, List.keys]

/-! ## The whole rename -/

theorem evictWatcher_cases (m : Mem) (oldName newName : String) :
    (∃ stamp, (m.activeWatchers.lookup oldName).isSome ∧ m.lastHookAt.lookup oldName = some stamp ∧
      evictWatcher m oldName newName = { m with
        activeWatchers := m.activeWatchers.erase oldName
        lastHookAt := (m.lastHookAt.erase oldName).insert newName stamp }) ∨
    ((m.activeWatchers.lookup oldName = none ∨ m.lastHookAt.lookup oldName = none) ∧
      evictWatcher m oldName newName = { m with activeWatchers := m.activeWatchers.erase oldName }) := by
  unfold evictWatcher migrateLastHookAt
  cases hw : m.activeWatchers.lookup oldName with
  | none =>
    have hid : m.activeWatchers.erase oldName = m.activeWatchers :=
      AList.ext (List.kerase_of_notMem_keys (AList.mem_keys.not.1 (AList.lookup_eq_none.1 hw)))
    exact .inr ⟨.inl rfl, by simp [hid]⟩
  | some a =>
    cases hl : m.lastHookAt.lookup oldName with
    | none => exact .inr ⟨.inr rfl, by simp⟩
    | some stamp => exact .inl ⟨stamp, rfl, rfl, by simp⟩

@[simp] theorem rename_currentStatus : (renameSessionLocked m oldName newName).2.currentStatus =
    moveEntry m.currentStatus oldName newName := by
  simp only [renameSessionLocked, dropSessionIntents]
  rcases evictWatcher_cases _ oldName newName with ⟨_, _, _, he⟩ | ⟨_, he⟩ <;> rw [he]

@[simp] theorem rename_subagents : (renameSessionLocked m oldName newName).2.subagents =
    moveEntry m.subagents oldName newName := by
  simp only [renameSessionLocked, dropSessionIntents]
  rcases evictWatcher_cases _ oldName newName with ⟨_, _, _, he⟩ | ⟨_, he⟩ <;> rw [he]

theorem rename_activeWatchers : (renameSessionLocked m oldName newName).2.activeWatchers.lookup oldName = none := by
  simp only [renameSessionLocked, dropSessionIntents]
  rcases evictWatcher_cases _ oldName newName with ⟨_, _, _, he⟩ | ⟨_, he⟩ <;> rw [he] <;>
    exact AList.lookup_erase _ _

variable (m oldName newName) in
/-- The grace map follows a rename only where a watcher was active. -/
theorem rename_lastHookAt :
    (∃ stamp, (m.activeWatchers.lookup oldName).isSome ∧ m.lastHookAt.lookup oldName = some stamp ∧
      (renameSessionLocked m oldName newName).2.lastHookAt = (m.lastHookAt.erase oldName).insert newName stamp) ∨
    ((m.activeWatchers.lookup oldName = none ∨ m.lastHookAt.lookup oldName = none) ∧
      (renameSessionLocked m oldName newName).2.lastHookAt = m.lastHookAt) := by
  simp only [renameSessionLocked, dropSessionIntents]
  rcases evictWatcher_cases { m with
    subagents := moveEntry m.subagents oldName newName
    currentStatus := moveEntry m.currentStatus oldName newName } oldName newName with
    ⟨stamp, hw, hl, he⟩ | ⟨h, he⟩
  · exact .inl ⟨stamp, hw, hl, by rw [he]⟩
  · exact .inr ⟨h, by rw [he]⟩

theorem rename_intents (kind : ProbeIntentKind) :
    (renameSessionLocked m oldName newName).2.activeProbeIntents.lookup (oldName, kind) = none :=
  dropSessionIntents_lookup oldName kind

theorem eq_none_of_forall {α : Type} {o : Option α} (h : ∀ v, o = some v → False) : o = none :=
  Option.eq_none_iff_forall_ne_some.2 fun v hv => h v hv

/-- A rename carries the whole state of the session exactly when its names differ and no recorded
hook is without a watcher, or there was nothing to carry. -/
theorem rename_carries_iff (m : Mem) (oldName newName : String) :
    Carries m (renameSessionLocked m oldName newName).2 oldName newName ↔ RenameCarries m oldName newName := by
  constructor
  · intro h
    by_cases hne : oldName = newName
    · subst hne
      exact .inr ⟨rfl, eq_none_of_forall fun v hv => Option.some_ne_none v (h.status v hv ▸ h.noStatus),
        eq_none_of_forall fun v hv => Option.some_ne_none v (h.subagents v hv ▸ h.noSubagents),
        eq_none_of_forall fun v hv => Option.some_ne_none v (h.hook v hv ▸ h.noHook)⟩
    · refine .inl ⟨hne, ?_⟩
      rcases rename_lastHookAt oldName newName m with
        ⟨_, hw, _, _⟩ | ⟨_, hkeep⟩
      · exact .inr hw
      · exact .inl (hkeep ▸ h.noHook)
  · rintro (⟨hne, hcond⟩ | ⟨rfl, hs, ha, hh⟩)
    · have hold : (renameSessionLocked m oldName newName).2.lastHookAt.lookup oldName = none ∧
          (renameSessionLocked m oldName newName).2.lastHookAt.lookup newName =
            (m.lastHookAt.lookup oldName).or (m.lastHookAt.lookup newName) := by
        rcases rename_lastHookAt oldName newName m with
          ⟨stamp, _, hl, he⟩ | ⟨hno, he⟩
        · rw [he, AList.lookup_insert_ne hne, AList.lookup_erase, AList.lookup_insert, hl]
          exact ⟨rfl, rfl⟩
        · have hl : m.lastHookAt.lookup oldName = none := by
            rcases hcond with hl | hw
            · exact hl
            · exact hno.resolve_left (Option.isSome_iff_ne_none.1 hw)
          rw [he, hl]
          exact ⟨rfl, rfl⟩
      have hnew : ∀ v, m.lastHookAt.lookup oldName = some v →
          (renameSessionLocked m oldName newName).2.lastHookAt.lookup newName = some v := fun v hv => by
        rw [hold.2, hv]; rfl
      refine ⟨by simp [moveEntry_old], by simp [moveEntry_old], rename_activeWatchers, rename_intents, hold.1,
        fun v hv => ?_, fun v hv => ?_, hnew, fun kind signalAt hsome => ?_⟩
      · rw [rename_currentStatus]; exact moveEntry_new hne hv
      · rw [rename_subagents]; exact moveEntry_new hne hv
      · obtain ⟨v, hv⟩ := Option.isSome_iff_exists.1 hsome
        rw [hnew v hv, hv]
    · have hkeep : (renameSessionLocked m oldName oldName).2.lastHookAt.lookup oldName = none := by
        rcases rename_lastHookAt oldName oldName m with
          ⟨_, _, hl, _⟩ | ⟨_, he⟩
        · exact absurd (hl.symm.trans hh) (Option.some_ne_none _)
        · rw [he, hh]
      exact ⟨by simp [moveEntry_old], by simp [moveEntry_old], rename_activeWatchers, rename_intents, hkeep,
        by simp [hs], by simp [ha], by simp [hh], by simp [hh]⟩

/-! ## A rename that loses the grace window -/

/-- A session with a hook recorded and no watcher: the state after every hook, since none starts one. -/
def hookedMem : Mem :=
  { Mem.empty with
    currentStatus := (∅ : AList fun _ : String => Status).insert "a" .running
    lastHookAt := (∅ : AList fun _ : String => Int).insert "a" 1000 }

/-- After the rename the old entry is still there, and a signal one nanosecond after the hook is no
longer suppressed. -/
theorem rename_loses_grace : ¬ (∀ (m : Mem) (oldName newName : String),
      Carries m (renameSessionLocked m oldName newName).2 oldName newName) ∧
    (renameSessionLocked hookedMem "a" "b").2.lastHookAt.lookup "a" = some 1000 ∧
    withinPostGrace probeGraceWindow (hookedMem.lastHookAt.lookup "a") 1001 = true ∧
    withinPostGrace probeGraceWindow ((renameSessionLocked hookedMem "a" "b").2.lastHookAt.lookup "b") 1001 = false := by
  refine ⟨fun h => ?_, by decide, by decide, by decide⟩
  have hgone := (h hookedMem "a" "b").noHook
  exact absurd hgone (by decide)

end Purdex.Module
