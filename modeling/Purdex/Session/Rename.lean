/-
Renaming a session in three places, the stored agent events, tmux and the maps of the agent module, and what is left of a
rename that fails on the way.
-/
import Purdex.Module.Rename
import Purdex.Store.Keyed

namespace Purdex.Session

open Purdex.Store (Err)
open Purdex.Module (Mem Carries RenameCarries renameSessionLocked rename_carries_iff)

/-! ## The rename -/

/-- A row of `agent_events`, under the name of its session. -/
structure AgentEvent where
  eventName : String
  rawEvent : String
  agentType : String
  broadcastTs : Int
  deriving Repr, DecidableEq

/-- The stored events, the names of the tmux sessions and the maps of the agent module. -/
structure Names where
  events : Keyed String AgentEvent
  sessions : List String
  mem : Mem

/-- What is registered: the agent module, that it can rename atomically, and the store of the agent events. -/
structure Services where
  agentModule : Bool
  atomicRenamer : Bool
  agentEvents : Bool
  deriving Repr, DecidableEq

/-- How the statements and the tmux command fail for reasons of their own. -/
structure RenameFaults where
  db : Option Err
  tmux : Option Err
  rollback : Option Err
  deriving Repr, DecidableEq

/-- `AgentEventStore.Rename`: one statement, which fails as a whole. -/
def renameEvents (fault : Option Err) (oldName newName : String) (events : Keyed String AgentEvent) : Except Err Unit × Keyed String AgentEvent :=
  match fault with
  | some e => (.error e, events)
  | none =>
    match Keyed.rekey oldName newName events with
    | some events => (.ok (), events)
    | none => (.error .constraint, events)

/-- `tmux rename-session`, which wants a session of the old name and none other of the new one. -/
def tmuxRenameSession (fault : Option Err) (oldName newName : String) (sessions : List String) : Except Err Unit × List String :=
  match fault with
  | some e => (.error e, sessions)
  | none =>
    if oldName ∉ sessions ∨ oldName ≠ newName ∧ newName ∈ sessions then (.error (.driver "tmux rename-session: exit status 1"), sessions)
    else (.ok (), sessions.map fun name => if name = oldName then newName else name)

/-- The events first; when tmux fails they are renamed back. -/
def doRename (svc : Services) (faults : RenameFaults) (oldName newName : String) (s : Names) : Except Err Unit × Names :=
  let db := if svc.agentEvents then renameEvents faults.db oldName newName s.events else (.ok (), s.events)
  match db.1 with
  | .error e => (.error e, { s with events := db.2 })
  | .ok _ =>
    match (tmuxRenameSession faults.tmux oldName newName s.sessions).1 with
    | .error e =>
      let events := if svc.agentEvents then (renameEvents faults.rollback newName oldName db.2).2 else db.2
      (.error e, { s with events })
    | .ok _ => (.ok (), { s with events := db.2, sessions := (tmuxRenameSession faults.tmux oldName newName s.sessions).2 })

/-- `RenameSessionAtomic` of the agent module, under its lock: its own maps come last. (The detectors of the new name are armed
once the lock is released.) -/
def agentRenameSessionAtomic (doRename : Names → Except Err Unit × Names) (oldName newName : String) (s : Names) : Except Err Unit × Names :=
  match doRename s with
  | (.error e, s) => (.error e, s)
  | (.ok _, s) => (.ok (), { s with mem := (renameSessionLocked s.mem oldName newName).2 })

def renameSessionAtomic (svc : Services) (faults : RenameFaults) (oldName newName : String) (s : Names) : Except Err Unit × Names :=
  if svc.agentModule = false then (.error (.driver "rename: agent.module not registered in service registry"), s)
  else if svc.atomicRenamer = false then (.error (.driver "rename: agent.module does not implement atomicRenamer"), s)
  else agentRenameSessionAtomic (doRename svc faults oldName newName) oldName newName s

/-! ## All or nothing -/

/-- A rename that fails leaves everything as it was, unless taking the events back fails too. One that succeeds has the
events, the tmux session and the maps under the new name, and no other row has moved. -/
structure AllOrNothing (faults : RenameFaults) (oldName newName : String) (s : Names) (r : Except Err Unit) (s' : Names) : Prop where
  failed : r ≠ .ok () → faults.rollback = none → s' = s
  moved : r = .ok () → ∀ row, s.events oldName = some row → s'.events newName = some row ∧ (oldName ≠ newName → s'.events oldName = none)
  others : r = .ok () → ∀ name row, name ≠ oldName → s.events name = some row → s'.events name = some row
  session : r = .ok () → s'.sessions = s.sessions.map fun name => if name = oldName then newName else name
  maps : r = .ok () → Carries s.mem s'.mem oldName newName

/-- Where tmux is asked at all: when it refuses, no row may have stood under the new name alone; when it agrees, the events
have to be known, and the maps have to be such that they follow. -/
def RenameHolds (svc : Services) (faults : RenameFaults) (oldName newName : String) (s : Names) : Prop :=
  svc.agentModule = true → svc.atomicRenamer = true → (svc.agentEvents = true → faults.db = none ∧ (Keyed.rekey oldName newName s.events).isSome) →
    match (tmuxRenameSession faults.tmux oldName newName s.sessions).1 with
    | .error _ => svc.agentEvents = true → faults.rollback = none → oldName = newName ∨ s.events oldName ≠ none ∨ s.events newName = none
    | .ok _ => (svc.agentEvents = true ∨ oldName = newName ∨ s.events oldName = none) ∧ RenameCarries s.mem oldName newName

section Rename

variable {svc : Services} {faults : RenameFaults} {oldName newName : String} {s : Names}

/-- A rename that has not begun. -/
theorem allOrNothing_error {e : Err} : AllOrNothing faults oldName newName s (.error e) s :=
  ⟨fun _ _ => rfl, nofun, nofun, nofun, nofun⟩

theorem tmuxRenameSession_ok (h : (tmuxRenameSession faults.tmux oldName newName s.sessions).1 = .ok ()) :
    (tmuxRenameSession faults.tmux oldName newName s.sessions).2 = s.sessions.map fun name => if name = oldName then newName else name := by
  unfold tmuxRenameSession at h ⊢
  split at h
  · cases h
  · split at h
    · cases h
    · rw [if_neg ‹_›]

/-- What the first statement leaves. -/
theorem renameEvents_ok {events : Keyed String AgentEvent} (hrekey : Keyed.rekey oldName newName s.events = some events) :
    renameEvents none oldName newName s.events = (.ok (), events) := by
  simp only [renameEvents, hrekey]

/-- The rollback takes the events back, unless there was a row under the new name alone. -/
theorem rollback_iff {events : Keyed String AgentEvent} (hrekey : Keyed.rekey oldName newName s.events = some events) :
    (renameEvents none newName oldName events).2 = s.events ↔ oldName = newName ∨ s.events oldName ≠ none ∨ s.events newName = none := by
  obtain ⟨back, hback⟩ := Option.isSome_iff_exists.1 (Keyed.rekey_back_isSome hrekey)
  rw [← Keyed.rekey_back_iff hrekey, hback, Option.some_inj]
  simp only [renameEvents, hback]

/-- What is left of a rename that tmux refused. -/
theorem allOrNothing_refused {e : Err} {events : Keyed String AgentEvent} :
    AllOrNothing faults oldName newName s (.error e) { s with events } ↔ (faults.rollback = none → events = s.events) := by
  constructor
  · intro h hrollback
    exact congrArg Names.events (h.failed nofun hrollback)
  · intro h
    refine ⟨fun _ hrollback => ?_, nofun, nofun, nofun, nofun⟩
    rw [h hrollback]

/-- What there is of a rename that went through, when no row but its own was touched. -/
theorem allOrNothing_renamed {events : Keyed String AgentEvent} {sessions : List String}
    (hsessions : sessions = s.sessions.map fun name => if name = oldName then newName else name)
    (hothers : ∀ name row, name ≠ oldName → s.events name = some row → events name = some row) :
    AllOrNothing faults oldName newName s (.ok ()) ⟨events, sessions, (renameSessionLocked s.mem oldName newName).2⟩ ↔
      (∀ row, s.events oldName = some row → events newName = some row ∧ (oldName ≠ newName → events oldName = none)) ∧
        RenameCarries s.mem oldName newName := by
  rw [← rename_carries_iff]
  constructor
  · intro h
    exact ⟨h.moved rfl, h.maps rfl⟩
  · rintro ⟨hmoved, hmaps⟩
    exact ⟨fun hne => absurd rfl hne, fun _ => hmoved, fun _ => hothers, fun _ => hsessions, fun _ => hmaps⟩

theorem rekey_moved {events : Keyed String AgentEvent} (hrekey : Keyed.rekey oldName newName s.events = some events) (row : AgentEvent)
    (hrow : s.events oldName = some row) : events newName = some row ∧ (oldName ≠ newName → events oldName = none) := by
  by_cases hne : oldName = newName
  · subst hne
    rw [Keyed.rekey_self] at hrekey
    obtain rfl := Option.some.inj hrekey
    exact ⟨hrow, fun hne => absurd rfl hne⟩
  · rcases Keyed.rekey_spec hne hrekey with ⟨hnone, -⟩ | ⟨row', hrow', -, rfl⟩
    · rw [hrow] at hnone
      cases hnone
    · obtain rfl := Option.some.inj (hrow.symm.trans hrow')
      exact ⟨by rw [Function.update_of_ne (Ne.symm hne), Function.update_self], fun _ => Function.update_self _ _ _⟩

/-- The rename with the events at hand. -/
theorem renameSessionAtomic_events (hmodule : svc.agentModule = true) (hatomic : svc.atomicRenamer = true) (hevents : svc.agentEvents = true) :
    AllOrNothing faults oldName newName s (renameSessionAtomic svc faults oldName newName s).1 (renameSessionAtomic svc faults oldName newName s).2 ↔
      RenameHolds svc faults oldName newName s := by
  simp only [renameSessionAtomic, RenameHolds, agentRenameSessionAtomic, doRename, hmodule, hatomic, hevents, Bool.true_eq_false, if_false, if_true, forall_const]
  cases hdb : faults.db with
  | some e => exact iff_of_true allOrNothing_error fun ⟨h, _⟩ => by cases h
  | none =>
    cases hrekey : Keyed.rekey oldName newName s.events with
    | none =>
      simp only [renameEvents, hrekey]
      exact iff_of_true allOrNothing_error fun ⟨_, h⟩ => by cases h
    | some events =>
      rw [renameEvents_ok hrekey]
      cases htmux : (tmuxRenameSession faults.tmux oldName newName s.sessions).1 with
      | error e =>
        refine allOrNothing_refused.trans ?_
        rw [← rollback_iff hrekey]
        constructor
        · intro h _ hrollback
          rw [← hrollback]
          exact h hrollback
        · intro h hrollback
          rw [hrollback]
          exact h ⟨rfl, rfl⟩ hrollback
      | ok u =>
        refine (allOrNothing_renamed (tmuxRenameSession_ok htmux) fun name row => Keyed.rekey_other hrekey).trans ?_
        rw [and_iff_right (rekey_moved hrekey)]
        simp

/-- The rename without them. -/
theorem renameSessionAtomic_noEvents (hmodule : svc.agentModule = true) (hatomic : svc.atomicRenamer = true) (hevents : svc.agentEvents = false) :
    AllOrNothing faults oldName newName s (renameSessionAtomic svc faults oldName newName s).1 (renameSessionAtomic svc faults oldName newName s).2 ↔
      RenameHolds svc faults oldName newName s := by
  simp only [renameSessionAtomic, RenameHolds, agentRenameSessionAtomic, doRename, hmodule, hatomic, hevents, Bool.true_eq_false, Bool.false_eq_true, if_false,
    forall_const, false_imp_iff, false_or]
  cases htmux : (tmuxRenameSession faults.tmux oldName newName s.sessions).1 with
  | error e => exact iff_of_true allOrNothing_error trivial
  | ok u =>
    refine (allOrNothing_renamed (tmuxRenameSession_ok htmux) fun name row _ hrow => hrow).trans (and_congr_left fun _ => ?_)
    constructor
    · intro h
      by_contra hnot
      rw [not_or] at hnot
      obtain ⟨row, hrow⟩ := Option.ne_none_iff_exists'.1 hnot.2
      exact absurd ((h row hrow).2 hnot.1) hnot.2
    · rintro (rfl | hnone) row hrow
      · exact ⟨hrow, fun hne => absurd rfl hne⟩
      · rw [hnone] at hrow
        cases hrow

end Rename

/-- A rename is all or nothing just when no row of an earlier session is taken for one of this when tmux refuses, and the
events and the maps follow when it agrees. -/
theorem rename_all_or_nothing_iff (svc : Services) (faults : RenameFaults) (oldName newName : String) (s : Names) :
    AllOrNothing faults oldName newName s (renameSessionAtomic svc faults oldName newName s).1 (renameSessionAtomic svc faults oldName newName s).2 ↔
      RenameHolds svc faults oldName newName s := by
  cases hmodule : svc.agentModule with
  | false =>
    rw [renameSessionAtomic, if_pos hmodule]
    exact iff_of_true allOrNothing_error fun h => by simp [hmodule] at h
  | true =>
    cases hatomic : svc.atomicRenamer with
    | false =>
      rw [renameSessionAtomic, if_neg (by simp [hmodule]), if_pos hatomic]
      exact iff_of_true allOrNothing_error fun _ h => by simp [hatomic] at h
    | true =>
      cases hevents : svc.agentEvents with
      | true => exact renameSessionAtomic_events hmodule hatomic hevents
      | false => exact renameSessionAtomic_noEvents hmodule hatomic hevents

/-- A row of an earlier session `b` was left behind, and tmux is away: the rename of `a` to `b` fails, and the row is under `a`. -/
theorem leftover_taken_back : ¬ ∀ (svc : Services) (faults : RenameFaults) (oldName newName : String) (s : Names),
    AllOrNothing faults oldName newName s (renameSessionAtomic svc faults oldName newName s).1 (renameSessionAtomic svc faults oldName newName s).2 := by
  intro h
  have hfailed := (h ⟨true, true, true⟩ ⟨none, some (.driver "tmux rename-session: exit status 1"), none⟩ "a" "b"
    ⟨Function.update (fun _ => none) "b" (some ⟨"Stop", "\x7b\x7d", "cc", 1000⟩), ["a"], .empty⟩).failed nofun rfl
  have hrow : (none : Option AgentEvent) = some ⟨"Stop", "\x7b\x7d", "cc", 1000⟩ := congrFun (congrArg Names.events hfailed) "b"
  cases hrow

end Purdex.Session
