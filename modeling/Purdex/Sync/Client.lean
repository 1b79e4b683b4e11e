/-
One client: what it keeps of the last sync, and what the settings page does with the results of a
sync, of an import and of a resolution.
-/
import Purdex.Sync.Resolve

namespace Purdex.Sync

open Json

/-! ## Actions -/

inductive SyncActionResult where
  | ok (appliedBundle : Bundle)
  | conflicts (conflicts : List ConflictItem) (remoteBundle partialBaseline : Bundle)
  | error

/-- The previous baseline with the remote payloads of the contributors that had no conflicts. -/
def buildPartialBaseline (previous : Option Bundle) (remote : Bundle) (conflicts : List ConflictItem) : Bundle :=
  { remote with
    collections := (previous.elim Record.empty (·.collections)).overlay
      (remote.collections.restrict fun i => i ∉ conflicts.map (·.contributor)) }

/-- A sync up to its push; there is a result already unless it goes on to push. -/
def syncPull (E : Engine) (lastSyncedBundle : Option Bundle) (enabledModules : Modules) (remote : Option Bundle) (s : Stores) :
    Option SyncActionResult × Stores :=
  match E.pull remote lastSyncedBundle enabledModules s with
  | (s, none) => (some .error, s)
  | (s, some result) =>
    match result.appliedBundle with
    | some remote =>
      if result.conflicts ≠ [] then
        (some (.conflicts result.conflicts remote (buildPartialBaseline lastSyncedBundle remote result.conflicts)), s)
      else (none, s)
    | none => (none, s)

/-- A pull and, without conflicts, a push. What was pulled is missing when the pull failed; `pushes`
tells whether the push goes through. -/
def syncNow (E : Engine) (clientId : String) (lastSyncedBundle : Option Bundle) (enabledModules : Modules)
    (pulled : Option (Option Bundle)) (pushes : Bool) (now : Int) (s : Stores) : SyncActionResult × Stores :=
  match pulled with
  | none => (.error, s)
  | some remote =>
    match syncPull E lastSyncedBundle enabledModules remote s with
    | (some result, s) => (result, s)
    | (none, s) => (if pushes then .ok (E.serialize clientId enabledModules now s) else .error, s)

def applyImport (E : Engine) (bundle : Bundle) (lastSyncedBundle : Option Bundle) (enabledModules : Modules) (s : Stores) :
    SyncActionResult × Stores :=
  match E.pull (some bundle) lastSyncedBundle enabledModules s with
  | (s, none) => (.error, s)
  | (s, some result) =>
    match result.appliedBundle with
    | some remote =>
      if result.conflicts ≠ [] then
        (.conflicts result.conflicts remote (buildPartialBaseline lastSyncedBundle remote result.conflicts), s)
      else (.ok remote, s)
    | none => (.ok bundle, s)

/-! ## The sync store -/

structure Client where
  clientId : String
  stores : Stores
  lastSyncedBundle : Option Bundle
  enabledModules : Modules
  pendingConflicts : List ConflictItem
  pendingRemoteBundle : Option Bundle

namespace Client

def setLastSyncedBundle (s : Client) (bundle : Bundle) : Client := { s with lastSyncedBundle := some bundle }

/-- Of the remote bundle only the collections in conflict are kept. -/
def setPendingConflicts (s : Client) (conflicts : List ConflictItem) (remote : Bundle) : Client :=
  { s with
    pendingConflicts := conflicts
    pendingRemoteBundle := some
      { remote with collections := remote.collections.restrict fun i => i ∈ conflicts.map (·.contributor) } }

def clearPendingConflicts (s : Client) : Client := { s with pendingConflicts := [], pendingRemoteBundle := none }

def toggleModule (s : Client) (moduleId : String) : Client :=
  { s with
    enabledModules :=
      if h : moduleId ∈ s.enabledModules.1 then ⟨s.enabledModules.1.filter (· ≠ moduleId), s.enabledModules.2.filter _⟩
      else ⟨s.enabledModules.1 ++ [moduleId], List.nodup_append.2 ⟨s.enabledModules.2, by simp, by
        rintro a ha b hb rfl
        exact h (List.mem_singleton.1 hb ▸ ha)⟩⟩ }

/-! ## The settings page -/

/-- What a result changes in the store. -/
def settle (s : Client) (out : SyncActionResult × Stores) : Client :=
  match out with
  | (.ok bundle, stores) => { s with stores := stores }.setLastSyncedBundle bundle
  | (.conflicts conflicts remote baseline, stores) =>
    ({ s with stores := stores }.setLastSyncedBundle baseline).setPendingConflicts conflicts remote
  | (.error, stores) => { s with stores := stores }

variable (E : Engine)

def handleSyncNow (s : Client) (pulled : Option (Option Bundle)) (pushes : Bool) (now : Int) : Client :=
  s.settle (syncNow E s.clientId s.lastSyncedBundle s.enabledModules pulled pushes now s.stores)

def handleFileChange (s : Client) (bundle : Bundle) : Client :=
  s.settle (applyImport E bundle s.lastSyncedBundle s.enabledModules s.stores)

/-- The remote bundle that was kept becomes the baseline; the push that follows changes nothing here,
whether it goes through or not. A contributor that throws leaves the rest undone. -/
def handleResolveConflicts (s : Client) (resolved : ResolvedFields) : Client :=
  match s.pendingRemoteBundle with
  | none => s
  | some remote =>
    let out := E.resolveConflicts remote s.pendingConflicts resolved s.stores
    if out.2 then ({ s with stores := out.1 }.setLastSyncedBundle remote).clearPendingConflicts
    else { s with stores := out.1 }

end Client

/-- What happens at a client. Of a resolution, `pushes` tells whether it is followed by a push that
goes through. -/
inductive Action where
  | syncNow (pulled : Option (Option Bundle)) (pushes : Bool) (now : Int)
  | applyImport (bundle : Bundle)
  | resolve (choices : String → String → Choice) (pushes : Bool)
  | dismiss
  | toggle (moduleId : String)
  | edit (stores : Stores)

def Client.perform (E : Engine) (s : Client) : Action → Client
  | .syncNow pulled pushes now => s.handleSyncNow E pulled pushes now
  | .applyImport bundle => s.handleFileChange E bundle
  | .resolve choices _ => s.handleResolveConflicts E (handleApply s.pendingConflicts choices)
  | .dismiss => s.clearPendingConflicts
  | .toggle moduleId => s.toggleModule moduleId
  | .edit stores => { s with stores := stores }

/-! ## Pulls -/

namespace Client

variable (E : Engine) (s : Client)

def pull (remote : Bundle) : Pull := ⟨E, s.lastSyncedBundle, remote, s.enabledModules, s.stores⟩

/-- What the client keeps of the last sync of a contributor. -/
def baseline (c : Contributor) : Option Data :=
  s.lastSyncedBundle.bind fun last => (last.collections.get? c.id).map (·.data)

/-- The contributors that a push writes. -/
def Enabled (c : Contributor) : Prop := c ∈ E.contributors s.enabledModules.1

instance (c : Contributor) : Decidable (s.Enabled E c) := inferInstanceAs (Decidable (c ∈ E.contributors s.enabledModules.1))

/-- Nothing is in conflict. -/
theorem conflicts_nil_iff {P : Pull} : P.contributors.flatMap P.reported = [] ↔ ∀ c, P.Clean c := by
  rw [List.flatMap_eq_nil_iff]
  constructor
  · intro h c
    by_contra hc
    exact hc (Pull.clean_iff_reported.2 (h c (Pull.covers_of_not_clean hc).1))
  · exact fun h c _ => Pull.clean_iff_reported.1 (h c)

/-- A sync by the outcome of its pull: it threw, it reported conflicts, or it is followed by the push. -/
theorem handleSyncNow_cases (remote : Bundle) (pushes : Bool) (now : Int) :
    (s.handleSyncNow E (some (some remote)) pushes now).stores = (s.pull E remote).run.1 ∧
      ((s.pull E remote).run.2 = none ∧
          (s.handleSyncNow E (some (some remote)) pushes now).lastSyncedBundle = s.lastSyncedBundle ∨
        (s.pull E remote).run.2.isSome ∧ (¬∀ c, (s.pull E remote).Clean c) ∧
          (s.handleSyncNow E (some (some remote)) pushes now).lastSyncedBundle =
            some (buildPartialBaseline s.lastSyncedBundle remote ((s.pull E remote).contributors.flatMap (s.pull E remote).reported)) ∨
        (s.pull E remote).run.2.isSome ∧ (∀ c, (s.pull E remote).Clean c) ∧
          (s.handleSyncNow E (some (some remote)) pushes now).lastSyncedBundle =
            if pushes then some (E.serialize s.clientId s.enabledModules now (s.pull E remote).run.1) else s.lastSyncedBundle) := by
  unfold handleSyncNow syncNow syncPull
  have hrun : E.pull (some remote) s.lastSyncedBundle s.enabledModules s.stores = (s.pull E remote).run := rfl
  dsimp only
  rw [hrun]
  cases hresult : (s.pull E remote).run.2 with
  | none =>
    have hpair : (s.pull E remote).run = ((s.pull E remote).run.1, none) := Prod.ext rfl hresult
    rw [hpair]
    exact ⟨rfl, .inl ⟨rfl, rfl⟩⟩
  | some result =>
    have hpair : (s.pull E remote).run = ((s.pull E remote).run.1, some result) := Prod.ext rfl hresult
    obtain ⟨happlied, hconflicts, _⟩ := Pull.run_some hresult
    rw [hpair]
    dsimp only
    rw [happlied, hconflicts]
    dsimp only
    by_cases hclean : ∀ c, (s.pull E remote).Clean c
    · rw [if_neg (not_not.2 (conflicts_nil_iff.2 hclean))]
      cases pushes
      · exact ⟨rfl, .inr (.inr ⟨rfl, hclean, rfl⟩)⟩
      · exact ⟨rfl, .inr (.inr ⟨rfl, hclean, rfl⟩)⟩
    · rw [if_pos fun h => hclean (conflicts_nil_iff.1 h)]
      exact ⟨rfl, .inr (.inl ⟨rfl, hclean, rfl⟩)⟩

theorem handleFileChange_cases (bundle : Bundle) :
    (s.handleFileChange E bundle).stores = (s.pull E bundle).run.1 ∧
      ((s.pull E bundle).run.2 = none ∧ (s.handleFileChange E bundle).lastSyncedBundle = s.lastSyncedBundle ∨
        (s.pull E bundle).run.2.isSome ∧ (¬∀ c, (s.pull E bundle).Clean c) ∧
          (s.handleFileChange E bundle).lastSyncedBundle =
            some (buildPartialBaseline s.lastSyncedBundle bundle ((s.pull E bundle).contributors.flatMap (s.pull E bundle).reported)) ∨
        (s.pull E bundle).run.2.isSome ∧ (∀ c, (s.pull E bundle).Clean c) ∧
          (s.handleFileChange E bundle).lastSyncedBundle = some bundle) := by
  unfold handleFileChange applyImport
  have hrun : E.pull (some bundle) s.lastSyncedBundle s.enabledModules s.stores = (s.pull E bundle).run := rfl
  rw [hrun]
  cases hresult : (s.pull E bundle).run.2 with
  | none =>
    have hpair : (s.pull E bundle).run = ((s.pull E bundle).run.1, none) := Prod.ext rfl hresult
    rw [hpair]
    exact ⟨rfl, .inl ⟨rfl, rfl⟩⟩
  | some result =>
    have hpair : (s.pull E bundle).run = ((s.pull E bundle).run.1, some result) := Prod.ext rfl hresult
    obtain ⟨happlied, hconflicts, _⟩ := Pull.run_some hresult
    rw [hpair]
    dsimp only
    rw [happlied, hconflicts]
    dsimp only
    by_cases hclean : ∀ c, (s.pull E bundle).Clean c
    · rw [if_neg (not_not.2 (conflicts_nil_iff.2 hclean))]
      exact ⟨rfl, .inr (.inr ⟨rfl, hclean, rfl⟩)⟩
    · rw [if_pos fun h => hclean (conflicts_nil_iff.1 h)]
      exact ⟨rfl, .inr (.inl ⟨rfl, hclean, rfl⟩)⟩

end Client

end Purdex.Sync
