/-
The sync engine: a bundle of the enabled contributors, a pull that merges one into their stores, and
the resolution of the conflicts it reports.
-/
import Purdex.Sync.Contributors
import Purdex.Sync.Merge

namespace Purdex.Sync

open Json

structure Bundle where
  version : Nat
  timestamp : Int
  device : String
  collections : Record Payload
  deriving DecidableEq

/-- The ids of the modules that are enabled. -/
abbrev Modules := { ids : List String // ids.Nodup }

/-- Which contributors are registered. -/
structure Engine where
  registered : Contributor → Bool

/-- All contributors are registered at startup. -/
def syncEngine : Engine := ⟨fun _ => true⟩

namespace Engine

variable (E : Engine)

def get (id : String) : Option Contributor := Contributor.all.find? fun c => c.id = id && E.registered c

/-- The registered contributors among these ids. -/
def contributors (ids : List String) : List Contributor := ids.filterMap E.get

/-- `Set` of a list: its elements in the order they come up first. -/
def setOf (ids : List String) : List String := ids.reverse.dedup.reverse

def serialize (device : String) (enabledModules : Modules) (now : Int) (s : Stores) : Bundle :=
  ⟨1, now, device, Record.ofKeys enabledModules.1 fun i => (E.get i).map fun c => c.serialize (s c)⟩

/-! ## Loops over the contributors -/

/-- One contributor's store after another, until one throws: what each gave, or nothing. -/
def forEach {α : Type} (step : Contributor → Store → Option (α × Store)) : List Contributor → Stores → Stores × Option (List α)
  | [], s => (s, some [])
  | c :: cs, s =>
    match step c (s c) with
    | none => (s, none)
    | some (a, store) =>
      let rest := forEach step cs (Function.update s c store)
      (rest.1, rest.2.map (a :: ·))

/-! ## Pull -/

structure PullResult where
  appliedBundle : Option Bundle
  conflicts : List ConflictItem

/-- The first pull of a contributor. -/
def replaceOne (remote : Bundle) (c : Contributor) (store : Store) : Option (List ConflictItem × Store) :=
  match remote.collections.get? c.id with
  | none => some ([], store)
  | some payload => (c.deserialize payload .fullReplace store).map ([], ·)

/-- The merge of a contributor, which is applied when it has no conflicts. -/
def mergeOne (last remote : Bundle) (c : Contributor) (store : Store) : Option (List ConflictItem × Store) :=
  match remote.collections.get? c.id with
  | none => some ([], store)
  | some payload =>
    let result := mergeCollection ((last.collections.get? c.id).map (·.data)) (c.serialize store).data payload.data remote.device
    let conflicts := result.conflicts.map fun conflict => { conflict with contributor := c.id }
    if conflicts = [] then (c.deserialize ⟨payload.version, result.merged⟩ .fullReplace store).map ([], ·)
    else some (conflicts, store)

def pullOne (lastSynced : Option Bundle) (remote : Bundle) : Contributor → Store → Option (List ConflictItem × Store) :=
  match lastSynced with
  | none => replaceOne remote
  | some last => mergeOne last remote

/-- The remote bundle has arrived; the result is missing when a contributor throws. -/
def pull (remote : Option Bundle) (lastSynced : Option Bundle) (enabledModules : Modules) (s : Stores) :
    Stores × Option PullResult :=
  match remote with
  | none => (s, some ⟨none, []⟩)
  | some remote =>
    let out := forEach (pullOne lastSynced remote) (E.contributors enabledModules.1) s
    (out.1, out.2.map fun conflicts => ⟨some remote, conflicts.flatten⟩)

/-! ## Resolution -/

/-- The local data with the remote side of every field resolved to it. -/
def overlay (resolved : ResolvedFields) (localData remote : Data) : Data :=
  Record.ofKeys (localData.keys ++ resolved.keys) fun f =>
    if resolved.get? f = some .remoteSide then some (remote.get f) else localData.get? f

def resolveOne (remote : Bundle) (resolved : ResolvedFields) (c : Contributor) (store : Store) : Option (Unit × Store) :=
  match remote.collections.get? c.id with
  | none => some ((), store)
  | some payload =>
    (c.deserialize ⟨payload.version, overlay resolved (c.serialize store).data payload.data⟩ (.fieldMerge resolved) store).map ((), ·)

/-- The second component tells whether it went through. -/
def resolveConflicts (remote : Bundle) (conflicts : List ConflictItem) (resolved : ResolvedFields) (s : Stores) :
    Stores × Bool :=
  let out := forEach (resolveOne remote resolved) (E.contributors (setOf (conflicts.map (·.contributor)))) s
  (out.1, out.2.isSome)

/-! ## What the loops do -/

section Loops

variable {E}

theorem get_id {id : String} {c : Contributor} (h : E.get id = some c) : c.id = id ∧ E.registered c = true := by
  simpa using List.find?_some h

theorem get_eq {c : Contributor} (h : E.registered c = true) : E.get c.id = some c := by
  cases hget : E.get c.id with
  | some d => rw [Contributor.id_inj (get_id hget).1]
  | none => simpa [h] using List.find?_eq_none.1 hget c c.mem_all

theorem mem_contributors {ids : List String} {c : Contributor} : c ∈ E.contributors ids ↔ c.id ∈ ids ∧ E.registered c = true := by
  rw [contributors, List.mem_filterMap]
  constructor
  · rintro ⟨i, hi, hget⟩
    obtain ⟨rfl, hreg⟩ := get_id hget
    exact ⟨hi, hreg⟩
  · rintro ⟨hi, hreg⟩
    exact ⟨c.id, hi, get_eq hreg⟩

theorem nodup_contributors {ids : List String} (h : ids.Nodup) : (E.contributors ids).Nodup := by
  refine h.filterMap fun i j c hi hj => ?_
  rw [← (get_id hi).1, ← (get_id hj).1]

theorem mem_setOf {ids : List String} {i : String} : i ∈ setOf ids ↔ i ∈ ids := by
  simp [setOf]

theorem nodup_setOf (ids : List String) : (setOf ids).Nodup := by
  rw [setOf, List.nodup_reverse]
  exact List.nodup_dedup _

variable {α : Type} {step : Contributor → Store → Option (α × Store)} {cs : List Contributor} {s : Stores} {c : Contributor}

attribute [local simp] forEach

theorem forEach_of_not_mem (h : c ∉ cs) : (forEach step cs s).1 c = s c := by
  induction cs generalizing s with
  | nil => rfl
  | cons d cs ih =>
    rw [List.mem_cons, not_or] at h
    rw [forEach]
    split
    · rfl
    · rw [ih h.2, Function.update_of_ne h.1]

/-- Also when a later step throws, a store is untouched or what its own step made of it. -/
theorem forEach_cases (hnodup : cs.Nodup) (c : Contributor) :
    (forEach step cs s).1 c = s c ∨ ∃ a, step c (s c) = some (a, (forEach step cs s).1 c) := by
  induction cs generalizing s with
  | nil => exact .inl rfl
  | cons d cs ih =>
    rw [List.nodup_cons] at hnodup
    rw [forEach]
    cases hstep : step d (s d) with
    | none => exact .inl rfl
    | some out =>
      obtain ⟨a, store⟩ := out
      dsimp only
      by_cases hc : c = d
      · subst hc
        right
        rw [forEach_of_not_mem hnodup.1, Function.update_self]
        exact ⟨a, hstep⟩
      · have hs : Function.update s d store c = s c := Function.update_of_ne hc _ _
        exact hs ▸ ih hnodup.2

/-- Each contributor's store is what its own step made of it, if all the steps went through. -/
theorem forEach_some {as : List α} (hnodup : cs.Nodup) (h : (forEach step cs s).2 = some as) :
    (∀ c ∈ cs, ∃ a ∈ as, step c (s c) = some (a, (forEach step cs s).1 c)) ∧
      as = cs.filterMap fun c => (step c (s c)).map Prod.fst := by
  induction cs generalizing s as with
  | nil =>
    obtain rfl := Option.some.inj h
    exact ⟨nofun, rfl⟩
  | cons d cs ih =>
    rw [List.nodup_cons] at hnodup
    rw [forEach] at h ⊢
    cases hstep : step d (s d) with
    | none => simp [hstep] at h
    | some out =>
      obtain ⟨a, store⟩ := out
      simp only [hstep] at h ⊢
      obtain ⟨as', has', rfl⟩ := Option.map_eq_some_iff.1 h
      obtain ⟨hsteps, has⟩ := ih hnodup.2 has'
      -- the steps that follow are not about this contributor
      have hother : ∀ e ∈ cs, Function.update s d store e = s e := by
        intro e he
        rw [Function.update_of_ne]
        rintro rfl
        exact hnodup.1 he
      refine ⟨fun c hc => ?_, ?_⟩
      · rcases List.mem_cons.1 hc with rfl | hc
        · refine ⟨a, List.mem_cons_self .., ?_⟩
          rw [forEach_of_not_mem hnodup.1, Function.update_self]
          exact hstep
        · obtain ⟨a', ha', hstep'⟩ := hsteps c hc
          exact ⟨a', List.mem_cons_of_mem _ ha', hother c hc ▸ hstep'⟩
      · rw [List.filterMap_cons_some (by rw [hstep]; rfl), has]
        refine congrArg (a :: ·) (List.filterMap_congr fun e he => ?_)
        rw [hother e he]

theorem forEach_isSome (hnodup : cs.Nodup) : (forEach step cs s).2.isSome ↔ ∀ c ∈ cs, (step c (s c)).isSome := by
  induction cs generalizing s with
  | nil => simp [forEach]
  | cons d cs ih =>
    rw [List.nodup_cons] at hnodup
    rw [forEach, List.forall_mem_cons]
    cases hstep : step d (s d) with
    | none => simp
    | some out =>
      simp only [Option.isSome_map, ih hnodup.2, Option.isSome_some, true_and]
      refine forall₂_congr fun e he => ?_
      rw [Function.update_of_ne]
      rintro rfl
      exact hnodup.1 he

end Loops

end Engine

end Purdex.Sync
