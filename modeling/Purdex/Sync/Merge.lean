/-
The three-way merge of two records against their common ancestor, field by field.
-/
import Purdex.Json.Record

namespace Purdex.Sync

open Json

/-! ## One field -/

inductive ConflictResult where
  | noChange
  | useLocal
  | useRemote
  | bothSame
  | conflict
  deriving Repr, DecidableEq

def detectConflict (last localVal remote : Val) : ConflictResult :=
  let localChanged := !last.deepEqual localVal
  let remoteChanged := !last.deepEqual remote
  if !localChanged && !remoteChanged then .noChange
  else if localChanged && !remoteChanged then .useLocal
  else if !localChanged && remoteChanged then .useRemote
  else if localVal.deepEqual remote then .bothSame
  else .conflict

/-- The value a field merges to; a conflict keeps the local one as a placeholder. -/
def mergeField (last localVal remote : Val) : Val :=
  match detectConflict last localVal remote with
  | .noChange | .bothSame => localVal
  | .useLocal => localVal
  | .useRemote => remote
  | .conflict => localVal

section Field

variable {last localVal remote : Val}

theorem detectConflict_noChange :
    detectConflict last localVal remote = .noChange ↔ last ≈ localVal ∧ last ≈ remote := by
  simp only [detectConflict, Val.equiv_iff]
  cases last.deepEqual localVal <;> cases last.deepEqual remote <;> cases localVal.deepEqual remote <;> simp

theorem detectConflict_conflict :
    detectConflict last localVal remote = .conflict ↔ ¬last ≈ localVal ∧ ¬last ≈ remote ∧ ¬localVal ≈ remote := by
  simp only [detectConflict, Val.equiv_iff]
  cases last.deepEqual localVal <;> cases last.deepEqual remote <;> cases localVal.deepEqual remote <;> simp

theorem detectConflict_useRemote :
    detectConflict last localVal remote = .useRemote ↔ last ≈ localVal ∧ ¬last ≈ remote := by
  simp only [detectConflict, Val.equiv_iff]
  cases last.deepEqual localVal <;> cases last.deepEqual remote <;> cases localVal.deepEqual remote <;> simp

theorem detectConflict_useLocal :
    detectConflict last localVal remote = .useLocal ↔ ¬last ≈ localVal ∧ last ≈ remote := by
  simp only [detectConflict, Val.equiv_iff]
  cases last.deepEqual localVal <;> cases last.deepEqual remote <;> cases localVal.deepEqual remote <;> simp

/-- Only a change on the remote side alone brings in the remote value. -/
theorem mergeField_of_ne (h : detectConflict last localVal remote ≠ .useRemote) :
    mergeField last localVal remote = localVal := by
  unfold mergeField
  cases hr : detectConflict last localVal remote
  case useRemote => exact absurd hr h
  all_goals rfl

theorem mergeField_useRemote (h : detectConflict last localVal remote = .useRemote) :
    mergeField last localVal remote = remote := by
  rw [mergeField, h]

end Field

/-! ## Collections -/

/-- A conflict that could not be resolved, with the three values. -/
structure ConflictItem where
  contributor : String
  field : String
  lastSynced : Val
  localVal : Val
  remote : Val
  device : String
  deriving DecidableEq

structure MergeCollectionResult where
  merged : Data
  conflicts : List ConflictItem

/-- The keys of all three records. -/
def allKeys (last localData remote : Data) : List String := last.keys ++ localData.keys ++ remote.keys

/-- `merged[key] = value` sets the prototype of `merged` where this is the key: it makes no field. -/
def protoKey : String := "__proto__"

/-- Without an ancestor the remote record is taken as it is. A merged field that is undefined is left
out. -/
def mergeCollection (last : Option Data) (localData remote : Data) (remoteDevice : String) : MergeCollectionResult :=
  match last with
  | none => ⟨remote, []⟩
  | some last =>
    { merged := Record.ofKeys ((allKeys last localData remote).filter (· ≠ protoKey)) fun k =>
        (mergeField (last.get k) (localData.get k) (remote.get k)).map some
      conflicts := (allKeys last localData remote).dedup.filterMap fun k =>
        if detectConflict (last.get k) (localData.get k) (remote.get k) = .conflict
        then some ⟨"", k, last.get k, localData.get k, remote.get k, remoteDevice⟩ else none }

/-- The field is one both sides changed, to different values. -/
def Conflicting (last : Option Data) (localData remote : Data) (k : String) : Prop :=
  ∃ l ∈ last, detectConflict (Data.get l k) (localData.get k) (remote.get k) = .conflict

instance (last : Option Data) (localData remote : Data) (k : String) : Decidable (Conflicting last localData remote k) :=
  match last with
  | none => isFalse nofun
  | some l => decidable_of_iff (detectConflict (Data.get l k) (localData.get k) (remote.get k) = .conflict) (by simp [Conflicting])

section Collection

variable {last : Option Data} {localData remote : Data} {device : String} {k : String}

theorem get_of_not_mem {d : Data} (h : k ∉ d.keys) : d.get k = none := by
  rw [Data.get, Record.get?_eq_none h, Option.getD_none]

theorem not_mem_allKeys {last localData remote : Data} (h : k ∉ allKeys last localData remote) :
    last.get k = none ∧ localData.get k = none ∧ remote.get k = none := by
  simp only [allKeys, List.mem_append, not_or] at h
  exact ⟨get_of_not_mem h.1.1, get_of_not_mem h.1.2, get_of_not_mem h.2⟩

/-- A merged field is there unless it merged to nothing. -/
theorem merged_get? (last localData remote : Data) (device : String) (hk : k ≠ protoKey) :
    (mergeCollection (some last) localData remote device).merged.get? k =
      (mergeField (last.get k) (localData.get k) (remote.get k)).map some := by
  rw [mergeCollection, Record.get?_ofKeys]
  split
  · rfl
  · rename_i hmem
    have hnone : k ∉ allKeys last localData remote := fun hall => hmem (List.mem_filter.2 ⟨hall, decide_eq_true hk⟩)
    obtain ⟨h₁, h₂, h₃⟩ := not_mem_allKeys hnone
    rw [h₁, h₂, h₃]
    rfl

theorem merged_proto (last localData remote : Data) (device : String) :
    (mergeCollection (some last) localData remote device).merged.get? protoKey = none := by
  rw [mergeCollection, Record.get?_ofKeys, if_neg]
  exact fun hmem => of_decide_eq_true (List.mem_filter.1 hmem).2 rfl

theorem merged_get (last localData remote : Data) (device : String) (hk : k ≠ protoKey) :
    (mergeCollection (some last) localData remote device).merged.get k =
      mergeField (last.get k) (localData.get k) (remote.get k) := by
  rw [Data.get, merged_get? last localData remote device hk]
  cases mergeField (last.get k) (localData.get k) (remote.get k) <;> rfl

theorem mem_conflicts {c : ConflictItem} : c ∈ (mergeCollection last localData remote device).conflicts ↔
    Conflicting last localData remote c.field ∧
      c = ⟨"", c.field, last.elim none (Data.get · c.field), localData.get c.field, remote.get c.field, device⟩ := by
  cases last with
  | none => simp [mergeCollection, Conflicting]
  | some last =>
    simp only [mergeCollection, List.mem_filterMap, List.mem_dedup, Conflicting, Option.mem_def, Option.some.injEq,
      exists_eq_left', Option.elim_some]
    constructor
    · rintro ⟨k, _, hc⟩
      split at hc
      · obtain rfl := Option.some.inj hc
        exact ⟨‹_›, rfl⟩
      · cases hc
    · rintro ⟨hconflict, hc⟩
      refine ⟨c.field, ?_, by rw [if_pos hconflict, ← hc]⟩
      by_contra hk
      obtain ⟨h₁, h₂, h₃⟩ := not_mem_allKeys hk
      rw [h₁, h₂, h₃] at hconflict
      cases hconflict

/-- The fields in conflict are those that are reported. -/
theorem conflicting_iff (device : String) : Conflicting last localData remote k ↔
    ∃ c ∈ (mergeCollection last localData remote device).conflicts, c.field = k := by
  constructor
  · intro h
    exact ⟨⟨"", k, last.elim none (Data.get · k), localData.get k, remote.get k, device⟩, mem_conflicts.2 ⟨h, rfl⟩, rfl⟩
  · rintro ⟨c, hc, rfl⟩
    exact (mem_conflicts.1 hc).1

theorem conflicts_eq_nil : (mergeCollection last localData remote device).conflicts = [] ↔
    ∀ k, ¬Conflicting last localData remote k := by
  rw [List.eq_nil_iff_forall_not_mem]
  constructor
  · intro h k hk
    obtain ⟨c, hc, _⟩ := (conflicting_iff device).1 hk
    exact h c hc
  · exact fun h c hc => h c.field (mem_conflicts.1 hc).1

end Collection

/-! ## What a merge is for -/

section Spec

variable {last localVal remote : Val} {k : String}

/-- The side that changed or the common value, and the local one where both sides changed apart. -/
def taken (last localVal remote : Val) : Val := if last ≈ localVal ∧ ¬last ≈ remote then remote else localVal

theorem mergeField_eq_taken (last localVal remote : Val) : mergeField last localVal remote = taken last localVal remote := by
  unfold taken
  split
  · rename_i h
    exact mergeField_useRemote (detectConflict_useRemote.2 h)
  · rename_i h
    exact mergeField_of_ne fun hr => h (detectConflict_useRemote.1 hr)

theorem taken_of_localUnchanged (h : last ≈ localVal) : taken last localVal remote ≈ remote := by
  unfold taken
  split
  · exact Setoid.refl _
  · rename_i hnot
    have hremote : last ≈ remote := by
      by_contra hne
      exact hnot ⟨h, hne⟩
    exact Setoid.trans (Setoid.symm h) hremote

theorem taken_of_remoteUnchanged (h : last ≈ remote) : taken last localVal remote = localVal := if_neg fun hnot => hnot.2 h

theorem taken_of_agreed (h : localVal ≈ remote) : taken last localVal remote = localVal :=
  if_neg fun hnot => hnot.2 (Setoid.trans hnot.1 h)

/-- Which side is the local one only matters in a conflict. -/
theorem taken_symm (h : ¬(¬last ≈ localVal ∧ ¬last ≈ remote ∧ ¬localVal ≈ remote)) : taken last localVal remote ≈ taken last remote localVal := by
  by_cases hlocal : last ≈ localVal
  · exact Setoid.trans (taken_of_localUnchanged hlocal) (Val.equiv_of_eq (taken_of_remoteUnchanged hlocal).symm)
  · by_cases hremote : last ≈ remote
    · exact Setoid.trans (Val.equiv_of_eq (taken_of_remoteUnchanged hremote)) (Setoid.symm (taken_of_localUnchanged hremote))
    · have hsame : localVal ≈ remote := by
        by_contra hne
        exact h ⟨hlocal, hremote, hne⟩
      rw [taken_of_agreed hsame, taken_of_agreed (Setoid.symm hsame)]
      exact hsame

/-- The field was changed on both sides, to different values. -/
def Diverged (last localData remote : Data) (k : String) : Prop :=
  ¬last.get k ≈ localData.get k ∧ ¬last.get k ≈ remote.get k ∧ ¬localData.get k ≈ remote.get k

theorem Diverged.symm {last localData remote : Data} (h : Diverged last localData remote k) : Diverged last remote localData k :=
  ⟨h.2.1, h.1, fun hsame => h.2.2 (Setoid.symm hsame)⟩

/-- A conflict is reported for the field. -/
def MergeCollectionResult.Reports (result : MergeCollectionResult) (k : String) : Prop := ∃ c ∈ result.conflicts, c.field = k

theorem reports_iff (last localData remote : Data) (device : String) (k : String) :
    (mergeCollection (some last) localData remote device).Reports k ↔ Diverged last localData remote k := by
  refine (conflicting_iff device).symm.trans ?_
  simp only [Conflicting, Option.mem_def, Option.some.injEq, exists_eq_left']
  exact detectConflict_conflict

/-- The specification of a merge: its conflicts and its fields, one by one, and what follows where one side did not change. -/
structure Merges (last localData remote : Data) (device : String) : Prop where
  conflicts : ∀ k ∈ allKeys last localData remote, (mergeCollection (some last) localData remote device).Reports k ↔ Diverged last localData remote k
  fields : ∀ k ∈ allKeys last localData remote, (mergeCollection (some last) localData remote device).merged.get? k =
    (taken (last.get k) (localData.get k) (remote.get k)).map some
  symmetric : ∀ k ∈ allKeys last localData remote,
    ((mergeCollection (some last) localData remote device).Reports k ↔ (mergeCollection (some last) remote localData device).Reports k) ∧
      (¬(mergeCollection (some last) localData remote device).Reports k →
        (mergeCollection (some last) localData remote device).merged.get k ≈ (mergeCollection (some last) remote localData device).merged.get k)
  localUnchanged : (∀ k, last.get k ≈ localData.get k) → (mergeCollection (some last) localData remote device).conflicts = [] ∧
    ∀ k, (mergeCollection (some last) localData remote device).merged.get k ≈ remote.get k
  remoteUnchanged : (∀ k, last.get k ≈ remote.get k) → (mergeCollection (some last) localData remote device).conflicts = [] ∧
    ∀ k, (mergeCollection (some last) localData remote device).merged.get k = localData.get k
  agreed : (∀ k, localData.get k ≈ remote.get k) → (mergeCollection (some last) localData remote device).conflicts = [] ∧
    ∀ k, (mergeCollection (some last) localData remote device).merged.get k = localData.get k

/-- The side that the merge takes at `__proto__`, the remote one where it alone changed, has no such field. -/
def ProtoFree (last localData remote : Data) : Prop :=
  if last.get protoKey ≈ localData.get protoKey ∧ ¬last.get protoKey ≈ remote.get protoKey then remote.get protoKey = none
  else localData.get protoKey = none

theorem protoFree_iff {last localData remote : Data} :
    ProtoFree last localData remote ↔ taken (last.get protoKey) (localData.get protoKey) (remote.get protoKey) = none := by
  unfold ProtoFree taken
  split <;> rfl

section Free

variable {last localData remote : Data} {device : String}

theorem merged_get?_taken (h : ProtoFree last localData remote) (k : String) :
    (mergeCollection (some last) localData remote device).merged.get? k = (taken (last.get k) (localData.get k) (remote.get k)).map some := by
  by_cases hk : k = protoKey
  · rw [hk, merged_proto, protoFree_iff.1 h]
    rfl
  · rw [merged_get? last localData remote device hk, mergeField_eq_taken]

theorem merged_get_taken (h : ProtoFree last localData remote) (k : String) :
    (mergeCollection (some last) localData remote device).merged.get k = taken (last.get k) (localData.get k) (remote.get k) := by
  rw [Data.get, merged_get?_taken h]
  cases taken (last.get k) (localData.get k) (remote.get k) <;> rfl

theorem no_conflicts (h : ∀ k, ¬Diverged last localData remote k) : (mergeCollection (some last) localData remote device).conflicts = [] :=
  List.eq_nil_iff_forall_not_mem.2 fun c hc => h c.field ((reports_iff last localData remote device c.field).1 ⟨c, hc, rfl⟩)

end Free

/-- A merge does what it is for exactly where it has nothing to assign at `__proto__`; and values are deeply equal as an equivalence has it. -/
theorem merges_iff (last localData remote : Data) (device : String) :
    Equivalence (fun a b : Val => a.deepEqual b = true) ∧ (Merges last localData remote device ↔ ProtoFree last localData remote) := by
  refine ⟨(inferInstance : Setoid Val).iseqv, fun h => ?_, fun h => ?_⟩
  · rw [protoFree_iff]
    by_cases hmem : protoKey ∈ allKeys last localData remote
    · have hfield := h.fields protoKey hmem
      rw [merged_proto] at hfield
      exact Option.map_eq_none_iff.1 hfield.symm
    · obtain ⟨hlast, hlocal, hremote⟩ := not_mem_allKeys hmem
      rw [hlast, hlocal, hremote]
      rfl
  · refine ⟨fun k _ => reports_iff _ _ _ _ k, fun k _ => merged_get?_taken h k, fun k _ => ⟨?_, fun hnot => ?_⟩, fun hlocal => ⟨?_, fun k => ?_⟩,
      fun hremote => ⟨?_, fun k => ?_⟩, fun hsame => ⟨?_, fun k => ?_⟩⟩
    · rw [reports_iff, reports_iff]
      exact ⟨Diverged.symm, Diverged.symm⟩
    · rw [reports_iff] at hnot
      by_cases hk : k = protoKey
      · subst hk
        simp only [Data.get, merged_proto]
        exact Setoid.refl _
      · rw [merged_get _ _ _ _ hk, merged_get _ _ _ _ hk, mergeField_eq_taken, mergeField_eq_taken]
        exact taken_symm hnot
    · exact no_conflicts fun k hk => hk.1 (hlocal k)
    · rw [merged_get_taken h]
      exact taken_of_localUnchanged (hlocal k)
    · exact no_conflicts fun k hk => hk.2.1 (hremote k)
    · rw [merged_get_taken h]
      exact taken_of_remoteUnchanged (hremote k)
    · exact no_conflicts fun k hk => hk.2.2 (hsame k)
    · rw [merged_get_taken h]
      exact taken_of_agreed (hsame k)

/-- A field of that name that only the remote side has. -/
def protoData : Data := ⟨[(protoKey, some ⟨.num 1, rfl⟩)], List.nodup_singleton _⟩

theorem proto_lost : ¬Merges Record.empty Record.empty protoData "remote" := by
  intro h
  have hfield := h.fields protoKey (by decide)
  rw [merged_proto] at hfield
  exact absurd hfield (by decide)

end Spec

end Purdex.Sync
