/-
Records: finitely many keys, each with one value.
-/
import Mathlib.Data.List.Dedup
import Purdex.Json.Value

namespace Json

structure Record (α : Type) where
  entries : List (String × α)
  nodup : (entries.map Prod.fst).Nodup
  deriving DecidableEq

namespace Record

variable {α : Type}

def keys (r : Record α) : List String := r.entries.map Prod.fst

def get? (r : Record α) (k : String) : Option α := r.entries.lookup k

/-- The record of the keys in `ks` that `f` has a value for. -/
def ofKeys (ks : List String) (f : String → Option α) : Record α where
  entries := ks.dedup.filterMap fun k => (f k).map (k, ·)
  nodup := by
    rw [List.map_filterMap]
    refine (List.nodup_dedup ks).filterMap fun a a' b hb hb' => ?_
    simp only [Option.map_map, Option.mem_def, Option.map_eq_some_iff, Function.comp_apply] at hb hb'
    obtain ⟨_, _, rfl⟩ := hb
    obtain ⟨_, _, rfl⟩ := hb'
    rfl

/-- No key has a value. -/
def empty : Record α := ⟨[], List.nodup_nil⟩

/-- `r[k] = a`. -/
def set (r : Record α) (k : String) (a : α) : Record α :=
  ofKeys (k :: r.keys) fun k' => if k' = k then some a else r.get? k'

/-- `{ ...r, ...s }`. -/
def overlay (r s : Record α) : Record α :=
  ofKeys (r.keys ++ s.keys) fun k => (s.get? k).or (r.get? k)

/-- The keys that satisfy `p`. -/
def restrict (r : Record α) (p : String → Bool) : Record α :=
  ofKeys r.keys fun k => if p k then r.get? k else none

/-- Each value replaced by what `f` makes of it. -/
def mapValues (r : Record α) (f : α → α) : Record α where
  entries := r.entries.map fun e => (e.1, f e.2)
  nodup := by
    rw [List.map_map]
    exact r.nodup

def values (r : Record α) : List α := r.entries.map Prod.snd

theorem mem_keys {r : Record α} {k : String} : k ∈ r.keys ↔ (r.get? k).isSome := lookup_isSome.symm

theorem get?_eq_none {r : Record α} {k : String} (h : k ∉ r.keys) : r.get? k = none := by
  rw [mem_keys] at h
  simpa using h

theorem get?_mapValues (r : Record α) (f : α → α) (k : String) : (r.mapValues f).get? k = (r.get? k).map f := by
  show (r.entries.map fun e => (e.1, f e.2)).lookup k = (r.entries.lookup k).map f
  induction r.entries with
  | nil => rfl
  | cons e rest ih =>
    rw [List.map_cons, List.lookup_cons, List.lookup_cons, ih]
    split <;> rfl

theorem mapValues_mapValues (r : Record α) (f g : α → α) : (r.mapValues f).mapValues g = r.mapValues (g ∘ f) := by
  simp [mapValues, Function.comp_def]

theorem mapValues_id (r : Record α) : r.mapValues id = r := by
  simp [mapValues]

theorem mapValues_congr {r : Record α} {f g : α → α} (h : ∀ a ∈ r.values, f a = g a) : r.mapValues f = r.mapValues g := by
  unfold mapValues
  congr 1
  refine List.map_congr_left fun e he => ?_
  rw [h e.2 (List.mem_map_of_mem he)]

theorem get?_ofKeys (ks : List String) (f : String → Option α) (k : String) :
    (ofKeys ks f).get? k = if k ∈ ks then f k else none := by
  have hmem : ∀ a, (k, a) ∈ (ofKeys ks f).entries ↔ k ∈ ks ∧ f k = some a := by
    intro a
    simp only [ofKeys, List.mem_filterMap, List.mem_dedup, Option.map_eq_some_iff, Prod.mk.injEq]
    constructor
    · rintro ⟨k', hk', a', ha', rfl, rfl⟩
      exact ⟨hk', ha'⟩
    · rintro ⟨hk, ha⟩
      exact ⟨k, hk, a, ha, rfl, rfl⟩
  refine Option.ext fun a => ?_
  rw [get?, lookup_eq_some (ofKeys ks f).nodup, hmem]
  split <;> simp_all

/-- A record of keys beyond which there is nothing. -/
theorem get?_ofKeys_of {ks : List String} {f : String → Option α} (h : ∀ k, k ∉ ks → f k = none) (k : String) :
    (ofKeys ks f).get? k = f k := by
  rw [get?_ofKeys]
  split
  · rfl
  · exact (h k ‹_›).symm

@[simp] theorem get?_empty (k : String) : (empty : Record α).get? k = none := rfl

theorem get?_set (r : Record α) (k : String) (a : α) (k' : String) :
    (r.set k a).get? k' = if k' = k then some a else r.get? k' := by
  refine get?_ofKeys_of (fun k' hk' => ?_) k'
  rw [List.mem_cons, not_or] at hk'
  rw [if_neg hk'.1, get?_eq_none hk'.2]

theorem get?_overlay (r s : Record α) (k : String) : (r.overlay s).get? k = (s.get? k).or (r.get? k) := by
  refine get?_ofKeys_of (fun k hk => ?_) k
  rw [List.mem_append, not_or] at hk
  rw [get?_eq_none hk.1, get?_eq_none hk.2, Option.or_none]

theorem get?_restrict (r : Record α) (p : String → Bool) (k : String) :
    (r.restrict p).get? k = if p k then r.get? k else none := by
  refine get?_ofKeys_of (fun k hk => ?_) k
  rw [get?_eq_none hk, ite_self]

end Record

/-- The fields of a store as they are exchanged. -/
abbrev Data := Record Val

/-- What is at a key that need not be there. -/
def Data.get (d : Data) (k : String) : Val := (d.get? k).getD none

end Json
