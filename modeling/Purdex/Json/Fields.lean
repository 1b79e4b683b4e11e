/-
The fields of an object as a map that is written to, and the numbers within a value.
-/
import Purdex.Json.Value

namespace Json

/-! ## Fields -/

namespace Fields

variable {α : Type} {k k' : String} {a b : α} {l : List (String × α)}

/-- `m[k] = a`: where the key is, and behind the others where it is new. -/
def put (k : String) (a : α) : List (String × α) → List (String × α)
  | [] => [(k, a)]
  | p :: l => if p.1 = k then (k, a) :: l else p :: put k a l

/-- Each value replaced, or its key deleted. -/
def sift (f : α → Option α) (l : List (String × α)) : List (String × α) := l.filterMap fun p => (f p.2).map (p.1, ·)

attribute [local simp] put

theorem lookup_cons_eq (p : String × α) (l : List (String × α)) (k : String) :
    (p :: l).lookup k = if p.1 = k then some p.2 else l.lookup k := by
  rw [List.lookup_cons]
  by_cases h : p.1 = k
  · rw [if_pos h, h, beq_self_eq_true]
  · rw [if_neg h, beq_false_of_ne (Ne.symm h)]

theorem lookup_put (k k' : String) (a : α) (l : List (String × α)) :
    (put k a l).lookup k' = if k = k' then some a else l.lookup k' := by
  induction l with
  | nil => rw [put, lookup_cons_eq]
  | cons p l ih =>
    rw [put]
    split
    · rename_i hp
      rw [lookup_cons_eq, lookup_cons_eq, hp]
      split <;> rfl
    · rename_i hp
      rw [lookup_cons_eq, lookup_cons_eq, ih]
      by_cases hk : k = k'
      · subst hk
        rw [if_neg hp, if_pos rfl, if_pos rfl]
      · rw [if_neg hk, if_neg hk]

theorem put_eq_self (h : l.lookup k = some a) : put k a l = l := by
  induction l with
  | nil => cases h
  | cons p l ih =>
    rw [lookup_cons_eq] at h
    rw [put]
    split at h
    · rename_i hp
      rw [if_pos hp, ← hp, ← Option.some.inj h]
    · rename_i hp
      rw [if_neg hp, ih h]

theorem put_put : put k b (put k a l) = put k b l := by
  induction l with
  | nil => simp only [put, if_true]
  | cons p l ih =>
    by_cases hp : p.1 = k
    · simp only [put, if_pos hp, if_true]
    · simp only [put, if_neg hp, ih]

theorem keys_put (k : String) (a : α) (l : List (String × α)) :
    (put k a l).map Prod.fst = if k ∈ l.map Prod.fst then l.map Prod.fst else l.map Prod.fst ++ [k] := by
  induction l with
  | nil => rfl
  | cons p l ih =>
    rw [put]
    by_cases hp : p.1 = k
    · rw [if_pos hp, if_pos (by simp [hp]), List.map_cons, List.map_cons, hp]
    · rw [if_neg hp, List.map_cons, ih, List.map_cons]
      by_cases hk : k ∈ l.map Prod.fst
      · rw [if_pos hk, if_pos (List.mem_cons_of_mem _ hk)]
      · rw [if_neg hk, if_neg (by simpa [Ne.symm hp] using hk), List.cons_append]

theorem nodup_put (h : (l.map Prod.fst).Nodup) (k : String) (a : α) : ((put k a l).map Prod.fst).Nodup := by
  rw [keys_put]
  split
  · exact h
  · rename_i hk
    exact List.nodup_append.2 ⟨h, List.nodup_singleton k, fun x hx y hy hxy => hk (List.mem_singleton.1 hy ▸ hxy ▸ hx)⟩

theorem mem_put {q : String × α} (h : q ∈ put k a l) : q = (k, a) ∨ q ∈ l := by
  induction l with
  | nil => exact .inl (List.mem_singleton.1 h)
  | cons r l ih =>
    rw [put] at h
    split at h
    · rcases List.mem_cons.1 h with rfl | h
      · exact .inl rfl
      · exact .inr (List.mem_cons_of_mem _ h)
    · rcases List.mem_cons.1 h with rfl | h
      · exact .inr List.mem_cons_self
      · exact (ih h).imp id (List.mem_cons_of_mem _)

theorem put_of_new (h : k ∉ l.map Prod.fst) : put k a l = l ++ [(k, a)] := by
  induction l with
  | nil => rfl
  | cons p l ih =>
    rw [List.map_cons, List.mem_cons, not_or] at h
    rw [put, if_neg (Ne.symm h.1), ih h.2, List.cons_append]

theorem lookup_eq_none_of_keys (h : k ∉ l.map Prod.fst) : l.lookup k = none := by
  by_contra hne
  exact h (lookup_isSome.1 (Option.isSome_iff_ne_none.2 hne))

theorem lookup_sift (h : (l.map Prod.fst).Nodup) (f : α → Option α) (k : String) : (sift f l).lookup k = (l.lookup k).bind f := by
  induction l with
  | nil => rfl
  | cons p l ih =>
    obtain ⟨hp, hl⟩ := List.nodup_cons.1 h
    have hstep : sift f (p :: l) = ((f p.2).map (p.1, ·)).toList ++ sift f l := by
      unfold sift
      cases hf : f p.2 <;> simp [hf]
    rw [hstep, lookup_cons_eq]
    cases hf : f p.2 with
    | none =>
      rw [Option.map_none, Option.toList_none, List.nil_append, ih hl]
      split
      · rename_i hk
        rw [← hk, lookup_eq_none_of_keys hp, Option.bind_none, Option.bind_some, hf]
      · rfl
    | some b =>
      rw [Option.map_some, Option.toList_some, List.singleton_append, lookup_cons_eq, ih hl]
      split
      · rw [Option.bind_some, hf]
      · rfl

/-- A write that makes no difference to what comes of its key. -/
theorem sift_put {f : α → Option α} (h : (l.lookup k).bind f = f a) : sift f (put k a l) = sift f l := by
  induction l with
  | nil =>
    have hnone : f a = none := h.symm
    simp [sift, hnone]
  | cons p l ih =>
    rw [lookup_cons_eq] at h
    rw [put]
    by_cases hp : p.1 = k
    · rw [if_pos hp, Option.bind_some] at h
      rw [if_pos hp]
      unfold sift
      rw [List.filterMap_cons, List.filterMap_cons, hp, h]
    · rw [if_neg hp] at h
      rw [if_neg hp]
      have hrest := ih h
      unfold sift at hrest ⊢
      rw [List.filterMap_cons, List.filterMap_cons, hrest]

theorem lookup_filter_ne (h : k' ≠ k) (l : List (String × α)) : (l.filter (·.1 ≠ k)).lookup k' = l.lookup k' := by
  induction l with
  | nil => rfl
  | cons p l ih =>
    by_cases hp : p.1 = k
    · rw [List.filter_cons_of_neg (by simpa using hp), ih, lookup_cons_eq, if_neg fun heq => h (heq.symm.trans hp)]
    · rw [List.filter_cons_of_pos (by simpa using hp), lookup_cons_eq, lookup_cons_eq, ih]

/-- Fields dropped or given another value, but not those of one key. -/
theorem lookup_filterMap {g : String × α → Option (String × α)} (hkey : ∀ p q, g p = some q → q.1 = p.1)
    (h : ∀ a, g (k, a) = some (k, a)) (l : List (String × α)) : (l.filterMap g).lookup k = l.lookup k := by
  induction l with
  | nil => rfl
  | cons p l ih =>
    rw [List.filterMap_cons, lookup_cons_eq p]
    cases hp : g p with
    | none =>
      rw [if_neg fun heq => ?_]
      · exact ih
      · subst heq
        rw [h p.2] at hp
        cases hp
    | some q =>
      simp only
      rw [lookup_cons_eq, hkey p q hp, ih]
      split
      · rename_i heq
        subst heq
        rw [h p.2] at hp
        rw [← Option.some.inj hp]
      · rfl

theorem keys_filterMap {g : String × α → Option (String × α)} (hkey : ∀ p q, g p = some q → q.1 = p.1) (l : List (String × α)) :
    ((l.filterMap g).map Prod.fst).Sublist (l.map Prod.fst) := by
  induction l with
  | nil => exact List.Sublist.refl _
  | cons p l ih =>
    rw [List.filterMap_cons, List.map_cons]
    cases hp : g p with
    | none => exact ih.cons _
    | some q =>
      rw [List.map_cons, hkey p q hp]
      exact ih.cons_cons _

theorem lookup_map (f : α → α) (l : List (String × α)) (k : String) :
    (l.map fun p => (p.1, f p.2)).lookup k = (l.lookup k).map f := by
  induction l with
  | nil => rfl
  | cons p l ih =>
    rw [List.map_cons, lookup_cons_eq, lookup_cons_eq, ih]
    split <;> rfl

theorem put_map (f : α → α) (k : String) (a : α) (l : List (String × α)) :
    (put k a l).map (fun p => (p.1, f p.2)) = put k (f a) (l.map fun p => (p.1, f p.2)) := by
  induction l with
  | nil => rfl
  | cons p l ih =>
    rw [put, List.map_cons, put]
    split
    · rfl
    · rw [List.map_cons, ih]

section Fold

variable {σ : Type} {f : σ → String × α → σ} {P : σ → Prop} {s : σ}

theorem foldl_none (hl : ∀ p ∈ l, ∀ s, P s → f s p = s) (hs : P s) : l.foldl f s = s := by
  induction l with
  | nil => rfl
  | cons p l ih =>
    rw [List.foldl_cons, hl p List.mem_cons_self s hs]
    exact ih fun q hq => hl q (List.mem_cons_of_mem _ hq)

/-- A loop over fields that does nothing for the keys other than one. -/
theorem foldl_one (hother : ∀ p ∈ l, p.1 ≠ k → ∀ s, P s → f s p = s) (hnodup : (l.map Prod.fst).Nodup) (hmem : (k, a) ∈ l) (hs : P s)
    (hkeep : P (f s (k, a))) : l.foldl f s = f s (k, a) := by
  induction l with
  | nil => cases hmem
  | cons p l ih =>
    rw [List.map_cons, List.nodup_cons] at hnodup
    have hrest : ∀ q ∈ l, q.1 ≠ k → ∀ s, P s → f s q = s := fun q hq => hother q (List.mem_cons_of_mem _ hq)
    rw [List.foldl_cons]
    by_cases hp : p.1 = k
    · have heq : p = (k, a) := by
        rcases List.mem_cons.1 hmem with h | h
        · exact h.symm
        · exact absurd (List.mem_map.2 ⟨_, h, hp.symm⟩) hnodup.1
      subst heq
      exact foldl_none (fun q hq => hrest q hq fun hk => hnodup.1 (List.mem_map.2 ⟨q, hq, hk⟩)) hkeep
    · rw [hother p List.mem_cons_self hp s hs]
      exact ih hrest hnodup.2 ((List.mem_cons.1 hmem).resolve_left fun h => hp (congrArg Prod.fst h).symm)

end Fold

end Fields

/-! ## Numbers -/

namespace Raw

mutual

def mapNumbers (f : ℚ → ℚ) : Raw → Raw
  | .num n => .num (f n)
  | .arr items => .arr (mapNumbersItems f items)
  | .obj fields => .obj (mapNumbersFields f fields)
  | a => a

def mapNumbersItems (f : ℚ → ℚ) : List Raw → List Raw
  | [] => []
  | a :: as => a.mapNumbers f :: mapNumbersItems f as

def mapNumbersFields (f : ℚ → ℚ) : List (String × Raw) → List (String × Raw)
  | [] => []
  | (k, a) :: as => (k, a.mapNumbers f) :: mapNumbersFields f as

end

mutual

def allNumbers (p : ℚ → Bool) : Raw → Bool
  | .num n => p n
  | .arr items => allNumbersItems p items
  | .obj fields => allNumbersFields p fields
  | _ => true

def allNumbersItems (p : ℚ → Bool) : List Raw → Bool
  | [] => true
  | a :: as => a.allNumbers p && allNumbersItems p as

def allNumbersFields (p : ℚ → Bool) : List (String × Raw) → Bool
  | [] => true
  | (_, a) :: as => a.allNumbers p && allNumbersFields p as

end

variable {f : ℚ → ℚ} {p : ℚ → Bool}

attribute [local simp] mapNumbers mapNumbersItems mapNumbersFields allNumbers allNumbersItems allNumbersFields

theorem mapNumbers_arr (items : List Raw) : (Raw.arr items).mapNumbers f = .arr (items.map (mapNumbers f)) := by
  rw [mapNumbers]
  congr 1
  induction items with
  | nil => simp
  | cons a as ih => simp [ih]

theorem mapNumbers_obj (fields : List (String × Raw)) :
    (Raw.obj fields).mapNumbers f = .obj (fields.map fun q => (q.1, q.2.mapNumbers f)) := by
  rw [mapNumbers]
  congr 1
  induction fields with
  | nil => simp
  | cons a as ih => simp [ih]

theorem allNumbers_arr {items : List Raw} : (Raw.arr items).allNumbers p ↔ ∀ a ∈ items, a.allNumbers p := by
  rw [allNumbers]
  induction items with
  | nil => simp
  | cons a as ih => simp [ih]

theorem allNumbers_obj {fields : List (String × Raw)} : (Raw.obj fields).allNumbers p ↔ ∀ q ∈ fields, q.2.allNumbers p := by
  rw [allNumbers]
  induction fields with
  | nil => simp
  | cons q as ih => simp [ih]

theorem mapNumbers_id : ∀ a : Raw, a.mapNumbers (fun n => n) = a := by
  intro a
  induction a using Raw.induction with
  | null | bool | str | num => rfl
  | arr items ih =>
    have hitems : ∀ a ∈ items, a.mapNumbers (fun n => n) = id a := ih
    rw [mapNumbers_arr, List.map_congr_left hitems, List.map_id]
  | obj fields ih =>
    have hfields : ∀ q ∈ fields, (q.1, q.2.mapNumbers fun n => n) = id q := fun q hq => Prod.ext rfl (ih q hq)
    rw [mapNumbers_obj, List.map_congr_left hfields, List.map_id]

theorem mapNumbers_mapNumbers (h : ∀ n, p n → f (f n) = f n) : ∀ {a : Raw}, a.allNumbers p → (a.mapNumbers f).mapNumbers f = a.mapNumbers f := by
  intro a
  induction a using Raw.induction with
  | null | bool | str => exact fun _ => rfl
  | num n => exact fun hn => congrArg Raw.num (h n hn)
  | arr items ih =>
    intro hall
    rw [mapNumbers_arr, mapNumbers_arr, List.map_map]
    congr 1
    exact List.map_congr_left fun a ha => ih a ha (allNumbers_arr.1 hall a ha)
  | obj fields ih =>
    intro hall
    rw [mapNumbers_obj, mapNumbers_obj, List.map_map]
    congr 1
    exact List.map_congr_left fun q hq => Prod.ext rfl (ih q hq (allNumbers_obj.1 hall q hq))

theorem allNumbers_mapNumbers (h : ∀ n, p n → p (f n)) : ∀ {a : Raw}, a.allNumbers p → (a.mapNumbers f).allNumbers p := by
  intro a
  induction a using Raw.induction with
  | null | bool | str => exact fun _ => rfl
  | num n => exact h n
  | arr items ih =>
    intro hall
    rw [mapNumbers_arr, allNumbers_arr]
    intro b hb
    obtain ⟨a, ha, rfl⟩ := List.mem_map.1 hb
    exact ih a ha (allNumbers_arr.1 hall a ha)
  | obj fields ih =>
    intro hall
    rw [mapNumbers_obj, allNumbers_obj]
    intro r hr
    obtain ⟨q, hq, rfl⟩ := List.mem_map.1 hr
    exact ih q hq (allNumbers_obj.1 hall q hq)

end Raw

end Json
