/-
A list that is built one element at a time, at most one for each key: an index says where the element of a key is, and what comes later
with the same key is joined with it in its place.
-/
import Mathlib.Logic.Function.Basic
import Mathlib.Data.List.Nodup

variable {α κ : Type} [DecidableEq κ]

structure Slots (α κ : Type) where
  next : List α
  indexByKey : κ → Option Nat

namespace Slots

def empty : Slots α κ := ⟨[], fun _ => none⟩

def place (key : α → κ) (a : α) (join : α → α) (s : Slots α κ) : Slots α κ :=
  match s.indexByKey (key a) with
  | none => ⟨s.next ++ [a], Function.update s.indexByKey (key a) (some s.next.length)⟩
  | some i => match s.next[i]? with
    | none => s
    | some existing => { s with next := s.next.set i (join existing) }

/-- The index has every element, and nothing else. -/
def Indexed (key : α → κ) (s : Slots α κ) : Prop := ∀ k i, s.indexByKey k = some i ↔ (s.next.map key)[i]? = some k

variable {key : α → κ} {s : Slots α κ} {a : α} {join : α → α}

omit [DecidableEq κ] in
theorem indexed_empty : Indexed key (empty : Slots α κ) := fun _ _ => ⟨nofun, nofun⟩

omit [DecidableEq κ] in
theorem Indexed.nodup (h : Indexed key s) : (s.next.map key).Nodup := by
  refine List.nodup_iff_getElem?_ne_getElem?.2 fun i j hij hj heq => ?_
  have hi : i < (s.next.map key).length := Nat.lt_trans hij hj
  rw [List.getElem?_eq_getElem hi, List.getElem?_eq_getElem hj] at heq
  have hi' := (h _ i).2 (List.getElem?_eq_getElem hi)
  have hj' := (h _ j).2 (List.getElem?_eq_getElem hj)
  rw [Option.some.inj heq, hj'] at hi'
  exact absurd (Option.some.inj hi') (Nat.ne_of_gt hij)

omit [DecidableEq κ] in
theorem getElem?_concat_eq_some {l : List κ} {k k' : κ} {i : Nat} : (l ++ [k'])[i]? = some k ↔ l[i]? = some k ∨ i = l.length ∧ k' = k := by
  rcases Nat.lt_trichotomy i l.length with hlt | heq | hgt
  · rw [List.getElem?_append_left hlt, or_iff_left fun h => Nat.ne_of_lt hlt h.1]
  · subst heq
    rw [List.getElem?_concat_length, List.getElem?_eq_none (Nat.le_refl _), Option.some.injEq]
    exact ⟨fun h => .inr ⟨rfl, h⟩, fun h => (h.resolve_left nofun).2⟩
  · rw [List.getElem?_eq_none (Nat.le_of_lt hgt), List.getElem?_eq_none (by rw [List.length_append]; exact hgt)]
    exact ⟨nofun, fun h => absurd (h.resolve_left nofun).1 (Nat.ne_of_gt hgt)⟩

/-- What is placed is behind the others, or joined with the one that has its key. -/
theorem place_cases (h : Indexed key s) (hjoin : ∀ b ∈ s.next, key b = key a → key (join b) = key a) :
    Indexed key (s.place key a join) ∧
      ((∀ b ∈ s.next, key b ≠ key a) ∧ (s.place key a join).next = s.next ++ [a] ∨
        ∃ before b behind, s.next = before ++ b :: behind ∧ key b = key a ∧ (s.place key a join).next = before ++ join b :: behind) := by
  unfold place
  cases hindex : s.indexByKey (key a) with
  | none =>
    have hnew : key a ∉ s.next.map key := fun hmem => by
      obtain ⟨i, hi⟩ := List.mem_iff_getElem?.1 hmem
      rw [(h _ i).2 hi] at hindex
      cases hindex
    refine ⟨fun k i => ?_, .inl ⟨fun b hb heq => hnew (heq ▸ List.mem_map_of_mem hb), rfl⟩⟩
    dsimp only
    rw [List.map_append, List.map_singleton, getElem?_concat_eq_some, ← h k i, List.length_map]
    by_cases hk : k = key a
    · subst hk
      rw [Function.update_self, Option.some.injEq, hindex, eq_comm]
      exact ⟨fun hi => .inr ⟨hi, rfl⟩, fun hi => (hi.resolve_left nofun).1⟩
    · rw [Function.update_of_ne hk]
      exact (or_iff_left fun hi => hk hi.2.symm).symm
  | some i =>
    have hi := (h _ i).1 hindex
    rw [List.getElem?_map] at hi
    obtain ⟨b, hb, hkey⟩ := Option.map_eq_some_iff.1 hi
    dsimp only
    rw [hb]
    obtain ⟨hlt, rfl⟩ := List.getElem?_eq_some_iff.1 hb
    refine ⟨fun k j => ?_, .inr ⟨s.next.take i, s.next[i], s.next.drop (i + 1), ?_, hkey, ?_⟩⟩
    · dsimp only
      rw [List.map_set, hjoin _ (List.getElem_mem hlt) hkey, ← hkey, ← List.getElem_map key (h := by rwa [List.length_map]), List.set_getElem_self, h k j]
    · rw [← List.drop_eq_getElem_cons, List.take_append_drop]
    · change s.next.set i (join s.next[i]) = _
      rw [List.set_eq_take_append_cons_drop, if_pos hlt]

omit [DecidableEq κ] in
/-- In the place of an element there is another, and the others have other keys. -/
theorem mem_replace {before behind : List α} {b c e : α} (h : ((before ++ b :: behind).map key).Nodup) :
    e ∈ before ++ c :: behind ↔ (e ∈ before ++ b :: behind ∧ key e ≠ key b) ∨ e = c := by
  rw [List.map_append, List.map_cons, List.nodup_middle, List.nodup_cons, List.mem_append, not_or] at h
  have hne : e ∈ before ∨ e ∈ behind → key e ≠ key b := by
    rintro (he | he) hkey
    · exact h.1.1 (hkey ▸ List.mem_map_of_mem he)
    · exact h.1.2 (hkey ▸ List.mem_map_of_mem he)
  rw [List.mem_append, List.mem_cons, List.mem_append, List.mem_cons]
  constructor
  · rintro (he | rfl | he)
    · exact .inl ⟨.inl he, hne (.inl he)⟩
    · exact .inr rfl
    · exact .inl ⟨.inr (.inr he), hne (.inr he)⟩
  · rintro (⟨he | rfl | he, hkey⟩ | rfl)
    · exact .inl he
    · exact absurd rfl hkey
    · exact .inr (.inr he)
    · exact .inr (.inl rfl)

end Slots
