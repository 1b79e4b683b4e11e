/-
Two texts with a separator between them, and taking them apart at its first occurrence.
-/
import Mathlib.Data.List.TakeWhile

namespace Joined

section Join

variable {α : Type} {sep : α} {a a' b b' : List α}

def join (sep : α) (a b : List α) : List α := a ++ sep :: b

/-- What begins with `a` and a separator: what `a` was joined to, and what a longer first part was joined to that begins so. -/
theorem prefix_join_iff (hb : sep ∉ b) : a ++ [sep] <+: join sep a' b ↔ a = a' ∨ a ++ [sep] <+: a' := by
  constructor
  · rintro ⟨rest, hrest⟩
    have hrest' : a ++ sep :: rest = a' ++ sep :: b := by simpa [join] using hrest
    rcases List.append_eq_append_iff.1 hrest' with ⟨mid, rfl, hmid⟩ | ⟨mid, rfl, hmid⟩
    · cases mid with
      | nil => exact .inl (List.append_nil a).symm
      | cons x mid =>
        obtain ⟨rfl, -⟩ := List.cons.inj hmid
        exact .inr ⟨mid, by simp⟩
    · cases mid with
      | nil => exact .inl (List.append_nil a')
      | cons x mid =>
        obtain ⟨-, rfl⟩ := List.cons.inj hmid
        exact absurd (by simp) hb
  · rintro (rfl | ⟨rest, rfl⟩)
    · exact ⟨b, by simp [join]⟩
    · exact ⟨rest ++ sep :: b, by simp [join]⟩

end Join

/-- What is put together has each piece in it. -/
theorem subset_intercalate {α : Type} {seg glue : List α} : ∀ {segs : List (List α)}, seg ∈ segs → seg ⊆ glue.intercalate segs
  | [only], h => by
    rw [List.intercalate_singleton, List.mem_singleton.1 h]
    exact List.Subset.refl only
  | first :: second :: rest, h => by
    rw [List.intercalate_cons_cons, List.append_assoc]
    rcases List.mem_cons.1 h with rfl | h
    · exact List.subset_append_left _ _
    · exact fun x hx => List.mem_append_right _ (List.mem_append_right _ (subset_intercalate h hx))

variable {α : Type} [DecidableEq α] {sep : α} {a a' b b' l : List α}

/-- No piece has a separator in it. -/
theorem not_mem_splitOn : ∀ {l : List α}, ∀ piece ∈ l.splitOn sep, sep ∉ piece
  | [], piece, hpiece => by
    rw [List.splitOn_nil, List.mem_singleton] at hpiece
    rw [hpiece]
    exact List.not_mem_nil
  | x :: rest, piece, hpiece => by
    rw [List.splitOn_cons_eq_if_modifyHead] at hpiece
    split at hpiece
    · rcases List.mem_cons.1 hpiece with rfl | hpiece
      · exact List.not_mem_nil
      · exact not_mem_splitOn piece hpiece
    · rename_i hx
      cases hrest : rest.splitOn sep with
      | nil => exact absurd hrest (List.splitOn_ne_nil sep rest)
      | cons first more =>
        have hpieces : ∀ piece ∈ first :: more, sep ∉ piece := fun piece hpiece => not_mem_splitOn piece (hrest.symm ▸ hpiece)
        rw [hrest, List.modifyHead_cons] at hpiece
        rcases List.mem_cons.1 hpiece with rfl | hpiece
        · rw [List.mem_cons, not_or]
          exact ⟨fun heq => hx (by simp [heq]), hpieces first List.mem_cons_self⟩
        · exact hpieces piece (List.mem_cons_of_mem _ hpiece)

/-- What is before the first separator and what is behind it. -/
def cut (sep : α) (l : List α) : Option (List α × List α) :=
  if sep ∈ l then some (l.takeWhile (· ≠ sep), (l.dropWhile (· ≠ sep)).tail) else none

theorem cut_eq_none : cut sep l = none ↔ sep ∉ l := by
  unfold cut
  split <;> simp_all

theorem takeWhile_join (h : sep ∉ a) : (join sep a b).takeWhile (· ≠ sep) = a := by
  unfold join
  have hbefore : ∀ x ∈ a, decide (x ≠ sep) = true := by
    rintro x hx
    exact decide_eq_true fun heq => h (heq ▸ hx)
  rw [List.takeWhile_append_of_pos hbefore]
  simp

theorem dropWhile_join (h : sep ∉ a) : (join sep a b).dropWhile (· ≠ sep) = sep :: b := by
  unfold join
  have hbefore : ∀ x ∈ a, decide (x ≠ sep) = true := by
    rintro x hx
    exact decide_eq_true fun heq => h (heq ▸ hx)
  rw [List.dropWhile_append_of_pos hbefore]
  simp

theorem cut_join (h : sep ∉ a) : cut sep (join sep a b) = some (a, b) := by
  unfold cut
  rw [if_pos (by simp [join]), takeWhile_join h, dropWhile_join h, List.tail_cons]

/-- What is cut goes together again, and its first part has no separator. -/
theorem join_cut (h : cut sep l = some (a, b)) : join sep a b = l ∧ sep ∉ a := by
  unfold cut at h
  split at h
  · rename_i hmem
    cases h
    refine ⟨?_, fun hin => absurd (List.mem_takeWhile_imp hin) (by simp)⟩
    have hne : l.dropWhile (· ≠ sep) ≠ [] := fun hnil =>
      absurd (List.dropWhile_eq_nil_iff.1 hnil sep hmem) (by simp)
    have hhead : (l.dropWhile (· ≠ sep)).head hne = sep := by
      simpa using List.head_dropWhile_not (fun x => decide (x ≠ sep)) hne
    have hrest : sep :: (l.dropWhile (· ≠ sep)).tail = l.dropWhile (· ≠ sep) := by
      have hcons := List.cons_head_tail hne
      rwa [hhead] at hcons
    rw [join, hrest, List.takeWhile_append_dropWhile]
  · cases h

end Joined
