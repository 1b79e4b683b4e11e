/-
The lines of a list, each with the separator that ends it: what is a part of the list is within one of them unless it goes over an end.
-/
import Mathlib.Data.List.Infix

namespace Lines

variable {α : Type} [DecidableEq α] {sep : α}

/-! ## Lines -/

/-- The last line may have no end. -/
def splitLines (sep : α) : List α → List (List α)
  | [] => []
  | a :: l =>
    if a = sep then [a] :: splitLines sep l
    else match splitLines sep l with
      | [] => [[a]]
      | line :: rest => (a :: line) :: rest

theorem splitLines_cons_sep (l : List α) : splitLines sep (sep :: l) = [sep] :: splitLines sep l := by
  rw [splitLines, if_pos rfl]

theorem splitLines_cons {a : α} (h : a ≠ sep) (l : List α) : splitLines sep (a :: l) = match splitLines sep l with
    | [] => [[a]]
    | line :: rest => (a :: line) :: rest := by
  rw [splitLines, if_neg h]

theorem flatten_splitLines (l : List α) : (splitLines sep l).flatten = l := by
  induction l with
  | nil => rfl
  | cons a l ih =>
    by_cases ha : a = sep
    · subst ha
      rw [splitLines_cons_sep, List.flatten_cons, ih]
      rfl
    · rw [splitLines_cons ha]
      cases hl : splitLines sep l with
      | nil =>
        rw [hl] at ih
        rw [← ih]
        rfl
      | cons line rest =>
        rw [hl] at ih
        rw [← ih]
        rfl

/-- A line has its separator at the end only. -/
theorem mem_splitLines {l line : List α} (h : line ∈ splitLines sep l) : line ≠ [] ∧ sep ∉ line.dropLast := by
  induction l generalizing line with
  | nil => cases h
  | cons a l ih =>
    by_cases ha : a = sep
    · subst ha
      rw [splitLines_cons_sep, List.mem_cons] at h
      rcases h with rfl | h
      · exact ⟨List.cons_ne_nil _ _, List.not_mem_nil⟩
      · exact ih h
    · rw [splitLines_cons ha] at h
      cases hl : splitLines sep l with
      | nil =>
        rw [hl] at h
        rw [List.mem_singleton.1 h]
        exact ⟨List.cons_ne_nil _ _, List.not_mem_nil⟩
      | cons first rest =>
        rw [hl, List.mem_cons] at h
        rcases h with rfl | h
        · obtain ⟨hne, hsep⟩ := ih (hl ▸ List.mem_cons_self)
          refine ⟨List.cons_ne_nil _ _, ?_⟩
          rw [List.dropLast_cons_of_ne_nil hne, List.mem_cons, not_or]
          exact ⟨Ne.symm ha, hsep⟩
        · exact ih (hl ▸ List.mem_cons_of_mem _ h)

/-- A stretch without a separator but at its end is part of the line that it begins in. -/
theorem prefix_line {l part : List α} (h : part <+: l) (hne : part ≠ []) (hsep : sep ∉ part.dropLast) :
    ∃ line rest, splitLines sep l = line :: rest ∧ part <+: line := by
  induction l generalizing part with
  | nil => exact absurd (List.prefix_nil.1 h) hne
  | cons a l ih =>
    obtain ⟨part, rfl, hpart⟩ : ∃ tail, part = a :: tail ∧ tail <+: l := by
      cases part with
      | nil => exact absurd rfl hne
      | cons b tail =>
        obtain ⟨rfl, htail⟩ := List.cons_prefix_cons.1 h
        exact ⟨tail, rfl, htail⟩
    by_cases htail : part = []
    · subst htail
      by_cases ha : a = sep
      · subst ha
        exact ⟨_, _, splitLines_cons_sep l, List.prefix_refl _⟩
      · rw [splitLines_cons ha]
        cases splitLines sep l with
        | nil => exact ⟨_, _, rfl, List.prefix_refl _⟩
        | cons line rest => exact ⟨_, _, rfl, List.prefix_append [a] line⟩
    · rw [List.dropLast_cons_of_ne_nil htail, List.mem_cons, not_or] at hsep
      obtain ⟨line, rest, hl, hprefix⟩ := ih hpart htail hsep.2
      rw [splitLines_cons (Ne.symm hsep.1), hl]
      exact ⟨_, _, rfl, List.cons_prefix_cons.2 ⟨rfl, hprefix⟩⟩

theorem infix_line {l part : List α} (h : part <:+: l) (hne : part ≠ []) (hsep : sep ∉ part.dropLast) :
    ∃ line ∈ splitLines sep l, part <:+: line := by
  induction l with
  | nil => exact absurd (List.infix_nil.1 h) hne
  | cons a l ih =>
    rcases List.infix_cons_iff.1 h with hprefix | hwithin
    · obtain ⟨line, rest, hl, hpart⟩ := prefix_line hprefix hne hsep
      exact ⟨line, hl ▸ List.mem_cons_self, hpart.isInfix⟩
    · obtain ⟨line, hline, hpart⟩ := ih hwithin
      by_cases ha : a = sep
      · subst ha
        exact ⟨line, splitLines_cons_sep l ▸ List.mem_cons_of_mem _ hline, hpart⟩
      · rw [splitLines_cons ha]
        cases hl : splitLines sep l with
        | nil => rw [hl] at hline; cases hline
        | cons first rest =>
          rw [hl, List.mem_cons] at hline
          rcases hline with rfl | hline
          · exact ⟨a :: line, List.mem_cons_self, List.infix_cons hpart⟩
          · exact ⟨line, List.mem_cons_of_mem _ hline, hpart⟩

/-- The lines of a part of a list are parts of its lines. -/
theorem line_of_infix {l part line : List α} (h : part <:+: l) (hline : line ∈ splitLines sep part) : ∃ line' ∈ splitLines sep l, line <:+: line' := by
  obtain ⟨hne, hsep⟩ := mem_splitLines hline
  have hwithin : line <:+: part := by
    conv_rhs => rw [← @flatten_splitLines α _ sep part]
    exact List.infix_of_mem_flatten hline
  exact infix_line (hwithin.trans h) hne hsep

/-! ## The lines at the end -/

/-- The complete lines within the last `size` elements. -/
def keepTail (size : Nat) : List (List α) → List (List α)
  | [] => []
  | line :: rest => if (line :: rest).flatten.length ≤ size then line :: rest else keepTail size rest

omit [DecidableEq α] in
theorem keepTail_of_le {size : Nat} {lines : List (List α)} (h : lines.flatten.length ≤ size) : keepTail size lines = lines := by
  cases lines with
  | nil => rfl
  | cons line rest => exact if_pos h

end Lines
