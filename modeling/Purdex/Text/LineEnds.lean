/-
Texts whose lines end in a line feed, alone or behind a carriage return: the one made into the other, and what stands between the
line ends at the two ends of a text.
-/
import Mathlib.Data.List.DropRight

namespace LineEnds

variable {l s : List Char}

/-! ## Carriage returns -/

def hasCrlf : List Char → Bool
  | '\r' :: '\n' :: _ => true
  | _ :: l => hasCrlf l
  | [] => false

def toLf : List Char → List Char
  | '\r' :: '\n' :: l => '\n' :: toLf l
  | c :: l => c :: toLf l
  | [] => []

def dropCrlf : List Char → List Char
  | '\r' :: '\n' :: l => dropCrlf l
  | c :: l => c :: dropCrlf l
  | [] => []

def toCrlf (l : List Char) : List Char := l.flatMap fun c => if c = '\n' then ['\r', '\n'] else [c]

theorem toCrlf_cons_newline (l : List Char) : toCrlf ('\n' :: l) = '\r' :: '\n' :: toCrlf l := rfl

theorem toCrlf_cons {c : Char} (h : c ≠ '\n') (l : List Char) : toCrlf (c :: l) = c :: toCrlf l := by
  rw [toCrlf, List.flatMap_cons, if_neg h]
  rfl

theorem toCrlf_append (l s : List Char) : toCrlf (l ++ s) = toCrlf l ++ toCrlf s := List.flatMap_append

/-- No text with its ends made into two characters begins with a line feed. -/
theorem head_toCrlf (l : List Char) : (toCrlf l).head? ≠ some '\n' := by
  cases l with
  | nil => nofun
  | cons c l =>
    by_cases hc : c = '\n'
    · subst hc
      rw [toCrlf_cons_newline]
      exact fun h => absurd (Option.some.inj h) (by decide)
    · rw [toCrlf_cons hc]
      exact fun h => hc (Option.some.inj h)

/-- The character is the first of a line end of two. -/
def Ends (c : Char) (l : List Char) : Prop := c = '\r' ∧ l.head? = some '\n'

theorem not_ends_of_head {c : Char} (h : l.head? ≠ some '\n') : ¬Ends c l := fun hends => h hends.2

theorem not_ends_of_ne {c : Char} (h : c ≠ '\r') (l : List Char) : ¬Ends c l := fun hends => h hends.1

theorem not_ends_append {c : Char} (hs : s.head? ≠ some '\n') (h : ¬Ends c l) : ¬Ends c (l ++ s) := by
  cases l with
  | nil => exact not_ends_of_head hs
  | cons d l => exact h

/-- The line ends of two characters one by one, and the characters between them. -/
theorem induction_ends {motive : List Char → Prop} (nil : motive []) (crlf : ∀ l, motive l → motive ('\r' :: '\n' :: l))
    (cons : ∀ c l, ¬Ends c l → motive l → motive (c :: l)) : ∀ l, motive l
  | [] => nil
  | [c] => cons c [] (not_ends_of_head nofun) nil
  | c :: d :: l => by
    have hrest := induction_ends nil crlf cons (d :: l)
    by_cases h : Ends c (d :: l)
    · obtain ⟨rfl, hd⟩ := h
      obtain rfl : d = '\n' := Option.some.inj hd
      exact crlf l (induction_ends nil crlf cons l)
    · exact cons c (d :: l) h hrest

theorem toLf_crlf (l : List Char) : toLf ('\r' :: '\n' :: l) = '\n' :: toLf l := rfl

theorem toLf_cons {c : Char} (h : ¬Ends c l) : toLf (c :: l) = c :: toLf l := by
  rw [toLf]
  rintro l' rfl rfl
  exact h ⟨rfl, rfl⟩

theorem hasCrlf_cons {c : Char} (h : ¬Ends c l) : hasCrlf (c :: l) = hasCrlf l := by
  rw [hasCrlf]
  rintro l' rfl rfl
  exact h ⟨rfl, rfl⟩

theorem dropCrlf_cons {c : Char} (h : ¬Ends c l) : dropCrlf (c :: l) = c :: dropCrlf l := by
  rw [dropCrlf]
  rintro l' rfl rfl
  exact h ⟨rfl, rfl⟩

/-- Nothing stands before what was made into two characters that was not there. -/
theorem toLf_toCrlf (l : List Char) : toLf (toCrlf l) = l := by
  induction l with
  | nil => rfl
  | cons c l ih =>
    by_cases hc : c = '\n'
    · subst hc
      rw [toCrlf_cons_newline, toLf_crlf, ih]
    · rw [toCrlf_cons hc, toLf_cons (not_ends_of_head (head_toCrlf l)), ih]

theorem toLf_append (h : s.head? ≠ some '\n') : toLf (l ++ s) = toLf l ++ toLf s := by
  induction l using induction_ends with
  | nil => rfl
  | crlf l ih => rw [List.cons_append, List.cons_append, toLf_crlf, toLf_crlf, ih, List.cons_append]
  | cons c l hne ih => rw [List.cons_append, toLf_cons (not_ends_append h hne), toLf_cons hne, ih, List.cons_append]

theorem toLf_replicate_append (n : Nat) (s : List Char) : toLf (toCrlf (List.replicate n '\n') ++ s) = List.replicate n '\n' ++ toLf s := by
  induction n with
  | zero => rfl
  | succ n ih =>
    rw [List.replicate_succ, toCrlf_cons_newline, List.cons_append, List.cons_append, List.cons_append, ← ih]
    rfl

theorem toLf_of_not_hasCrlf (h : hasCrlf l = false) : toLf l = l := by
  induction l using induction_ends with
  | nil => rfl
  | crlf l ih => cases h
  | cons c l hne ih => rw [toLf_cons hne, ih (hasCrlf_cons hne ▸ h)]

/-- Every line end has its carriage return, where nothing but these have a line feed. -/
theorem toCrlf_toLf (h : '\n' ∉ dropCrlf l) : toCrlf (toLf l) = l := by
  induction l using induction_ends with
  | nil => rfl
  | crlf l ih => rw [toLf_crlf, toCrlf_cons_newline, ih h]
  | cons c l hne ih =>
    rw [dropCrlf_cons hne, List.mem_cons, not_or] at h
    rw [toLf_cons hne, toCrlf_cons (Ne.symm h.1), ih h.2]

theorem count_toLf_le (l : List Char) : (toLf l).count '\r' ≤ l.count '\r' := by
  induction l using induction_ends with
  | nil => exact Nat.le_refl _
  | crlf l ih =>
    rw [toLf_crlf, List.count_cons_of_ne (by decide), List.count_cons_self, List.count_cons_of_ne (by decide)]
    exact Nat.le_succ_of_le ih
  | cons c l hne ih =>
    rw [toLf_cons hne, List.count_cons, List.count_cons]
    exact Nat.add_le_add_right ih _

theorem count_toLf_lt (h : hasCrlf l = true) : (toLf l).count '\r' < l.count '\r' := by
  induction l using induction_ends with
  | nil => cases h
  | crlf l ih =>
    rw [toLf_crlf, List.count_cons_of_ne (by decide), List.count_cons_self, List.count_cons_of_ne (by decide)]
    exact Nat.lt_succ_of_le (count_toLf_le l)
  | cons c l hne ih =>
    rw [toLf_cons hne, List.count_cons, List.count_cons]
    exact Nat.add_lt_add_right (ih (hasCrlf_cons hne ▸ h)) _

theorem hasCrlf_toCrlf (l : List Char) : hasCrlf (toCrlf l) = true ↔ '\n' ∈ l := by
  induction l with
  | nil => exact ⟨nofun, fun h => absurd h List.not_mem_nil⟩
  | cons c l ih =>
    by_cases hc : c = '\n'
    · subst hc
      rw [toCrlf_cons_newline]
      exact ⟨fun _ => List.mem_cons_self, fun _ => rfl⟩
    · rw [toCrlf_cons hc, hasCrlf_cons (not_ends_of_head (head_toCrlf l)), ih, List.mem_cons, or_iff_right (Ne.symm hc)]

theorem hasCrlf_append_of_left (h : hasCrlf (l ++ s) = false) : hasCrlf l = false := by
  induction l using induction_ends with
  | nil => rfl
  | crlf l ih => cases h
  | cons c l hne ih =>
    cases l with
    | nil => exact hasCrlf_cons hne
    | cons d l =>
      rw [List.cons_append, hasCrlf_cons (show ¬Ends c (d :: l ++ s) from hne)] at h
      rw [hasCrlf_cons hne, ih h]

theorem hasCrlf_append_of_right (h : hasCrlf (l ++ s) = false) : hasCrlf s = false := by
  induction l with
  | nil => exact h
  | cons c l ih =>
    refine ih ?_
    by_cases hc : Ends c (l ++ s)
    · obtain ⟨rfl, hhead⟩ := hc
      obtain ⟨rest, hrest⟩ := List.head?_eq_some_iff.1 hhead
      rw [List.cons_append, hrest] at h
      cases h
    · rwa [List.cons_append, hasCrlf_cons hc] at h

theorem hasCrlf_replicate_append (n : Nat) (l : List Char) : hasCrlf (List.replicate n '\n' ++ l) = hasCrlf l := by
  induction n with
  | zero => rfl
  | succ n ih => rw [List.replicate_succ, List.cons_append, hasCrlf_cons (not_ends_of_ne (by decide) _), ih]

/-! ## Line ends at the two ends -/

/-- Without the line feeds at the beginning and at the end. -/
def strip (l : List Char) : List Char := (l.dropWhile (· = '\n')).rdropWhile (· = '\n')

/-- What begins and ends with something else. -/
structure Bare (l : List Char) : Prop where
  head : l.head? ≠ some '\n'
  last : l.getLast? ≠ some '\n'

theorem eq_replicate_of_all (h : ∀ c ∈ l, c = '\n') : l = List.replicate l.length '\n' := List.eq_replicate_iff.2 ⟨rfl, h⟩

theorem dropWhile_eq (l : List Char) : ∃ n, l = List.replicate n '\n' ++ l.dropWhile (· = '\n') := by
  refine ⟨(l.takeWhile (· = '\n')).length, ?_⟩
  rw [← eq_replicate_of_all fun c hc => by simpa using List.mem_takeWhile_imp hc, List.takeWhile_append_dropWhile]

theorem rdropWhile_eq (l : List Char) : ∃ n, l = l.rdropWhile (· = '\n') ++ List.replicate n '\n' := by
  refine ⟨(l.rtakeWhile (· = '\n')).length, ?_⟩
  rw [← eq_replicate_of_all fun c hc => by simpa using List.mem_rtakeWhile_imp hc, List.rdropWhile_append_rtakeWhile]

theorem strip_eq (l : List Char) : ∃ a b, l = List.replicate a '\n' ++ strip l ++ List.replicate b '\n' := by
  obtain ⟨a, ha⟩ := dropWhile_eq l
  obtain ⟨b, hb⟩ := rdropWhile_eq (l.dropWhile (· = '\n'))
  refine ⟨a, b, ?_⟩
  rw [List.append_assoc, strip, ← hb, ← ha]

theorem bare_strip (l : List Char) : Bare (strip l) := by
  constructor
  · intro h
    have hprefix : strip l <+: l.dropWhile (· = '\n') := List.rdropWhile_prefix _ _
    obtain ⟨rest, hrest⟩ := List.head?_eq_some_iff.1 h
    obtain ⟨more, hmore⟩ := hprefix
    rw [hrest] at hmore
    have hhead := List.head?_dropWhile_not (· = '\n') l
    rw [← hmore] at hhead
    exact absurd hhead (by simp)
  · intro h
    have hne : strip l ≠ [] := by
      rintro hnil
      rw [hnil] at h
      cases h
    have hlast := List.rdropWhile_last_not (· = '\n') (l.dropWhile (· = '\n')) hne
    rw [List.getLast?_eq_getLast_of_ne_nil hne, Option.some.injEq] at h
    exact hlast (by simpa [strip] using h)

theorem dropWhile_replicate_append (n : Nat) (h : l.head? ≠ some '\n') : (List.replicate n '\n' ++ l).dropWhile (· = '\n') = l := by
  induction n with
  | zero =>
    cases l with
    | nil => rfl
    | cons c l => exact List.dropWhile_cons_of_neg (by simpa using h)
  | succ n ih => rw [List.replicate_succ, List.cons_append, List.dropWhile_cons_of_pos (by decide), ih]

theorem rdropWhile_append_replicate (n : Nat) (h : l.getLast? ≠ some '\n') : (l ++ List.replicate n '\n').rdropWhile (· = '\n') = l := by
  rw [List.rdropWhile, List.reverse_append, List.reverse_replicate, dropWhile_replicate_append n (by rwa [List.head?_reverse]), List.reverse_reverse]

theorem strip_replicate (n : Nat) : strip (List.replicate n '\n') = [] := by
  have h := dropWhile_replicate_append (l := []) n nofun
  rw [List.append_nil] at h
  rw [strip, h]
  rfl

theorem strip_of_bare (h : Bare l) (a b : Nat) : strip (List.replicate a '\n' ++ l ++ List.replicate b '\n') = l := by
  cases l with
  | nil => rw [List.append_nil, List.replicate_append_replicate, strip_replicate]
  | cons c l =>
    rw [strip, List.append_assoc, dropWhile_replicate_append a (by exact h.head), rdropWhile_append_replicate b h.last]

theorem strip_append_replicate (a b : Nat) (l : List Char) : strip (List.replicate a '\n' ++ l ++ List.replicate b '\n') = strip l := by
  obtain ⟨a', b', hl⟩ := strip_eq l
  have hassoc : List.replicate a '\n' ++ l ++ List.replicate b '\n' = List.replicate (a + a') '\n' ++ strip l ++ List.replicate (b' + b) '\n' := by
    conv_lhs => rw [hl]
    rw [← List.replicate_append_replicate, ← List.replicate_append_replicate]
    simp only [List.append_assoc]
  rw [hassoc, strip_of_bare (bare_strip l)]

theorem count_strip (l : List Char) : (strip l).count '\r' = l.count '\r' := by
  obtain ⟨a, b, hl⟩ := strip_eq l
  conv_rhs => rw [hl]
  have hnone : ∀ n, (List.replicate n '\n').count '\r' = 0 := fun n => List.count_eq_zero.2 fun h => absurd (List.eq_of_mem_replicate h) (by decide)
  rw [List.count_append, List.count_append, hnone, hnone, Nat.zero_add, Nat.add_zero]

end LineEnds
