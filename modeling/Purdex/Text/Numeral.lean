/-
Numerals to a base up to 36: a number written with digits and lower case letters, with zeros in front up to a width, and read back.
-/
import Mathlib.Data.Nat.Digits.Lemmas
import Mathlib.Data.List.Basic

namespace Numeral

/-! ## Digits -/

def digitChar (d : Nat) : Char := Char.ofNat (if d < 10 then 48 + d else 87 + d)

/-- The value of a digit, in either case. -/
def digitVal (c : Char) : Option Nat :=
  if '0' ≤ c ∧ c ≤ '9' then some (c.toNat - 48)
  else if 'a' ≤ c ∧ c ≤ 'z' then some (c.toNat - 87)
  else if 'A' ≤ c ∧ c ≤ 'Z' then some (c.toNat - 55)
  else none

/-- A digit to the base as it is written. -/
def IsDigit (b : Nat) (c : Char) : Prop := ∃ d < b, c = digitChar d

theorem digitVal_digitChar {d : Nat} (h : d < 36) : digitVal (digitChar d) = some d := by
  have hall : ∀ d < 36, digitVal (digitChar d) = some d := by decide
  exact hall d h

/-! ## Numbers -/

def value (b : Nat) (digits : List Nat) : Nat := digits.foldl (fun n d => n * b + d) 0

def format (b n : Nat) : List Char := if n = 0 then ['0'] else (Nat.digits b n).reverse.map digitChar

/-- Digits to the base, and at least one of them. -/
def parse (b : Nat) (cs : List Char) : Option Nat :=
  if cs = [] then none
  else (cs.mapM fun c => (digitVal c).filter (· < b)).map (value b)

variable {b : Nat}

theorem value_eq (b : Nat) (digits : List Nat) : value b digits = Nat.ofDigits b digits.reverse := by
  have hfold : ∀ n, digits.foldl (fun n d => n * b + d) n = n * b ^ digits.length + Nat.ofDigits b digits.reverse := by
    induction digits with
    | nil => intro n; simp
    | cons d digits ih =>
      intro n
      rw [List.foldl_cons, ih, List.reverse_cons, Nat.ofDigits_append, Nat.ofDigits_singleton, List.length_reverse, List.length_cons]
      ring
  rw [value, hfold 0, Nat.zero_mul, Nat.zero_add]

theorem value_cons (b d : Nat) (digits : List Nat) : value b (d :: digits) = d * b ^ digits.length + value b digits := by
  rw [value_eq, value_eq, List.reverse_cons, Nat.ofDigits_append, Nat.ofDigits_singleton, List.length_reverse, Nat.add_comm, Nat.mul_comm]

/-- The digits that are told apart one by one. -/
theorem value_digitsAt (b width n : Nat) : value b ((List.range width).reverse.map fun i => n / b ^ i % b) = n % b ^ width := by
  induction width with
  | zero => simp [value, Nat.mod_one]
  | succ width ih =>
    rw [List.range_succ, List.reverse_append, List.reverse_singleton, List.singleton_append, List.map_cons, value_cons, ih, List.length_map,
      List.length_reverse, List.length_range, Nat.mod_pow_succ, Nat.add_comm, Nat.mul_comm]

theorem mapM_digits {digits : List Nat} (hb : b ≤ 36) (h : ∀ d ∈ digits, d < b) :
    (digits.map digitChar).mapM (fun c => (digitVal c).filter (· < b)) = some digits := by
  induction digits with
  | nil => rfl
  | cons d digits ih =>
    obtain ⟨hd, hdigits⟩ := List.forall_mem_cons.1 h
    rw [List.map_cons, List.mapM_cons, digitVal_digitChar (hd.trans_le hb), Option.filter_some, if_pos (by simpa using hd), ih hdigits]
    rfl

theorem parse_digits {digits : List Nat} (hb : b ≤ 36) (hne : digits ≠ []) (h : ∀ d ∈ digits, d < b) :
    parse b (digits.map digitChar) = some (value b digits) := by
  rw [parse, if_neg (by simpa using hne), mapM_digits hb h]
  rfl

/-- What is written is digits. -/
theorem format_eq (hb : 1 < b) (n : Nat) : ∃ digits, digits ≠ [] ∧ (∀ d ∈ digits, d < b) ∧ format b n = digits.map digitChar ∧
    value b digits = n := by
  by_cases hn : n = 0
  · subst hn
    exact ⟨[0], by simp, by simp; omega, rfl, by simp [value]⟩
  · refine ⟨(Nat.digits b n).reverse, ?_, fun d hd => Nat.digits_lt_base hb (List.mem_reverse.1 hd), if_neg hn, ?_⟩
    · simpa using Nat.digits_ne_nil_iff_ne_zero.2 hn
    · rw [value_eq, List.reverse_reverse, Nat.ofDigits_digits]

theorem parse_format (hb : 1 < b) (hb' : b ≤ 36) (n : Nat) : parse b (format b n) = some n := by
  obtain ⟨digits, hne, hlt, hformat, hvalue⟩ := format_eq hb n
  rw [hformat, parse_digits hb' hne hlt, hvalue]

/-! ## Widths -/

theorem value_replicate (b k : Nat) (digits : List Nat) : value b (List.replicate k 0 ++ digits) = value b digits := by
  rw [value_eq, value_eq, List.reverse_append, Nat.ofDigits_append, List.reverse_replicate, Nat.ofDigits_replicate_zero, Nat.mul_zero,
    Nat.add_zero]

/-- Zeros in front, up to the width. -/
def padded (b width n : Nat) : List Char := (format b n).leftpad width '0'

theorem length_format_le (hb : 1 < b) {width n : Nat} (hpos : 0 < width) (h : n < b ^ width) : (format b n).length ≤ width := by
  unfold format
  split
  · exact hpos
  · rw [List.length_map, List.length_reverse]
    exact (Nat.digits_length_le_iff hb n).2 h

theorem padded_eq (hb : 1 < b) {width n : Nat} (hpos : 0 < width) (h : n < b ^ width) :
    ∃ digits, digits.length = width ∧ (∀ d ∈ digits, d < b) ∧ padded b width n = digits.map digitChar ∧ value b digits = n := by
  obtain ⟨digits, -, hlt, hformat, hvalue⟩ := format_eq hb n
  have hlen := length_format_le hb hpos h
  rw [hformat, List.length_map] at hlen
  refine ⟨List.replicate (width - digits.length) 0 ++ digits, ?_, fun d hd => ?_, ?_, ?_⟩
  · rw [List.length_append, List.length_replicate]
    omega
  · rcases List.mem_append.1 hd with hd | hd
    · rw [List.eq_of_mem_replicate hd]
      omega
    · exact hlt d hd
  · rw [padded, List.leftpad, hformat, List.length_map, List.map_append, List.map_replicate]
    rfl
  · rw [value_replicate, hvalue]

theorem value_lt (hb : 1 < b) {digits : List Nat} (h : ∀ d ∈ digits, d < b) : value b digits < b ^ digits.length := by
  rw [value_eq, ← List.length_reverse]
  exact Nat.ofDigits_lt_base_pow_length hb fun d hd => h d (List.mem_reverse.1 hd)

/-- As many digits with the same value are the same. -/
theorem value_inj (hb : 1 < b) {as bs : List Nat} (hlen : as.length = bs.length) (has : ∀ d ∈ as, d < b) (hbs : ∀ d ∈ bs, d < b)
    (h : value b as = value b bs) : as = bs := by
  rw [value_eq, value_eq] at h
  have hrev := Nat.ofDigits_inj_of_len_eq hb (by simpa using hlen) (fun d hd => has d (List.mem_reverse.1 hd))
    (fun d hd => hbs d (List.mem_reverse.1 hd)) h
  exact List.reverse_inj.1 hrev

/-- Digits are what their value is written as, to their number. -/
theorem padded_value (hb : 1 < b) {digits : List Nat} (hne : digits ≠ []) (h : ∀ d ∈ digits, d < b) :
    padded b digits.length (value b digits) = digits.map digitChar := by
  obtain ⟨ds, hlen, hlt, hpadded, hvalue⟩ := padded_eq hb (List.length_pos_iff.2 hne) (value_lt hb h)
  rw [hpadded, value_inj hb hlen hlt h hvalue]

theorem parse_padded (hb : 1 < b) (hb' : b ≤ 36) {width n : Nat} (hpos : 0 < width) (h : n < b ^ width) :
    parse b (padded b width n) = some n := by
  obtain ⟨digits, hlen, hlt, hpadded, hvalue⟩ := padded_eq hb hpos h
  have hne : digits ≠ [] := by
    rintro rfl
    exact absurd hlen (Nat.ne_of_lt hpos)
  rw [hpadded, parse_digits hb' hne hlt, hvalue]

/-- A text of digits comes from a list of them. -/
theorem exists_digits {cs : List Char} (h : ∀ c ∈ cs, IsDigit b c) : ∃ digits : List Nat, (∀ d ∈ digits, d < b) ∧ cs = digits.map digitChar := by
  induction cs with
  | nil => exact ⟨[], nofun, rfl⟩
  | cons c cs ih =>
    obtain ⟨⟨d, hd, rfl⟩, hcs⟩ := List.forall_mem_cons.1 h
    obtain ⟨digits, hdigits, rfl⟩ := ih hcs
    exact ⟨d :: digits, List.forall_mem_cons.2 ⟨hd, hdigits⟩, rfl⟩

end Numeral
