/-
Strings of 16-bit code units, paired up or not, and the characters an encoder makes of them: what is half of
a pair becomes the replacement character.
-/
import Mathlib.Data.List.Basic

namespace Utf16

abbrev Units := List UInt16

def isHigh (u : UInt16) : Bool := 0xD800 ≤ u && u ≤ 0xDBFF

def isLow (u : UInt16) : Bool := 0xDC00 ≤ u && u ≤ 0xDFFF

def replacement : Char := '\uFFFD'

/-- The character of a unit that is part of no pair. -/
def single (u : UInt16) : Char := if isHigh u || isLow u then replacement else Char.ofNat u.toNat

def pair (u v : UInt16) : Char := Char.ofNat (0x10000 + (u.toNat - 0xD800) * 0x400 + (v.toNat - 0xDC00))

def decode : Units → List Char
  | [] => []
  | [u] => [single u]
  | u :: v :: rest => if isHigh u && isLow v then pair u v :: decode rest else single u :: decode (v :: rest)

attribute [local simp] decode

/-- A unit that is a character of ASCII. -/
def Ascii (u : UInt16) : Prop := u.toNat < 128

section Decode

variable {u v : UInt16} {a b : Units}

theorem isHigh_iff : isHigh u = true ↔ 0xD800 ≤ u.toNat ∧ u.toNat ≤ 0xDBFF := by
  simp only [isHigh, Bool.and_eq_true, decide_eq_true_eq, UInt16.le_iff_toNat_le]
  exact Iff.rfl

theorem isLow_iff : isLow u = true ↔ 0xDC00 ≤ u.toNat ∧ u.toNat ≤ 0xDFFF := by
  simp only [isLow, Bool.and_eq_true, decide_eq_true_eq, UInt16.le_iff_toNat_le]
  exact Iff.rfl

theorem Ascii.not_half (h : Ascii u) : isHigh u = false ∧ isLow u = false := by
  unfold Ascii at h
  constructor
  · rw [Bool.eq_false_iff, Ne, isHigh_iff]
    omega
  · rw [Bool.eq_false_iff, Ne, isLow_iff]
    omega

theorem toNat_ofNat {n : Nat} (h : n.isValidChar) : (Char.ofNat n).toNat = n := by
  rw [Char.ofNat, dif_pos h]
  rfl

/-- A pair is no character of the first plane. -/
theorem toNat_pair (hu : isHigh u = true) (hv : isLow v = true) : 0x10000 ≤ (pair u v).toNat := by
  rw [isHigh_iff] at hu
  rw [isLow_iff] at hv
  rw [pair, toNat_ofNat]
  · omega
  · refine .inr ⟨?_, ?_⟩ <;> omega

theorem toNat_single_of_not_half (hhigh : isHigh u = false) (hlow : isLow u = false) : (Utf16.single u).toNat = u.toNat := by
  rw [Utf16.single, hhigh, hlow]
  refine toNat_ofNat ?_
  rw [Bool.eq_false_iff, Ne, isHigh_iff] at hhigh
  rw [Bool.eq_false_iff, Ne, isLow_iff] at hlow
  have := u.toNat_lt
  refine (Nat.lt_or_ge u.toNat 0xD800).imp id fun hle => ⟨?_, ?_⟩ <;> omega

/-- Only the unit of an ASCII character is decoded to it. -/
theorem single_eq_iff (h : Ascii v) : Utf16.single u = Utf16.single v ↔ u = v := by
  refine ⟨fun heq => ?_, fun heq => heq ▸ rfl⟩
  have hv : (Utf16.single v).toNat = v.toNat := toNat_single_of_not_half h.not_half.1 h.not_half.2
  by_cases hhalf : isHigh u = true ∨ isLow u = true
  · have hreplaced : Utf16.single u = replacement := if_pos (by simpa using hhalf)
    rw [← heq, hreplaced] at hv
    have hlt : v.toNat < 128 := h
    rw [← hv] at hlt
    exact absurd hlt (by decide)
  · simp only [not_or, Bool.not_eq_true] at hhalf
    rw [← heq, toNat_single_of_not_half hhalf.1 hhalf.2] at hv
    exact UInt16.toNat_inj.1 hv

theorem pair_ne_single (hu : isHigh u = true) (hv : isLow v = true) {w : UInt16} (h : Ascii w) : pair u v ≠ Utf16.single w := by
  intro heq
  have hpair := toNat_pair hu hv
  rw [heq, toNat_single_of_not_half h.not_half.1 h.not_half.2] at hpair
  have hlt : w.toNat < 128 := h
  omega

theorem decode_cons_of_not_high (h : isHigh u = false) : decode (u :: a) = Utf16.single u :: decode a := by
  cases a with
  | nil => rfl
  | cons v rest => rw [decode, h, Bool.false_and, if_neg (by decide)]

@[simp] theorem decode_eq_nil : decode a = [] ↔ a = [] := by
  cases a with
  | nil => exact iff_of_true rfl rfl
  | cons u rest =>
    refine iff_of_false ?_ (List.cons_ne_nil _ _)
    cases rest with
    | nil => exact List.cons_ne_nil _ _
    | cons v rest =>
      rw [decode]
      split <;> exact List.cons_ne_nil _ _

/-- Text is decoded piece by piece around a character of ASCII. -/
theorem decode_append (h : Ascii v) : ∀ {a : Units}, decode (a ++ v :: b) = decode a ++ Utf16.single v :: decode b
  | [] => decode_cons_of_not_high h.not_half.1
  | [u] => by
    have hnot : (isHigh u && isLow v) = false := by rw [h.not_half.2, Bool.and_false]
    show decode (u :: v :: b) = Utf16.single u :: Utf16.single v :: decode b
    rw [decode, hnot, if_neg (by decide), decode_cons_of_not_high h.not_half.1]
  | u :: w :: rest => by
    rw [List.cons_append, List.cons_append, decode, decode]
    split
    · rw [decode_append h, List.cons_append]
    · exact congrArg (Utf16.single u :: ·) (decode_append h (a := w :: rest))

theorem mem_decode (h : Ascii v) : ∀ {a : Units}, Utf16.single v ∈ decode a ↔ v ∈ a
  | [] => by simp [decode]
  | [u] => by
    rw [decode, List.mem_singleton, List.mem_singleton, eq_comm, single_eq_iff h, eq_comm]
  | u :: w :: rest => by
    rw [decode]
    split
    · rename_i hpair
      obtain ⟨hhigh, hlow⟩ := Bool.and_eq_true_iff.1 hpair
      rw [List.mem_cons, mem_decode h, List.mem_cons, List.mem_cons]
      have hu : v ≠ u := fun heq => by
        rw [← heq, h.not_half.1] at hhigh
        cases hhigh
      have hw : v ≠ w := fun heq => by
        rw [← heq, h.not_half.2] at hlow
        cases hlow
      simp [hu, hw, (pair_ne_single hhigh hlow h).symm]
    · rw [List.mem_cons, mem_decode h, List.mem_cons, eq_comm, single_eq_iff h, eq_comm]
      rw [List.mem_cons, List.mem_cons]

/-- Nothing but a text of ASCII characters is decoded to it. -/
theorem decode_eq_map (h : ∀ u ∈ b, Ascii u) : decode a = b.map Utf16.single ↔ a = b := by
  induction b generalizing a with
  | nil => exact decode_eq_nil
  | cons v rest ih =>
    obtain ⟨hv, hrest⟩ := List.forall_mem_cons.1 h
    constructor
    · intro heq
      cases a with
      | nil => cases heq
      | cons u a =>
        by_cases hhigh : isHigh u = true
        · -- half of a pair is decoded to nothing of ASCII, whatever follows
          exfalso
          have hne : u ≠ v := fun huv => by
            rw [huv, hv.not_half.1] at hhigh
            cases hhigh
          cases a with
          | nil => exact hne ((single_eq_iff hv).1 (List.cons.inj heq).1)
          | cons w a =>
            rw [decode] at heq
            split at heq
            · rename_i hpair
              exact pair_ne_single hhigh (Bool.and_eq_true_iff.1 hpair).2 hv (List.cons.inj heq).1
            · exact hne ((single_eq_iff hv).1 (List.cons.inj heq).1)
        · rw [decode_cons_of_not_high (Bool.eq_false_iff.2 hhigh)] at heq
          obtain ⟨hhead, htail⟩ := List.cons.inj heq
          rw [(single_eq_iff hv).1 hhead, (ih hrest).1 htail]
    · rintro rfl
      rw [decode_cons_of_not_high hv.not_half.1, (ih hrest).2 rfl, List.map_cons]

theorem decode_intercalate (h : Ascii v) : ∀ {segs : List Units},
    decode ([v].intercalate segs) = [Utf16.single v].intercalate (segs.map decode)
  | [] => rfl
  | [seg] => by rw [List.intercalate_singleton, List.map_cons, List.map_nil, List.intercalate_singleton]
  | seg :: seg' :: rest => by
    have ih : decode ([v].intercalate (seg' :: rest)) = [Utf16.single v].intercalate ((seg' :: rest).map decode) := decode_intercalate h
    rw [List.map_cons] at ih
    rw [List.intercalate_cons_cons, List.map_cons, List.map_cons, List.intercalate_cons_cons, ← ih, List.append_assoc,
      List.singleton_append, decode_append h, List.append_assoc, List.singleton_append]

end Decode

end Utf16
