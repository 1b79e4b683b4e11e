/-
Base 58: bytes as the number they are, in the digits of an alphabet without the letters that look alike, and numbers of thirteen digits
that are nine bytes.
-/
import Purdex.Text.Numeral

namespace Purdex.Pairing

/-! ## The alphabet -/

def base58Alphabet : List Char := "123456789ABCDEFGHJKLMNPQRSTUVWXYZabcdefghijkmnopqrstuvwxyz".toList

def digit (d : Nat) : Char := base58Alphabet.getD d '1'

theorem idxOf?_digit {d : Nat} (h : d < 58) : base58Alphabet.idxOf? (digit d) = some d := by
  have hall : ∀ d < 58, base58Alphabet.idxOf? (digit d) = some d := by decide
  exact hall d h

theorem digit_mem {d : Nat} (h : d < 58) : digit d ∈ base58Alphabet := by
  rw [← List.isSome_idxOf?, idxOf?_digit h]
  rfl

/-- A character of the alphabet is a digit. -/
theorem exists_digit {c : Char} (h : c ∈ base58Alphabet) : ∃ d < 58, c = digit d := by
  obtain ⟨d, hd, rfl⟩ := List.getElem_of_mem h
  exact ⟨d, hd, List.getElem_eq_getD '1'⟩

theorem exists_digits {cs : List Char} (h : ∀ c ∈ cs, c ∈ base58Alphabet) : ∃ ds : List Nat, (∀ d ∈ ds, d < 58) ∧ cs = ds.map digit := by
  induction cs with
  | nil => exact ⟨[], nofun, rfl⟩
  | cons c cs ih =>
    obtain ⟨hc, hcs⟩ := List.forall_mem_cons.1 h
    obtain ⟨d, hd, rfl⟩ := exists_digit hc
    obtain ⟨ds, hds, rfl⟩ := ih hcs
    exact ⟨d :: ds, List.forall_mem_cons.2 ⟨hd, hds⟩, rfl⟩

/-! ## Bytes -/

/-- `SetBytes`, big endian. -/
def setBytes (data : List UInt8) : Nat := Numeral.value 256 (data.map UInt8.toNat)

/-- `FillBytes` into as many bytes. -/
def fillBytes (size n : Nat) : List UInt8 := (List.range size).reverse.map fun i => UInt8.ofNat (n / 256 ^ i % 256)

theorem length_fillBytes (size n : Nat) : (fillBytes size n).length = size := by
  rw [fillBytes, List.length_map, List.length_reverse, List.length_range]

theorem toNat_lt {data : List UInt8} : ∀ d ∈ data.map UInt8.toNat, d < 256 := by
  intro d hd
  obtain ⟨b, -, rfl⟩ := List.mem_map.1 hd
  exact b.toNat_lt

theorem setBytes_lt (data : List UInt8) : setBytes data < 256 ^ data.length := by
  have hlt := Numeral.value_lt (show 1 < 256 by decide) (@toNat_lt data)
  rwa [List.length_map] at hlt

theorem setBytes_fillBytes {size n : Nat} (h : n < 256 ^ size) : setBytes (fillBytes size n) = n := by
  have hmap : (fillBytes size n).map UInt8.toNat = (List.range size).reverse.map fun i => n / 256 ^ i % 256 := by
    rw [fillBytes, List.map_map]
    refine List.map_congr_left fun i _ => ?_
    rw [Function.comp_apply, UInt8.toNat_ofNat', Nat.mod_mod]
  rw [setBytes, hmap, Numeral.value_digitsAt, Nat.mod_eq_of_lt h]

theorem setBytes_inj {a b : List UInt8} (hlen : a.length = b.length) (h : setBytes a = setBytes b) : a = b := by
  have hmap := Numeral.value_inj (show 1 < 256 by decide) (by simpa using hlen) toNat_lt toNat_lt h
  exact List.map_injective_iff.2 (fun _ _ heq => UInt8.toNat_inj.1 heq) hmap

theorem fillBytes_setBytes (data : List UInt8) : fillBytes data.length (setBytes data) = data :=
  setBytes_inj (length_fillBytes _ _) (setBytes_fillBytes (setBytes_lt data))

/-! ## Encoding -/

/-- Digit by digit from the last one, a `1` for each zero byte in front, and all of it turned round. -/
def base58Encode (data : List UInt8) : List Char :=
  ((Nat.digits 58 (setBytes data)).map digit ++ List.replicate (data.takeWhile (· = 0)).length '1').reverse

def base58EncodeFixed (data : List UInt8) (length : Nat) : List Char := (base58Encode data).leftpad length '1'

/-- Nine bytes are thirteen digits: those of zero bytes in front and those of the padding are zeros alike. -/
theorem base58EncodeFixed_eq {data : List UInt8} (h : data.length = 9) : ∃ ds : List Nat, ds.length = 13 ∧ (∀ d ∈ ds, d < 58) ∧
    base58EncodeFixed data 13 = ds.map digit ∧ Numeral.value 58 ds = setBytes data := by
  obtain ⟨zeros, hzeros⟩ : ∃ zeros, zeros = (data.takeWhile (· = 0)).length := ⟨_, rfl⟩
  have hdata : data = List.replicate zeros 0 ++ data.dropWhile (· = 0) := by
    have htake : data.takeWhile (· = 0) = List.replicate zeros 0 :=
      List.eq_replicate_iff.2 ⟨hzeros.symm, fun b hb => of_decide_eq_true (List.all_eq_true.1 List.all_takeWhile b hb)⟩
    conv_lhs => rw [← List.takeWhile_append_dropWhile (p := (· = 0)) (l := data), htake]
  have hle : zeros ≤ 9 := by
    have hlen := congrArg List.length hdata
    rw [List.length_append, List.length_replicate] at hlen
    omega
  have hrest : setBytes data < 256 ^ (9 - zeros) := by
    have hvalue : setBytes data = setBytes (data.dropWhile (· = 0)) := by
      conv_lhs => rw [hdata, setBytes, List.map_append, List.map_replicate]
      exact Numeral.value_replicate _ _ _
    have hlen : (data.dropWhile (· = 0)).length = 9 - zeros := by
      have hlen := congrArg List.length hdata
      rw [List.length_append, List.length_replicate] at hlen
      omega
    rw [hvalue, ← hlen]
    exact setBytes_lt _
  -- There is room for a digit of each zero byte.
  have hroom : ∀ zeros ≤ 9, 256 ^ (9 - zeros) ≤ 58 ^ (13 - zeros) := by decide
  have hdigits : (Nat.digits 58 (setBytes data)).length ≤ 13 - zeros :=
    (Nat.digits_length_le_iff (by decide) _).2 (hrest.trans_le (hroom zeros hle))
  obtain ⟨digits, hdef⟩ : ∃ digits, digits = (Nat.digits 58 (setBytes data)).reverse := ⟨_, rfl⟩
  have hlen : digits.length ≤ 13 - zeros := by
    rw [hdef, List.length_reverse]
    exact hdigits
  refine ⟨List.replicate (13 - digits.length) 0 ++ digits, ?_, fun d hd => ?_, ?_, ?_⟩
  · rw [List.length_append, List.length_replicate]
    omega
  · rcases List.mem_append.1 hd with hd | hd
    · rw [List.eq_of_mem_replicate hd]
      decide
    · rw [hdef] at hd
      exact Nat.digits_lt_base (by decide) (List.mem_reverse.1 hd)
  · have hencode : base58Encode data = List.replicate zeros '1' ++ digits.map digit := by
      rw [base58Encode, List.reverse_append, List.reverse_replicate, ← List.map_reverse, ← hdef, ← hzeros]
    have hpad : 13 - (zeros + digits.length) + zeros = 13 - digits.length := by omega
    rw [base58EncodeFixed, List.leftpad, hencode, List.length_append, List.length_replicate, List.length_map, ← List.append_assoc,
      List.replicate_append_replicate, hpad, List.map_append, List.map_replicate]
    rfl
  · rw [Numeral.value_replicate, hdef, Numeral.value_eq, List.reverse_reverse, Nat.ofDigits_digits]

/-! ## Reading digits -/

/-- What is read of the digits by the table `index`. -/
def readDigits (index : Char → Option Nat) (cs : List Char) : Option Nat := cs.foldlM (fun n c => (index c).map fun idx => n * 58 + idx) 0

theorem readDigits_digits {index : Char → Option Nat} (hindex : ∀ d < 58, index (digit d) = some d) {ds : List Nat} (h : ∀ d ∈ ds, d < 58) :
    readDigits index (ds.map digit) = some (Numeral.value 58 ds) := by
  have hfold : ∀ (ds : List Nat) (n : Nat), (∀ d ∈ ds, d < 58) →
      (ds.map digit).foldlM (fun n c => (index c).map fun idx => n * 58 + idx) n = some (ds.foldl (fun n d => n * 58 + d) n) := by
    intro ds
    induction ds with
    | nil => exact fun _ _ => rfl
    | cons d ds ih =>
      intro n h
      obtain ⟨hd, hds⟩ := List.forall_mem_cons.1 h
      rw [List.map_cons, List.foldlM_cons, hindex d hd, Option.map_some, Option.bind_eq_bind, Option.bind_some, ih _ hds]
      rfl
  exact hfold ds 0 h

end Purdex.Pairing
