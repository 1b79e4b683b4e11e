/-
The code of a session: the number of its tmux id, multiplied and moved within the numbers of six digits to base 36.
-/
import Purdex.Session.Meta
import Purdex.Text.Numeral
import Mathlib

namespace Purdex.Session.Codec

/-! ## Numbers of the language -/

/-- `strconv.Atoi`, to 64 bits. -/
def atoi : List Char → Option Int
  | '-' :: cs => ((Numeral.parse 10 cs).filter (· ≤ 2 ^ 63)).map fun n => -(n : Int)
  | '+' :: cs => ((Numeral.parse 10 cs).filter (· < 2 ^ 63)).map Int.ofNat
  | cs => ((Numeral.parse 10 cs).filter (· < 2 ^ 63)).map Int.ofNat

/-- `strconv.ParseUint`, to 64 bits. -/
def parseUint (b : Nat) (cs : List Char) : Option UInt64 := ((Numeral.parse b cs).filter (· < 2 ^ 64)).map UInt64.ofNat

/-! ## The codec -/

def codeLen : Nat := 6

def space : UInt64 := 2176782336

def mult : UInt64 := 1640531527

def multInv : UInt64 := 1777800055

def offset : UInt64 := 1013904223

inductive CodecError
  | invalidID (tmuxID : String)
  | outOfRange (n : Int)
  | invalidCode (code : String)
  deriving Repr, DecidableEq

/-- The multiplicative cipher. -/
def scramble (n : UInt64) : UInt64 := (n * mult + offset) % space

def unscramble (scrambled : UInt64) : UInt64 := (space + scrambled - offset % space) % space * multInv % space

def encodeSessionID (tmuxID : String) : Except CodecError String :=
  match tmuxID.toList with
  | '$' :: cs =>
    if tmuxID.utf8ByteSize < 2 then .error (.invalidID tmuxID)
    else
      match atoi cs with
      | none => .error (.invalidID tmuxID)
      | some n =>
        if n < 0 ∨ space.toNat ≤ n.toNat then .error (.outOfRange n)
        else .ok (String.ofList ((Numeral.format 36 (scramble (UInt64.ofNat n.toNat)).toNat).leftpad codeLen '0'))
  | _ => .error (.invalidID tmuxID)

def decodeSessionID (code : String) : Except CodecError String :=
  if code.utf8ByteSize ≠ codeLen then .error (.invalidCode code)
  else
    match parseUint 36 code.toList with
    | none => .error (.invalidCode code)
    | some scrambled => .ok (String.ofList ('$' :: Numeral.format 10 (unscramble scrambled).toNat))

/-! ## The cipher -/

/-- The id of a session of tmux: a dollar sign and the number. -/
def idOf (n : Nat) : String := String.ofList ('$' :: Numeral.format 10 n)

/-- Six digits to base 36, in lower case. -/
def IsCode (code : String) : Prop := code.length = codeLen ∧ ∀ c ∈ code.toList, Numeral.IsDigit 36 c

theorem space_eq : space.toNat = 36 ^ codeLen := rfl

/-- Neither the product nor the sum wraps. -/
theorem scramble_toNat {n : UInt64} (h : n.toNat < space.toNat) :
    (n * mult + offset).toNat = n.toNat * mult.toNat + offset.toNat ∧
      (scramble n).toNat = (n.toNat * mult.toNat + offset.toNat) % space.toNat := by
  have hexact : (n * mult + offset).toNat = n.toNat * mult.toNat + offset.toNat := by
    have hm : mult.toNat = 1640531527 := rfl
    have ho : offset.toNat = 1013904223 := rfl
    have hs : space.toNat = 2176782336 := rfl
    rw [UInt64.toNat_add, UInt64.toNat_mul, hm, ho]
    omega
  exact ⟨hexact, by rw [scramble, UInt64.toNat_mod, hexact]⟩

/-- Neither the sum nor the difference nor the product wraps. -/
theorem unscramble_toNat {s : UInt64} (h : s.toNat < space.toNat) :
    (space + s).toNat = space.toNat + s.toNat ∧ offset % space = offset ∧
      (space + s - offset % space).toNat = space.toNat + s.toNat - offset.toNat ∧
        ((space + s - offset % space) % space * multInv).toNat = (space.toNat + s.toNat - offset.toNat) % space.toNat * multInv.toNat ∧
          (unscramble s).toNat = (space.toNat + s.toNat - offset.toNat) % space.toNat * multInv.toNat % space.toNat := by
  have hi : multInv.toNat = 1777800055 := rfl
  have ho : offset.toNat = 1013904223 := rfl
  have hs : space.toNat = 2176782336 := rfl
  have hoffset : offset % space = offset := by decide
  have hsum : (space + s).toNat = space.toNat + s.toNat := by
    rw [UInt64.toNat_add]
    omega
  have hdiff : (space + s - offset % space).toNat = space.toNat + s.toNat - offset.toNat := by
    have hle : offset ≤ space + s := by
      rw [UInt64.le_iff_toNat_le, hsum]
      omega
    rw [hoffset, UInt64.toNat_sub_of_le _ _ hle, hsum]
  have hproduct : ((space + s - offset % space) % space * multInv).toNat =
      (space.toNat + s.toNat - offset.toNat) % space.toNat * multInv.toNat := by
    have hlt : (space.toNat + s.toNat - offset.toNat) % space.toNat < 2176782336 := Nat.mod_lt _ (by decide)
    rw [UInt64.toNat_mul, UInt64.toNat_mod, hdiff, hi]
    exact Nat.mod_eq_of_lt (by omega)
  exact ⟨hsum, hoffset, hdiff, hproduct, by rw [unscramble, UInt64.toNat_mod, hproduct]⟩

theorem mult_multInv : mult.toNat * multInv.toNat ≡ 1 [MOD space.toNat] := by decide

/-- Taking the offset off again. -/
theorem space_add_sub {x o S : Nat} (ho : o < S) : (S + (x + o) % S - o) % S = x % S := by
  have hmod := Nat.mod_add_div (x + o) S
  have hlt := Nat.mod_lt (x + o) (Nat.zero_lt_of_lt ho)
  have hx : x + S = S + (x + o) % S - o + S * ((x + o) / S) := by omega
  rw [← Nat.add_mul_mod_self_left (S + (x + o) % S - o) S ((x + o) / S), ← hx, Nat.add_mod_right]

theorem unscramble_scramble {n : UInt64} (h : n.toNat < space.toNat) : unscramble (scramble n) = n := by
  have hlt : (scramble n).toNat < space.toNat := by
    rw [(scramble_toNat h).2]
    exact Nat.mod_lt _ (by decide)
  apply UInt64.toNat_inj.1
  rw [(unscramble_toNat hlt).2.2.2.2, (scramble_toNat h).2, space_add_sub (by decide)]
  have hmod : n.toNat * mult.toNat % space.toNat * multInv.toNat ≡ n.toNat [MOD space.toNat] :=
    calc n.toNat * mult.toNat % space.toNat * multInv.toNat
        ≡ n.toNat * mult.toNat * multInv.toNat [MOD space.toNat] := (Nat.mod_modEq _ _).mul_right _
      _ = n.toNat * (mult.toNat * multInv.toNat) := Nat.mul_assoc _ _ _
      _ ≡ n.toNat * 1 [MOD space.toNat] := mult_multInv.mul_left _
      _ = n.toNat := Nat.mul_one _
  have heq : _ % _ = _ % _ := hmod
  rw [heq, Nat.mod_eq_of_lt h]

theorem scramble_unscramble {s : UInt64} (h : s.toNat < space.toNat) : scramble (unscramble s) = s := by
  have hlt : (unscramble s).toNat < space.toNat := by
    rw [(unscramble_toNat h).2.2.2.2]
    exact Nat.mod_lt _ (by decide)
  apply UInt64.toNat_inj.1
  rw [(scramble_toNat hlt).2, (unscramble_toNat h).2.2.2.2]
  have hmod : (space.toNat + s.toNat - offset.toNat) % space.toNat * multInv.toNat % space.toNat * mult.toNat + offset.toNat ≡
      s.toNat [MOD space.toNat] := by
    have hle : offset.toNat ≤ space.toNat + s.toNat := (show offset.toNat ≤ space.toNat by decide).trans (Nat.le_add_right _ _)
    calc (space.toNat + s.toNat - offset.toNat) % space.toNat * multInv.toNat % space.toNat * mult.toNat + offset.toNat
        ≡ (space.toNat + s.toNat - offset.toNat) * multInv.toNat * mult.toNat + offset.toNat [MOD space.toNat] :=
          (((Nat.mod_modEq _ _).trans ((Nat.mod_modEq _ _).mul_right _)).mul_right _).add_right _
      _ = (space.toNat + s.toNat - offset.toNat) * (mult.toNat * multInv.toNat) + offset.toNat := by
          rw [Nat.mul_assoc, Nat.mul_comm multInv.toNat]
      _ ≡ (space.toNat + s.toNat - offset.toNat) * 1 + offset.toNat [MOD space.toNat] := (mult_multInv.mul_left _).add_right _
      _ = space.toNat + s.toNat := by rw [Nat.mul_one, Nat.sub_add_cancel hle]
      _ ≡ s.toNat [MOD space.toNat] := Nat.add_modEq_left
  have heq : _ % _ = _ % _ := hmod
  rw [heq, Nat.mod_eq_of_lt h]

/-! ## Texts -/

theorem utf8ByteSize_ofList (cs : List Char) : (String.ofList cs).utf8ByteSize = (cs.map Char.utf8Size).sum := by
  induction cs with
  | nil => rfl
  | cons c cs ih => rw [String.ofList_cons, String.utf8ByteSize_append, String.utf8ByteSize_singleton, ih, List.map_cons, List.sum_cons]

theorem digitChar_ascii {d : Nat} (h : d < 36) : (Numeral.digitChar d).utf8Size = 1 := by
  have hall : ∀ d < 36, (Numeral.digitChar d).utf8Size = 1 := by decide
  exact hall d h

/-- Digits take a byte each. -/
theorem utf8ByteSize_digits {digits : List Nat} (h : ∀ d ∈ digits, d < 36) :
    (String.ofList (digits.map Numeral.digitChar)).utf8ByteSize = digits.length := by
  have hones : (digits.map Numeral.digitChar).map Char.utf8Size = List.replicate digits.length 1 := by
    refine List.eq_replicate_iff.2 ⟨by simp, fun size hsize => ?_⟩
    simp only [List.mem_map, exists_exists_and_eq_and] at hsize
    obtain ⟨d, hd, rfl⟩ := hsize
    exact digitChar_ascii (h d hd)
  rw [utf8ByteSize_ofList, hones, List.sum_replicate_nat, Nat.mul_one]

/-- A digit is no sign. -/
theorem atoi_digits {digits : List Nat} (hne : digits ≠ []) (h : ∀ d ∈ digits, d < 10) :
    atoi (digits.map Numeral.digitChar) = ((some (Numeral.value 10 digits)).filter (· < 2 ^ 63)).map Int.ofNat := by
  have hparse := Numeral.parse_digits (show 10 ≤ 36 by decide) hne h
  cases digits with
  | nil => exact absurd rfl hne
  | cons d digits =>
    have hd : ∀ d < 10, Numeral.digitChar d ≠ '-' ∧ Numeral.digitChar d ≠ '+' := by decide
    obtain ⟨hminus, hplus⟩ := hd d (h d List.mem_cons_self)
    rw [← hparse, List.map_cons]
    unfold atoi
    split
    · rename_i heq
      exact absurd (List.cons.inj heq).1 hminus
    · rename_i heq
      exact absurd (List.cons.inj heq).1 hplus
    · rfl

theorem atoi_format (n : Nat) : atoi (Numeral.format 10 n) = if n < 2 ^ 63 then some (n : Int) else none := by
  obtain ⟨digits, hne, hlt, hformat, hvalue⟩ := Numeral.format_eq (show 1 < 10 by decide) n
  rw [hformat, atoi_digits hne hlt, hvalue, Option.filter_some]
  by_cases hn : n < 2 ^ 63
  · rw [if_pos (decide_eq_true hn), if_pos hn]
    rfl
  · rw [if_neg (by simpa using hn), if_neg hn]
    rfl

theorem two_le_idOf (n : Nat) : ¬ (idOf n).utf8ByteSize < 2 := by
  obtain ⟨digits, hne, hlt, hformat, -⟩ := Numeral.format_eq (show 1 < 10 by decide) n
  have hsize := @utf8ByteSize_digits digits fun d hd => (hlt d hd).trans (by decide)
  have hpos := List.length_pos_iff.2 hne
  have hdollar : ('$').utf8Size = 1 := by decide
  rw [idOf, utf8ByteSize_ofList, List.map_cons, List.sum_cons, hformat, ← utf8ByteSize_ofList, hsize, hdollar]
  omega

/-- What is read of the id with a number, in range or not. -/
theorem encodeSessionID_idOf (n : Nat) : encodeSessionID (idOf n) =
    if n < space.toNat then .ok (String.ofList (Numeral.padded 36 codeLen (scramble (UInt64.ofNat n)).toNat))
    else if n < 2 ^ 63 then .error (.outOfRange n)
    else .error (.invalidID (idOf n)) := by
  have hs : space.toNat = 2176782336 := rfl
  have hlist : (idOf n).toList = '$' :: Numeral.format 10 n := String.toList_ofList
  unfold encodeSessionID
  rw [hlist]
  simp only [if_neg (two_le_idOf n), atoi_format]
  by_cases hsmall : n < 2 ^ 63
  · rw [if_pos hsmall, if_pos hsmall]
    simp only [Int.toNat_natCast]
    by_cases hn : n < space.toNat
    · rw [if_pos hn, if_neg (by omega)]
      rfl
    · rw [if_neg hn, if_pos (by omega)]
  · rw [if_neg hsmall, if_neg hsmall, if_neg (by omega)]

/-- What is read of a code. -/
theorem decodeSessionID_padded {s : Nat} (h : s < space.toNat) :
    decodeSessionID (String.ofList (Numeral.padded 36 codeLen s)) = .ok (idOf (unscramble (UInt64.ofNat s)).toNat) := by
  obtain ⟨digits, hlen, hlt, hpadded, hvalue⟩ := Numeral.padded_eq (show 1 < 36 by decide) (show 0 < codeLen by decide) h
  have hsize : (String.ofList (Numeral.padded 36 codeLen s)).utf8ByteSize = codeLen := by
    rw [hpadded, utf8ByteSize_digits hlt, hlen]
  have hs : space.toNat = 2176782336 := rfl
  have hparse : parseUint 36 (Numeral.padded 36 codeLen s) = some (UInt64.ofNat s) := by
    have hword : (decide (s < 2 ^ 64)) = true := decide_eq_true (by omega)
    rw [parseUint, Numeral.parse_padded (by decide) (by decide) (by decide) h, Option.filter_some, if_pos hword]
    rfl
  rw [decodeSessionID, if_neg (not_not.2 hsize), String.toList_ofList, hparse]
  rfl

/-- A code is a number of its six digits. -/
theorem code_iff {code : String} : IsCode code ↔ ∃ s < space.toNat, code = String.ofList (Numeral.padded 36 codeLen s) := by
  constructor
  · rintro ⟨hlen, hdigits⟩
    obtain ⟨digits, hlt, hcode⟩ := Numeral.exists_digits hdigits
    have hcount : digits.length = codeLen := by
      rw [← hlen, ← String.length_toList, hcode, List.length_map]
    have hne : digits ≠ [] := by
      rintro rfl
      exact absurd hcount (by decide)
    have hvalue := Numeral.value_lt (show 1 < 36 by decide) hlt
    rw [hcount, ← space_eq] at hvalue
    refine ⟨_, hvalue, ?_⟩
    rw [← hcount, Numeral.padded_value (by decide) hne hlt, ← hcode, String.ofList_toList]
  · rintro ⟨s, hs, rfl⟩
    obtain ⟨digits, hlen, hlt, hpadded, -⟩ := Numeral.padded_eq (show 1 < 36 by decide) (show 0 < codeLen by decide) hs
    rw [hpadded]
    refine ⟨?_, fun c hc => ?_⟩
    · rw [← String.length_toList, String.toList_ofList, List.length_map, hlen]
    · rw [String.toList_ofList] at hc
      obtain ⟨d, hd, rfl⟩ := List.mem_map.1 hc
      exact ⟨d, hlt d hd, rfl⟩

theorem padded_inj {s s' : Nat} (h : s < space.toNat) (h' : s' < space.toNat)
    (heq : String.ofList (Numeral.padded 36 codeLen s) = String.ofList (Numeral.padded 36 codeLen s')) : s = s' := by
  have hparse := Numeral.parse_padded (show 1 < 36 by decide) (by decide) (show 0 < codeLen by decide) h
  have hparse' := Numeral.parse_padded (show 1 < 36 by decide) (by decide) (show 0 < codeLen by decide) h'
  rw [String.ofList_injective heq, hparse'] at hparse
  exact (Option.some.inj hparse).symm

theorem toNat_ofNat_of_lt {n : Nat} (h : n < space.toNat) : (UInt64.ofNat n).toNat = n := by
  have hs : space.toNat = 2176782336 := rfl
  exact UInt64.toNat_ofNat_of_lt' (by rw [UInt64.size]; omega)

/-! ## The bijection -/

/-- Each number below the space has a code of its own that gives its id back, each code is the code of one number, no step wraps, and
what is not below the space has no code. -/
theorem session_codes_bijective :
    (∀ n < space.toNat, ∃ code, encodeSessionID (idOf n) = .ok code ∧ IsCode code ∧ decodeSessionID code = .ok (idOf n)) ∧
      (∀ code, IsCode code → ∃! n, n < space.toNat ∧ encodeSessionID (idOf n) = .ok code) ∧
        (∀ n < space.toNat, (UInt64.ofNat n * mult + offset).toNat = n * mult.toNat + offset.toNat ∧
          (UInt64.ofNat n * mult).toNat = n * mult.toNat) ∧
        (∀ s : UInt64, s.toNat < space.toNat → (space + s).toNat = space.toNat + s.toNat ∧
          (space + s - offset % space).toNat = space.toNat + s.toNat - (offset % space).toNat ∧ offset % space ≤ space + s ∧
            ((space + s - offset % space) % space * multInv).toNat = ((space + s - offset % space) % space).toNat * multInv.toNat) ∧
          ∀ n, space.toNat ≤ n → ∃ e, encodeSessionID (idOf n) = .error e := by
  have hs : space.toNat = 2176782336 := rfl
  have hscrambled : ∀ n < space.toNat, (scramble (UInt64.ofNat n)).toNat < space.toNat := fun n hn => by
    rw [(scramble_toNat (by rwa [toNat_ofNat_of_lt hn])).2]
    exact Nat.mod_lt _ (by decide)
  refine ⟨fun n hn => ?_, fun code hcode => ?_, fun n hn => ?_, fun s hlt => ?_, fun n hn => ?_⟩
  · refine ⟨_, (encodeSessionID_idOf n).trans (if_pos hn), code_iff.2 ⟨_, hscrambled n hn, rfl⟩, ?_⟩
    rw [decodeSessionID_padded (hscrambled n hn), UInt64.ofNat_toNat, unscramble_scramble (by rwa [toNat_ofNat_of_lt hn]),
      toNat_ofNat_of_lt hn]
  · obtain ⟨s, hlt, rfl⟩ := code_iff.1 hcode
    have hs64 : (UInt64.ofNat s).toNat < space.toNat := by rwa [toNat_ofNat_of_lt hlt]
    have hn : (unscramble (UInt64.ofNat s)).toNat < space.toNat := by
      rw [(unscramble_toNat hs64).2.2.2.2]
      exact Nat.mod_lt _ (by decide)
    refine ⟨(unscramble (UInt64.ofNat s)).toNat, ⟨hn, ?_⟩, ?_⟩
    · rw [encodeSessionID_idOf, if_pos hn, UInt64.ofNat_toNat, scramble_unscramble hs64, toNat_ofNat_of_lt hlt]
    · rintro m ⟨hm, hcode⟩
      rw [encodeSessionID_idOf, if_pos hm] at hcode
      have hscramble : (scramble (UInt64.ofNat m)).toNat = s := padded_inj (hscrambled m hm) hlt (Except.ok.inj hcode)
      rw [← hscramble, UInt64.ofNat_toNat, unscramble_scramble (by rwa [toNat_ofNat_of_lt hm]), toNat_ofNat_of_lt hm]
  · have hm : mult.toNat = 1640531527 := rfl
    have hexact := (scramble_toNat (n := UInt64.ofNat n) (by rwa [toNat_ofNat_of_lt hn])).1
    rw [toNat_ofNat_of_lt hn] at hexact
    refine ⟨hexact, ?_⟩
    rw [UInt64.toNat_mul, toNat_ofNat_of_lt hn, hm]
    exact Nat.mod_eq_of_lt (by omega)
  · have ho : offset.toNat = 1013904223 := rfl
    obtain ⟨hsum, hoffset, hdiff, hproduct, -⟩ := unscramble_toNat hlt
    refine ⟨hsum, ?_, ?_, ?_⟩
    · rw [hdiff, hoffset]
    · rw [UInt64.le_iff_toNat_le, hsum, hoffset]
      omega
    · rw [hproduct, UInt64.toNat_mod, hdiff]
  · rw [encodeSessionID_idOf, if_neg (Nat.not_lt.2 hn)]
    split
    · exact ⟨_, rfl⟩
    · exact ⟨_, rfl⟩

end Purdex.Session.Codec
