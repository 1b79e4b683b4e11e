/-
The pairing code: an address, a port and a secret in thirteen digits, written by the daemon and read by both sides.
-/
import Mathlib.Data.Nat.Size
import Purdex.Pairing.Base58

namespace Purdex.Pairing

/-! ## The daemon -/

/-- `To4`: an address of four bytes, by itself or at the end of sixteen. -/
def to4 (ip : List UInt8) : Option (List UInt8) :=
  if ip.length = 4 then some ip
  else if ip.length = 16 ∧ ip.take 12 = List.replicate 10 0 ++ [0xff, 0xff] then some (ip.drop 12)
  else none

def putUint16 (v : UInt16) : List UInt8 := [(v >>> 8).toUInt8, v.toUInt8]

def getUint16 : List UInt8 → UInt16
  | [hi, lo] => lo.toUInt16 ||| hi.toUInt16 <<< 8
  | _ => 0

/-- Dashes behind the fourth and the eighth character. -/
def formatPairingCode (raw : List Char) : List Char :=
  if raw.length < 13 then raw else raw.take 4 ++ '-' :: ((raw.drop 4).take 4 ++ '-' :: (raw.drop 8).take 5)

/-- Of a secret that is short the rest is zeros. -/
def encodePairingCode (ip : List UInt8) (port : UInt16) (secret : List UInt8) : List Char :=
  let buf := (to4 ip).getD [0, 0, 0, 0] ++ putUint16 port ++ (secret ++ [0, 0, 0]).take 3
  formatPairingCode (base58EncodeFixed buf 13)

structure Paired where
  ip : List UInt8
  port : UInt16
  secret : List UInt8
  deriving Repr, DecidableEq

/-- Dashes, slashes, blanks and tabs are left out. -/
def cleanCode (code : List Char) : List Char := code.filter fun c => !(c = '-' || c = '/' || c = ' ' || c = '\t')

def decodePairingCode (code : List Char) : Except String Paired :=
  match readDigits base58Alphabet.idxOf? (cleanCode code) with
  | none => .error "invalid pairing code"
  | some n =>
    if 72 < n.size then .error "invalid pairing code"
    else
      let data := fillBytes 9 n
      .ok ⟨data.take 4, getUint16 ((data.drop 4).take 2), data.drop 6⟩

/-! ## The client -/

namespace Client

/-- The blanks of a regular expression. -/
def isSpace (c : Char) : Bool :=
  c ∈ ['\t', '\n', '\x0b', '\x0c', '\r', ' ', '\u00a0', '\u1680', '\u2028', '\u2029', '\u202f', '\u205f', '\u3000', '\ufeff'] ||
    '\u2000' ≤ c && c ≤ '\u200a'

def cleanPairingInput (input : List Char) : List Char := input.filter fun c => !(c = '-' || c = '/' || isSpace c)

/-- How many units a string has. -/
def units (cs : List Char) : Nat := (cs.map fun c => if c.toNat < 0x10000 then 1 else 2).sum

def base58Map : List (Char × Nat) := base58Alphabet.zipIdx

/-- The bytes from the last one on. -/
def toBytes : Nat → Nat → List UInt8 → List UInt8
  | 0, _, data => data
  | size + 1, n, data => toBytes size (n >>> 8) (UInt8.ofNat (n &&& 0xff) :: data)

structure PairingCodeData where
  ip : String
  port : Nat
  secret : String
  deriving Repr, DecidableEq

def dotted (ip : List UInt8) : String := ".".intercalate (ip.map fun b => String.ofList (Numeral.format 10 b.toNat))

def hex (secret : List UInt8) : String := String.join (secret.map fun b => String.ofList (Numeral.padded 16 2 b.toNat))

def decodePairingCode (input : List Char) : Option PairingCodeData :=
  let cleaned := cleanPairingInput input
  if units cleaned ≠ 13 then none
  else
    match readDigits (base58Map.lookup ·) cleaned with
    | none => none
    | some n =>
      if 1 <<< 72 ≤ n then none
      else
        match toBytes 9 n [] with
        | [d0, d1, d2, d3, d4, d5, d6, d7, d8] => some ⟨dotted [d0, d1, d2, d3], d4.toNat <<< 8 ||| d5.toNat, hex [d6, d7, d8]⟩
        | _ => none

end Client

/-- What the daemon reads, as the client shows it. -/
def Paired.shown (p : Paired) : Client.PairingCodeData := ⟨Client.dotted p.ip, p.port.toNat, Client.hex p.secret⟩

/-! ## Ports -/

theorem getUint16_toNat (hi lo : UInt8) : (getUint16 [hi, lo]).toNat = hi.toNat <<< 8 ||| lo.toNat := by
  have hhi := hi.toNat_lt
  have hlo := lo.toNat_lt
  rw [getUint16, UInt16.toNat_or, UInt16.toNat_shiftLeft, UInt8.toNat_toUInt16, UInt8.toNat_toUInt16, Nat.or_comm]
  have hshift : hi.toNat <<< 8 < 2 ^ 16 := by
    rw [Nat.shiftLeft_eq]
    omega
  change hi.toNat <<< 8 % 2 ^ 16 ||| lo.toNat = _
  rw [Nat.mod_eq_of_lt hshift]

theorem shiftLeft_or {hi lo : Nat} (h : lo < 256) : hi <<< 8 ||| lo = hi * 256 + lo := by
  rw [← Nat.shiftLeft_add_eq_or_of_lt (by omega : lo < 2 ^ 8), Nat.shiftLeft_eq]

theorem getUint16_putUint16 (v : UInt16) : getUint16 (putUint16 v) = v := by
  apply UInt16.toNat_inj.1
  have hv := v.toNat_lt
  have hlo : (v.toUInt8).toNat = v.toNat % 256 := rfl
  have hhi : ((v >>> 8).toUInt8).toNat = v.toNat / 256 := by
    change (v.toNat >>> 8) % 256 = _
    rw [Nat.shiftRight_eq_div_pow]
    omega
  rw [putUint16, getUint16_toNat, shiftLeft_or v.toUInt8.toNat_lt, hlo, hhi]
  omega

theorem putUint16_getUint16 (hi lo : UInt8) : putUint16 (getUint16 [hi, lo]) = [hi, lo] := by
  have hhi := hi.toNat_lt
  have hlo := lo.toNat_lt
  have hport : (getUint16 [hi, lo]).toNat = hi.toNat * 256 + lo.toNat := by rw [getUint16_toNat, shiftLeft_or hlo]
  have hhigh : (getUint16 [hi, lo] >>> 8).toUInt8 = hi := by
    apply UInt8.toNat_inj.1
    change ((getUint16 [hi, lo]).toNat >>> 8) % 256 = _
    rw [hport, Nat.shiftRight_eq_div_pow]
    omega
  have hlow : (getUint16 [hi, lo]).toUInt8 = lo := by
    apply UInt8.toNat_inj.1
    change (getUint16 [hi, lo]).toNat % 256 = _
    rw [hport]
    omega
  rw [putUint16, hhigh, hlow]

/-! ## What is left of a code -/

/-- What a code may be broken up by. -/
def separators : List Char := ['-', '/', ' ', '\t']

theorem cleanCode_eq (code : List Char) : cleanCode code = code.filter (· ∉ separators) :=
  List.filter_congr fun c _ => by simp [separators, Bool.and_assoc]

/-- On the alphabet and the separators of a code the client leaves out what the daemon does. -/
theorem cleanPairingInput_eq {code : List Char} (h : ∀ c ∈ code, c ∈ base58Alphabet ∨ c ∈ separators) :
    Client.cleanPairingInput code = cleanCode code := by
  have halphabet : base58Alphabet.all (fun c => !(c = '-' || c = '/' || Client.isSpace c) && decide (c ∉ separators)) = true := by decide
  have hseparators : separators.all (fun c => c = '-' || c = '/' || Client.isSpace c) = true := by decide
  rw [cleanCode_eq, Client.cleanPairingInput]
  refine List.filter_congr fun c hc => ?_
  rcases h c hc with hc | hc
  · have hboth := List.all_eq_true.1 halphabet c hc
    rw [Bool.and_eq_true] at hboth
    exact hboth.1.trans hboth.2.symm
  · rw [List.all_eq_true.1 hseparators c hc, Bool.not_true]
    exact (decide_eq_false (not_not.2 hc)).symm

theorem units_digits {ds : List Nat} (h : ∀ d ∈ ds, d < 58) : Client.units (ds.map digit) = ds.length := by
  have hall : ∀ d < 58, (digit d).toNat < 0x10000 := by decide
  have hones : (ds.map digit).map (fun c => if c.toNat < 0x10000 then 1 else 2) = List.replicate ds.length 1 := by
    refine List.eq_replicate_iff.2 ⟨by simp, fun k hk => ?_⟩
    simp only [List.map_map, List.mem_map] at hk
    obtain ⟨d, hd, rfl⟩ := hk
    exact if_pos (hall d (h d hd))
  rw [Client.units, hones, List.sum_replicate_nat, Nat.mul_one]

theorem lookup_digit {d : Nat} (h : d < 58) : Client.base58Map.lookup (digit d) = some d := by
  have hall : ∀ d < 58, Client.base58Map.lookup (digit d) = some d := by decide
  exact hall d h

/-- The loop that shifts takes the bytes that are divided out. -/
theorem toBytes_eq (size n : Nat) (data : List UInt8) : Client.toBytes size n data = fillBytes size n ++ data := by
  induction size generalizing n data with
  | zero => rfl
  | succ size ih =>
    have hshift : ∀ i, n >>> 8 / 256 ^ i % 256 = n / 256 ^ (i + 1) % 256 := fun i => by
      have hpow : 2 ^ 8 * 256 ^ i = 256 ^ (i + 1) := (pow_succ' 256 i).symm
      rw [Nat.shiftRight_eq_div_pow, Nat.div_div_eq_div_mul, hpow]
    have hand : n &&& 0xff = n / 256 ^ 0 % 256 := by
      rw [pow_zero, Nat.div_one]
      exact Nat.and_two_pow_sub_one_eq_mod n 8
    rw [Client.toBytes, ih, fillBytes, fillBytes, List.range_succ_eq_map, List.reverse_cons, List.map_append, List.append_assoc,
      ← List.map_reverse, List.map_map, List.map_singleton, List.singleton_append, hand]
    refine congrArg (· ++ _) (List.map_congr_left fun i _ => ?_)
    rw [Function.comp_apply, hshift]

/-! ## Reading a code -/

section Reading

variable {code : List Char} {ds : List Nat}

/-- What the daemon makes of thirteen digits. -/
theorem decodePairingCode_digits (h : ∀ d ∈ ds, d < 58) (hcode : cleanCode code = ds.map digit) :
    decodePairingCode code = if Numeral.value 58 ds < 256 ^ 9 then
      .ok ⟨(fillBytes 9 (Numeral.value 58 ds)).take 4, getUint16 (((fillBytes 9 (Numeral.value 58 ds)).drop 4).take 2),
        (fillBytes 9 (Numeral.value 58 ds)).drop 6⟩ else .error "invalid pairing code" := by
  unfold decodePairingCode
  rw [hcode, readDigits_digits (fun d hd => idxOf?_digit hd) h]
  dsimp only
  have hsize : 72 < (Numeral.value 58 ds).size ↔ ¬Numeral.value 58 ds < 256 ^ 9 := by
    rw [← not_le, Nat.size_le]
    norm_num
  by_cases hlt : Numeral.value 58 ds < 256 ^ 9
  · rw [if_pos hlt, if_neg (fun hbig => hsize.1 hbig hlt)]
  · rw [if_neg hlt, if_pos (hsize.2 hlt)]

/-- Nine bytes, one by one. -/
theorem exists_bytes (n : Nat) : ∃ d0 d1 d2 d3 d4 d5 d6 d7 d8, fillBytes 9 n = [d0, d1, d2, d3, d4, d5, d6, d7, d8] :=
  ⟨_, _, _, _, _, _, _, _, _, rfl⟩

/-- The client makes of them what the daemon does. -/
theorem client_decodePairingCode (h : ∀ d ∈ ds, d < 58) (hlen : ds.length = 13) (hclean : cleanCode code = ds.map digit)
    (hclient : Client.cleanPairingInput code = ds.map digit) :
    Client.decodePairingCode code = (decodePairingCode code).toOption.map Paired.shown := by
  rw [decodePairingCode_digits h hclean]
  unfold Client.decodePairingCode
  dsimp only
  rw [hclient, units_digits h, hlen, if_neg (not_not.2 rfl), readDigits_digits (fun d hd => lookup_digit hd) h]
  dsimp only
  by_cases hlt : Numeral.value 58 ds < 256 ^ 9
  · rw [if_pos hlt, if_neg (by norm_num at hlt ⊢; exact hlt), toBytes_eq, List.append_nil]
    obtain ⟨d0, d1, d2, d3, d4, d5, d6, d7, d8, hbytes⟩ := exists_bytes (Numeral.value 58 ds)
    rw [hbytes]
    dsimp only
    rw [← getUint16_toNat]
    rfl
  · rw [if_neg hlt, if_pos (by norm_num at hlt ⊢; exact hlt)]
    rfl

end Reading

/-! ## The round trip -/

section RoundTrip

variable {ip secret : List UInt8} {port : UInt16} {ds : List Nat}

theorem digit_not_separator {d : Nat} (h : d < 58) : digit d ∉ separators := by
  have hall : ∀ d < 58, digit d ∉ separators := by decide
  exact hall d h

theorem cleanCode_digits (h : ∀ d ∈ ds, d < 58) : cleanCode (ds.map digit) = ds.map digit := by
  rw [cleanCode_eq]
  refine List.filter_eq_self.2 fun c hc => ?_
  obtain ⟨d, hd, rfl⟩ := List.mem_map.1 hc
  exact decide_eq_true (digit_not_separator (h d hd))

theorem cleanCode_append (a b : List Char) : cleanCode (a ++ b) = cleanCode a ++ cleanCode b := List.filter_append ..

theorem cleanCode_dash (cs : List Char) : cleanCode ('-' :: cs) = cleanCode cs := rfl

theorem format_digits (hlen : ds.length = 13) : formatPairingCode (ds.map digit) =
    (ds.take 4).map digit ++ '-' :: (((ds.drop 4).take 4).map digit ++ '-' :: (ds.drop 8).map digit) := by
  have hrest : (ds.drop 8).take 5 = ds.drop 8 := List.take_of_length_le (by rw [List.length_drop, hlen])
  rw [formatPairingCode, if_neg (by rw [List.length_map, hlen]; decide), ← List.map_take, ← List.map_drop, ← List.map_take, ← List.map_drop,
    ← List.map_take, hrest]

/-- Without its dashes a code is its digits. -/
theorem cleanCode_format (hlen : ds.length = 13) (h : ∀ d ∈ ds, d < 58) : cleanCode (formatPairingCode (ds.map digit)) = ds.map digit := by
  rw [format_digits hlen, cleanCode_append, cleanCode_dash, cleanCode_append, cleanCode_dash, cleanCode_digits fun d hd => h d (List.mem_of_mem_take hd),
    cleanCode_digits fun d hd => h d (List.mem_of_mem_drop (List.mem_of_mem_take hd)), cleanCode_digits fun d hd => h d (List.mem_of_mem_drop hd),
    ← List.map_append, ← List.map_append]
  have hback : (ds.drop 4).take 4 ++ ds.drop 8 = ds.drop 4 := by
    have hdrop : ds.drop 8 = (ds.drop 4).drop 4 := by rw [List.drop_drop]
    rw [hdrop, List.take_append_drop]
  rw [hback, List.take_append_drop]

theorem format_chars (hlen : ds.length = 13) (h : ∀ d ∈ ds, d < 58) : ∀ c ∈ formatPairingCode (ds.map digit), c ∈ base58Alphabet ∨ c ∈ separators := by
  have hdash : '-' ∈ separators := by decide
  have hdigit : ∀ part : List Nat, part ⊆ ds → ∀ c ∈ part.map digit, c ∈ base58Alphabet ∨ c ∈ separators := by
    intro part hpart c hc
    obtain ⟨d, hd, rfl⟩ := List.mem_map.1 hc
    exact .inl (digit_mem (h d (hpart hd)))
  rw [format_digits hlen]
  intro c hc
  rcases List.mem_append.1 hc with hc | hc
  · exact hdigit _ (List.take_subset _ _) c hc
  rcases List.mem_cons.1 hc with rfl | hc
  · exact .inr hdash
  rcases List.mem_append.1 hc with hc | hc
  · exact hdigit _ (List.Subset.trans (List.take_subset _ _) (List.drop_subset _ _)) c hc
  rcases List.mem_cons.1 hc with rfl | hc
  · exact .inr hdash
  · exact hdigit _ (List.drop_subset _ _) c hc

/-- A code of nine bytes: thirteen digits that are the number they are. -/
theorem encodePairingCode_eq {a b c d s1 s2 s3 : UInt8} (hip : to4 ip = some [a, b, c, d]) :
    ∃ ds : List Nat, ds.length = 13 ∧ (∀ d ∈ ds, d < 58) ∧ encodePairingCode ip port [s1, s2, s3] = formatPairingCode (ds.map digit) ∧
      Numeral.value 58 ds = setBytes ([a, b, c, d] ++ putUint16 port ++ [s1, s2, s3]) := by
  obtain ⟨ds, hlen, hlt, hfixed, hvalue⟩ := @base58EncodeFixed_eq ([a, b, c, d] ++ putUint16 port ++ [s1, s2, s3]) rfl
  refine ⟨ds, hlen, hlt, ?_, hvalue⟩
  rw [encodePairingCode, hip, ← hfixed]
  rfl

/-- Reading gives back what was written. -/
theorem decode_encode {a b c d s1 s2 s3 : UInt8} (hip : to4 ip = some [a, b, c, d]) :
    decodePairingCode (encodePairingCode ip port [s1, s2, s3]) = .ok ⟨[a, b, c, d], port, [s1, s2, s3]⟩ := by
  obtain ⟨ds, hlen, hlt, hcode, hvalue⟩ := @encodePairingCode_eq ip port a b c d s1 s2 s3 hip
  have hsmall : setBytes ([a, b, c, d] ++ putUint16 port ++ [s1, s2, s3]) < 256 ^ 9 := setBytes_lt _
  have hfill : fillBytes 9 (setBytes ([a, b, c, d] ++ putUint16 port ++ [s1, s2, s3])) = [a, b, c, d] ++ putUint16 port ++ [s1, s2, s3] :=
    fillBytes_setBytes _
  rw [hcode, decodePairingCode_digits hlt (cleanCode_format hlen hlt), hvalue, if_pos hsmall, hfill]
  change Except.ok (Paired.mk [a, b, c, d] (getUint16 (putUint16 port)) [s1, s2, s3]) = _
  rw [getUint16_putUint16]

/-- What is read is written as the digits that it was read of. -/
theorem encode_decode {code : List Char} {p : Paired} (hlen : ds.length = 13) (h : ∀ d ∈ ds, d < 58) (hclean : cleanCode code = ds.map digit)
    (hp : decodePairingCode code = .ok p) : encodePairingCode p.ip p.port p.secret = formatPairingCode (ds.map digit) := by
  rw [decodePairingCode_digits h hclean] at hp
  split at hp
  · rename_i hsmall
    obtain ⟨d0, d1, d2, d3, d4, d5, d6, d7, d8, hbytes⟩ := exists_bytes (Numeral.value 58 ds)
    obtain rfl := Except.ok.inj hp
    rw [hbytes]
    change encodePairingCode [d0, d1, d2, d3] (getUint16 [d4, d5]) [d6, d7, d8] = _
    obtain ⟨ds', hlen', hlt', hcode, hvalue⟩ := @encodePairingCode_eq [d0, d1, d2, d3] (getUint16 [d4, d5]) d0 d1 d2 d3 d6 d7 d8 rfl
    have hsame : Numeral.value 58 ds' = Numeral.value 58 ds := by
      have hback := setBytes_fillBytes hsmall
      rw [hbytes] at hback
      rw [hvalue, putUint16_getUint16]
      exact hback
    rw [hcode, Numeral.value_inj (by decide) (hlen'.trans hlen.symm) hlt' h hsame]
  · cases hp

end RoundTrip

/-- Thirteen characters of the alphabet, with separators anywhere. -/
structure IsCode (code : List Char) : Prop where
  chars : ∀ c ∈ code, c ∈ base58Alphabet ∨ c ∈ separators
  length : (cleanCode code).length = 13

theorem IsCode.digits {code : List Char} (h : IsCode code) : ∃ ds : List Nat, ds.length = 13 ∧ (∀ d ∈ ds, d < 58) ∧
    cleanCode code = ds.map digit := by
  have hchars : ∀ c ∈ cleanCode code, c ∈ base58Alphabet := by
    intro c hc
    rw [cleanCode_eq, List.mem_filter] at hc
    exact (h.chars c hc.1).resolve_right (of_decide_eq_true hc.2)
  obtain ⟨ds, hds, heq⟩ := exists_digits hchars
  have hlen := h.length
  rw [heq, List.length_map] at hlen
  exact ⟨ds, hlen, hds, heq⟩

/-- A code is thirteen characters in groups of four, four and five, and both sides read of it what it was made of; of any text that could be
a code both read the same, and what is read is written as that text again, without its separators. -/
theorem pairing_codes_round_trip :
    (∀ (ip : List UInt8) (a b c d : UInt8) (port : UInt16) (s1 s2 s3 : UInt8), to4 ip = some [a, b, c, d] →
      (∃ g1 g2 g3 : List Char, g1.length = 4 ∧ g2.length = 4 ∧ g3.length = 5 ∧ (∀ x ∈ g1 ++ g2 ++ g3, x ∈ base58Alphabet) ∧
        encodePairingCode ip port [s1, s2, s3] = g1 ++ '-' :: (g2 ++ '-' :: g3)) ∧
      decodePairingCode (encodePairingCode ip port [s1, s2, s3]) = .ok ⟨[a, b, c, d], port, [s1, s2, s3]⟩ ∧
      Client.decodePairingCode (encodePairingCode ip port [s1, s2, s3]) =
        some ⟨Client.dotted [a, b, c, d], port.toNat, Client.hex [s1, s2, s3]⟩) ∧
    ∀ code, IsCode code → Client.decodePairingCode code = (decodePairingCode code).toOption.map Paired.shown ∧
      ∀ p, decodePairingCode code = .ok p → encodePairingCode p.ip p.port p.secret = formatPairingCode (cleanCode code) ∧
        cleanCode (encodePairingCode p.ip p.port p.secret) = cleanCode code := by
  refine ⟨fun ip a b c d port s1 s2 s3 hip => ?_, fun code hcode => ?_⟩
  · have hdecode := @decode_encode ip port a b c d s1 s2 s3 hip
    obtain ⟨ds, hlen, hlt, hcode, -⟩ := @encodePairingCode_eq ip port a b c d s1 s2 s3 hip
    refine ⟨⟨(ds.take 4).map digit, ((ds.drop 4).take 4).map digit, (ds.drop 8).map digit, ?_, ?_, ?_, ?_, hcode.trans (format_digits hlen)⟩,
      hdecode, ?_⟩
    · simp [hlen]
    · simp [hlen]
    · simp [hlen]
    · intro x hx
      have hdigits : ∀ part : List Nat, part ⊆ ds → x ∈ part.map digit → x ∈ base58Alphabet := by
        intro part hpart hx
        obtain ⟨d, hd, rfl⟩ := List.mem_map.1 hx
        exact digit_mem (hlt d (hpart hd))
      rcases List.mem_append.1 hx with hx | hx
      · rcases List.mem_append.1 hx with hx | hx
        · exact hdigits _ (List.take_subset _ _) hx
        · exact hdigits _ (List.Subset.trans (List.take_subset _ _) (List.drop_subset _ _)) hx
      · exact hdigits _ (List.drop_subset _ _) hx
    · have hclean := cleanCode_format hlen hlt
      rw [← hcode] at hclean
      have hclient : Client.cleanPairingInput (encodePairingCode ip port [s1, s2, s3]) = ds.map digit := by
        rw [cleanPairingInput_eq (by rw [hcode]; exact format_chars hlen hlt), hclean]
      rw [client_decodePairingCode hlt hlen hclean hclient, hdecode]
      rfl
  · obtain ⟨ds, hlen, hlt, hclean⟩ := hcode.digits
    refine ⟨client_decodePairingCode hlt hlen hclean ((cleanPairingInput_eq hcode.chars).trans hclean), fun p hp => ?_⟩
    have hencode := encode_decode hlen hlt hclean hp
    rw [hclean, hencode]
    exact ⟨rfl, cleanCode_format hlen hlt⟩

theorem pairing_codes_round_trip_tailnet :
    decodePairingCode (encodePairingCode [100, 64, 0, 2] 7860 [1, 2, 3]) = .ok ⟨[100, 64, 0, 2], 7860, [1, 2, 3]⟩ ∧
      Client.decodePairingCode " 1111/1111-1111\t1".toList = (decodePairingCode " 1111/1111-1111\t1".toList).toOption.map Paired.shown := by
  have hchars : " 1111/1111-1111\t1".toList.all (fun c => decide (c ∈ base58Alphabet ∨ c ∈ separators)) = true := by decide
  have hcode : IsCode " 1111/1111-1111\t1".toList :=
    ⟨fun c hc => of_decide_eq_true (List.all_eq_true.1 hchars c hc), by decide⟩
  exact ⟨(pairing_codes_round_trip.1 [100, 64, 0, 2] 100 64 0 2 7860 1 2 3 rfl).2.1, (pairing_codes_round_trip.2 _ hcode).1⟩

end Purdex.Pairing
