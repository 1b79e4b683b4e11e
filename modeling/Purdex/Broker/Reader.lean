/-
What the broker's answer is read into: the headers, the length they declare, and as much of the body.
-/
import Purdex.Broker.Types
import Purdex.Runtime.Daemon
import Purdex.Text.Lines
import Purdex.Text.Numeral

namespace Purdex.Broker

open Lines
open Purdex.Runtime (trimSpace)

/-! ## Bytes and runes -/

def isCont (b : UInt8) : Bool := 0x80 ≤ b ∧ b ≤ 0xBF

/-- The second byte of a rune of three bytes. -/
def isSecond3 (b0 b1 : UInt8) : Bool :=
  if b0 = 0xE0 then 0xA0 ≤ b1 ∧ b1 ≤ 0xBF else if b0 = 0xED then 0x80 ≤ b1 ∧ b1 ≤ 0x9F else 0xE1 ≤ b0 ∧ b0 ≤ 0xEF ∧ isCont b1

/-- The second byte of a rune of four bytes. -/
def isSecond4 (b0 b1 : UInt8) : Bool :=
  if b0 = 0xF0 then 0x90 ≤ b1 ∧ b1 ≤ 0xBF else if b0 = 0xF4 then 0x80 ≤ b1 ∧ b1 ≤ 0x8F else 0xF1 ≤ b0 ∧ b0 ≤ 0xF3 ∧ isCont b1

def runeError : Char := '\uFFFD'

def low6 (b : UInt8) : Nat := b.toNat % 64

/-- The runes of a string; a byte that begins none stands for the error rune. -/
def runes : List UInt8 → List Char
  | [] => []
  | b0 :: rest =>
    if b0 < 0x80 then Char.ofNat b0.toNat :: runes rest
    else match rest with
      | [] => [runeError]
      | b1 :: rest1 =>
        if 0xC2 ≤ b0 ∧ b0 ≤ 0xDF ∧ isCont b1 = true then Char.ofNat (b0.toNat % 32 * 64 + low6 b1) :: runes rest1
        else match rest1 with
          | [] => runeError :: runes (b1 :: [])
          | b2 :: rest2 =>
            if isSecond3 b0 b1 = true ∧ isCont b2 = true then Char.ofNat ((b0.toNat % 16 * 64 + low6 b1) * 64 + low6 b2) :: runes rest2
            else match rest2 with
              | [] => runeError :: runes (b1 :: b2 :: [])
              | b3 :: rest3 =>
                if isSecond4 b0 b1 = true ∧ isCont b2 = true ∧ isCont b3 = true then
                  Char.ofNat (((b0.toNat % 8 * 64 + low6 b1) * 64 + low6 b2) * 64 + low6 b3) :: runes rest3
                else runeError :: runes (b1 :: b2 :: b3 :: rest3)

/-! ## Numbers -/

/-- An `int` of 64 bits. -/
def wrapInt (n : Int) : Int := n.bmod (2 ^ 64)

def isDigit (c : Char) : Bool := '0' ≤ c ∧ c ≤ '9'

def digit (c : Char) : Nat := c.toNat - 48

def atoiLoop : Int → List Char → Option Int
  | n, [] => some n
  | n, c :: s => if isDigit c = false then none else atoiLoop (wrapInt (n * 10 + digit c)) s

def atoi (s : List Char) : Option Int := atoiLoop 0 s

/-! ## Headers -/

def lf : UInt8 := 10

/-- `ReadString('\n')` got to the end of the line. -/
def terminated (line : List UInt8) : Bool := line.getLast? = some lf

/-- `strings.TrimRight(line, "\r\n")`. -/
def trimEnd (line : List UInt8) : List UInt8 := (line.reverse.dropWhile fun b => b = 13 ∨ b = lf).reverse

/-- The value of a header line of that name, which is one with a colon that is not at its start. -/
def lengthHeader (trim : List UInt8) : Option (List Char) :=
  match trim.idxOf? 58 with
  | none => none
  | some eq =>
    if eq = 0 then none
    else if toLower (trimSpace (String.ofList (runes (trim.take eq)))) = "content-length" then
      some (trimSpace (String.ofList (runes (trim.drop (eq + 1))))).toList
    else none

/-- The last length that was understood, and what comes behind the empty line. -/
def headerLoop : List (List UInt8) → Int → Option (Int × List UInt8)
  | [], _ => none
  | line :: rest, contentLength =>
    if terminated line = false then none
    else if trimEnd line = [] then some (contentLength, rest.flatten)
    else match lengthHeader (trimEnd line) with
      | none => headerLoop rest contentLength
      | some val => headerLoop rest ((atoi val).getD contentLength)

/-! ## The body -/

inductive Reading where
  | body (bytes : List UInt8)
  | failed
  /-- `make` with a length that is out of range -/
  | panicked
  deriving DecidableEq

/-- `maxAlloc` is the greatest length that `make` can allocate. -/
def readHTTPBody (maxAlloc : Nat) (stream : List UInt8) : Reading :=
  match splitLines lf stream with
  | [] => .failed
  | status :: lines =>
    if terminated status = false then .failed
    else match headerLoop lines (-1) with
      | none => .failed
      | some (contentLength, rest) =>
        if 0 ≤ contentLength then
          if maxAlloc < contentLength then .panicked
          else if rest.length < contentLength then .failed
          else .body (rest.take contentLength.toNat)
        else .body rest

/-! ## Digits and what they wrap to -/

def allDigits (s : List Char) : Bool := s.all isDigit

/-- The number that the digits are, however many. -/
def number (s : List Char) : Nat := Numeral.value 10 (s.map digit)

theorem wrapInt_step (m : Int) (d : Nat) : wrapInt (wrapInt m * 10 + d) = wrapInt (m * 10 + d) := by
  unfold wrapInt
  rw [← Int.bmod_add_bmod, Int.bmod_mul_bmod, Int.bmod_add_bmod]

theorem atoiLoop_eq (m : Int) (s : List Char) : atoiLoop (wrapInt m) s =
    if allDigits s = true then some (wrapInt ((s.map digit).foldl (fun (n : Int) (d : Nat) => n * 10 + d) m)) else none := by
  induction s generalizing m with
  | nil => rfl
  | cons c s ih =>
    rw [atoiLoop, allDigits, List.all_cons]
    cases hc : isDigit c with
    | false => rfl
    | true =>
      rw [if_neg (by decide), wrapInt_step, ih, Bool.true_and]
      rfl

theorem atoi_eq (s : List Char) : atoi s = if allDigits s = true then some (wrapInt (number s)) else none := by
  have hcast : ∀ (l : List Nat) (n : Nat),
      l.foldl (fun (n : Int) (d : Nat) => n * 10 + d) (n : Int) = ((l.foldl (fun n d => n * 10 + d) n : Nat) : Int) := by
    intro l
    induction l with
    | nil => exact fun _ => rfl
    | cons d l ih =>
      intro n
      rw [List.foldl_cons, List.foldl_cons, ← ih]
      push_cast
      rfl
  have hloop := atoiLoop_eq 0 s
  rw [show (0 : Int) = (0 : Nat) from rfl, hcast] at hloop
  exact hloop

/-- The number itself fits exactly below two to the sixty-third. -/
theorem wrapInt_eq_iff (n : Nat) : wrapInt n = n ↔ n < 2 ^ 63 := by
  have hbound : wrapInt n < 2 ^ 63 := by
    have := @Int.bmod_lt n (2 ^ 64) (by decide)
    unfold wrapInt
    omega
  constructor
  · intro heq
    rw [heq] at hbound
    exact_mod_cast hbound
  · intro hlt
    refine Int.bmod_eq_of_le ?_ ?_ <;> omega

/-! ## What was declared -/

/-- The lines behind the status line. -/
def headerLines (stream : List UInt8) : List (List UInt8) :=
  match splitLines lf stream with
  | [] => []
  | status :: lines => if terminated status = false then [] else lines

/-- The values of the headers that declare a length. -/
def lengthValues : List (List UInt8) → List (List Char)
  | [] => []
  | line :: rest =>
    if terminated line = false then []
    else if trimEnd line = [] then []
    else match lengthHeader (trimEnd line) with
      | none => lengthValues rest
      | some val => val :: lengthValues rest

/-- What comes behind the empty line, if it comes. -/
def bodyOf : List (List UInt8) → Option (List UInt8)
  | [] => none
  | line :: rest =>
    if terminated line = false then none
    else if trimEnd line = [] then some rest.flatten
    else bodyOf rest

theorem headerLoop_eq (lines : List (List UInt8)) (n : Int) : headerLoop lines n =
    (bodyOf lines).map fun rest => ((lengthValues lines).foldl (fun n val => (atoi val).getD n) n, rest) := by
  induction lines generalizing n with
  | nil => rfl
  | cons line rest ih =>
    rw [headerLoop, bodyOf, lengthValues]
    split
    · rfl
    · split
      · rfl
      · cases lengthHeader (trimEnd line) with
        | none => exact ih n
        | some val => exact ih _

/-- The last of them that is a number. -/
def declared (stream : List UInt8) : Option Nat := (((lengthValues (headerLines stream)).filter allDigits).getLast?).map number

theorem foldl_atoi (values : List (List Char)) (n : Int) : values.foldl (fun n val => (atoi val).getD n) n =
    ((values.filter allDigits).getLast?).elim n fun val => wrapInt (number val) := by
  induction values using List.reverseRecOn with
  | nil => rfl
  | append_singleton values val ih =>
    rw [List.foldl_append, ih, List.filter_append, List.foldl_cons, List.foldl_nil, atoi_eq]
    cases hval : allDigits val with
    | true =>
      have hone : [val].filter allDigits = [val] := List.filter_cons_of_pos hval
      rw [hone, List.getLast?_concat]
      rfl
    | false =>
      have hnone : [val].filter allDigits = [] := List.filter_cons_of_neg (by simp [hval])
      rw [hnone, List.append_nil]
      rfl

/-- The length that the body is read with: what was declared, as it wraps, and -1 if nothing was. -/
theorem headers_eq (stream : List UInt8) : headerLoop (headerLines stream) (-1) =
    (bodyOf (headerLines stream)).map fun rest => ((declared stream).elim (-1) fun v => wrapInt v, rest) := by
  rw [headerLoop_eq, foldl_atoi, declared]
  cases ((lengthValues (headerLines stream)).filter allDigits).getLast? <;> rfl

theorem readHTTPBody_eq (maxAlloc : Nat) (stream : List UInt8) : readHTTPBody maxAlloc stream =
    match headerLoop (headerLines stream) (-1) with
    | none => .failed
    | some (contentLength, rest) =>
      if 0 ≤ contentLength then
        if maxAlloc < contentLength then .panicked
        else if rest.length < contentLength then .failed
        else .body (rest.take contentLength.toNat)
      else .body rest := by
  rw [readHTTPBody, headerLines]
  split
  · rfl
  · split
    · rfl
    · rfl

/-- The reader goes by the lengths as they are, allocates no more than was declared and can be had, and ends in an error or a body of that length. -/
structure ReadsSafely (maxAlloc : Nat) (stream : List UInt8) : Prop where
  exact : ∀ val ∈ lengthValues (headerLines stream), ∀ n, atoi val = some n → n = number val
  allocation : ∀ n rest, headerLoop (headerLines stream) (-1) = some (n, rest) → 0 ≤ n → n ≤ maxAlloc ∧ ∃ v, declared stream = some v ∧ n = v
  outcome : readHTTPBody maxAlloc stream = .failed ∨ ∃ bytes, readHTTPBody maxAlloc stream = .body bytes ∧ ∀ v ∈ declared stream, bytes.length = v

theorem wrapInt_number {val : List Char} {v : Nat} (h : number val = v) (hlt : number val < 2 ^ 63) : wrapInt v = v := by
  rw [← h]
  exact (wrapInt_eq_iff _).2 hlt

/-- Every length is less than two to the sixty-third, and the one that is used can be allocated. -/
structure InRange (maxAlloc : Nat) (stream : List UInt8) : Prop where
  values : ∀ val ∈ lengthValues (headerLines stream), allDigits val = true → number val < 2 ^ 63
  length : (bodyOf (headerLines stream)).isSome → ∀ v ∈ declared stream, v ≤ maxAlloc

theorem mem_values_of_declared {stream : List UInt8} {v : Nat} (h : declared stream = some v) :
    ∃ val ∈ lengthValues (headerLines stream), allDigits val = true ∧ number val = v := by
  obtain ⟨val, hlast, rfl⟩ := Option.map_eq_some_iff.1 h
  obtain ⟨hmem, hdigits⟩ := List.mem_filter.1 (List.mem_of_getLast? hlast)
  exact ⟨val, hmem, hdigits, rfl⟩

/-- What was declared is what the body is read with. -/
theorem InRange.headers {maxAlloc : Nat} {stream : List UInt8} (h : InRange maxAlloc stream) :
    headerLoop (headerLines stream) (-1) = (bodyOf (headerLines stream)).map fun rest => ((declared stream).elim (-1) fun v => (v : Int), rest) := by
  rw [headers_eq]
  cases hv : declared stream with
  | none => rw [Option.elim_none, Option.elim_none]
  | some v =>
    obtain ⟨val, hval, hdigits, hnumber⟩ := mem_values_of_declared hv
    rw [Option.elim_some, Option.elim_some, wrapInt_number hnumber (h.values val hval hdigits)]

theorem InRange.exact {maxAlloc : Nat} {stream : List UInt8} (h : InRange maxAlloc stream) :
    ∀ val ∈ lengthValues (headerLines stream), ∀ n, atoi val = some n → n = number val := by
  intro val hval n hatoi
  rw [atoi_eq] at hatoi
  split at hatoi
  · rename_i hdigits
    rw [← Option.some.inj hatoi]
    exact wrapInt_number rfl (h.values val hval hdigits)
  · cases hatoi

theorem InRange.allocation {maxAlloc : Nat} {stream : List UInt8} (h : InRange maxAlloc stream) {n : Int} {rest : List UInt8}
    (hheaders : headerLoop (headerLines stream) (-1) = some (n, rest)) (hpos : 0 ≤ n) :
    n ≤ maxAlloc ∧ ∃ v, declared stream = some v ∧ n = v := by
  rw [h.headers] at hheaders
  obtain ⟨rest', hbody, heq⟩ := Option.map_eq_some_iff.1 hheaders
  have hn := (Prod.mk.inj heq).1
  cases hv : declared stream with
  | none =>
    rw [hv, Option.elim_none] at hn
    omega
  | some v =>
    rw [hv, Option.elim_some] at hn
    have hle := h.length (Option.isSome_of_eq_some hbody) v hv
    exact ⟨by omega, v, rfl, hn.symm⟩

theorem InRange.outcome {maxAlloc : Nat} {stream : List UInt8} (h : InRange maxAlloc stream) :
    readHTTPBody maxAlloc stream = .failed ∨ ∃ bytes, readHTTPBody maxAlloc stream = .body bytes ∧ ∀ v ∈ declared stream, bytes.length = v := by
  rw [readHTTPBody_eq, h.headers]
  cases hbody : bodyOf (headerLines stream) with
  | none => exact .inl rfl
  | some rest =>
    cases hv : declared stream with
    | none => exact .inr ⟨rest, rfl, fun v hv => by cases hv⟩
    | some v =>
      have hle := h.length (Option.isSome_of_eq_some hbody) v hv
      simp only [Option.map_some, Option.elim_some]
      rw [if_pos (Int.natCast_nonneg v), if_neg (by omega)]
      split
      · exact .inl rfl
      · rename_i hlong
        refine .inr ⟨_, rfl, fun v' hv' => ?_⟩
        cases hv'
        rw [Int.toNat_natCast, List.length_take]
        omega

/-- `Content-Length: ` and two to the sixty-fourth and one more. -/
def wrappingHeader : List UInt8 :=
  [67, 111, 110, 116, 101, 110, 116, 45, 76, 101, 110, 103, 116, 104, 58, 32, 49, 56, 52, 52, 54, 55, 52, 52, 48, 55, 51, 55, 48, 57, 53, 53, 49, 54, 49, 55, 13, 10]

/-- An answer with that header and the body `ab`. -/
def wrappingAnswer : List UInt8 := [72, 84, 84, 80, 47, 49, 46, 49, 32, 50, 48, 48, 13, 10] ++ wrappingHeader ++ [13, 10] ++ [97, 98]

theorem wrapping_lines : headerLines wrappingAnswer = [wrappingHeader, [13, 10], [97, 98]] := by decide

theorem wrapping_value : lengthHeader (trimEnd wrappingHeader) = some "18446744073709551617".toList := by decide

end Purdex.Broker
