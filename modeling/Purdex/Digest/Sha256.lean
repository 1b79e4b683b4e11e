/-
SHA-256 over a list of bytes, and its lowercase hexadecimal text.
-/
import Mathlib

namespace Digest

/-! ## Words -/

def rotr (n x : UInt32) : UInt32 := (x >>> n) ||| (x <<< (32 - n))

/-- A word of four bytes, the high one first. -/
def wordOf : List UInt8 → UInt32
  | [a, b, c, d] => (a.toUInt32 <<< 24) ||| (b.toUInt32 <<< 16) ||| (c.toUInt32 <<< 8) ||| d.toUInt32
  | _ => 0

def bytesOf (w : UInt32) : List UInt8 :=
  [(w >>> 24).toUInt8, (w >>> 16).toUInt8, (w >>> 8).toUInt8, w.toUInt8]

/-- The first `n` words of a message. -/
def wordsOf : Nat → List UInt8 → List UInt32
  | 0, _ => []
  | n + 1, bytes => wordOf (bytes.take 4) :: wordsOf n (bytes.drop 4)

/-! ## Padding -/

/-- The number of bits, as eight bytes. -/
def lengthBytes (n : Nat) : List UInt8 :=
  bytesOf (UInt32.ofNat (8 * n / 2 ^ 32)) ++ bytesOf (UInt32.ofNat (8 * n))

/-- A message with its marker, zeros and length, up to a whole number of blocks. -/
def pad (message : List UInt8) : List UInt8 :=
  message ++ 0x80 :: List.replicate ((119 - message.length % 64) % 64) 0 ++ lengthBytes message.length

/-! ## Compression -/

def roundConstants : List UInt32 :=
  [0x428a2f98, 0x71374491, 0xb5c0fbcf, 0xe9b5dba5, 0x3956c25b, 0x59f111f1, 0x923f82a4, 0xab1c5ed5,
   0xd807aa98, 0x12835b01, 0x243185be, 0x550c7dc3, 0x72be5d74, 0x80deb1fe, 0x9bdc06a7, 0xc19bf174,
   0xe49b69c1, 0xefbe4786, 0x0fc19dc6, 0x240ca1cc, 0x2de92c6f, 0x4a7484aa, 0x5cb0a9dc, 0x76f988da,
   0x983e5152, 0xa831c66d, 0xb00327c8, 0xbf597fc7, 0xc6e00bf3, 0xd5a79147, 0x06ca6351, 0x14292967,
   0x27b70a85, 0x2e1b2138, 0x4d2c6dfc, 0x53380d13, 0x650a7354, 0x766a0abb, 0x81c2c92e, 0x92722c85,
   0xa2bfe8a1, 0xa81a664b, 0xc24b8b70, 0xc76c51a3, 0xd192e819, 0xd6990624, 0xf40e3585, 0x106aa070,
   0x19a4c116, 0x1e376c08, 0x2748774c, 0x34b0bcb5, 0x391c0cb3, 0x4ed8aa4a, 0x5b9cca4f, 0x682e6ff3,
   0x748f82ee, 0x78a5636f, 0x84c87814, 0x8cc70208, 0x90befffa, 0xa4506ceb, 0xbef9a3f7, 0xc67178f2]

structure Chain where
  a : UInt32
  b : UInt32
  c : UInt32
  d : UInt32
  e : UInt32
  f : UInt32
  g : UInt32
  h : UInt32
  deriving DecidableEq

def start : Chain :=
  ⟨0x6a09e667, 0xbb67ae85, 0x3c6ef372, 0xa54ff53a, 0x510e527f, 0x9b05688c, 0x1f83d9ab, 0x5be0cd19⟩

/-- `n` more words of the schedule, newest first. -/
def extend : Nat → List UInt32 → List UInt32
  | 0, w => w
  | n + 1, w =>
    let s0 := let x := w.getD 14 0; rotr 7 x ^^^ rotr 18 x ^^^ (x >>> 3)
    let s1 := let x := w.getD 1 0; rotr 17 x ^^^ rotr 19 x ^^^ (x >>> 10)
    extend n ((w.getD 15 0 + s0 + w.getD 6 0 + s1) :: w)

def schedule (block : List UInt8) : List UInt32 := (extend 48 (wordsOf 16 block).reverse).reverse

def round (x : Chain) (k w : UInt32) : Chain :=
  let s1 := rotr 6 x.e ^^^ rotr 11 x.e ^^^ rotr 25 x.e
  let ch := (x.e &&& x.f) ^^^ ((x.e ^^^ 0xffffffff) &&& x.g)
  let t1 := x.h + s1 + ch + k + w
  let s0 := rotr 2 x.a ^^^ rotr 13 x.a ^^^ rotr 22 x.a
  let maj := (x.a &&& x.b) ^^^ (x.a &&& x.c) ^^^ (x.b &&& x.c)
  ⟨t1 + (s0 + maj), x.a, x.b, x.c, x.d + t1, x.e, x.f, x.g⟩

def compress (x : Chain) (block : List UInt8) : Chain :=
  let y := (roundConstants.zip (schedule block)).foldl (fun y (k, w) => round y k w) x
  ⟨x.a + y.a, x.b + y.b, x.c + y.c, x.d + y.d, x.e + y.e, x.f + y.f, x.g + y.g, x.h + y.h⟩

/-- The chain after `n` blocks. -/
def absorb : Nat → Chain → List UInt8 → Chain
  | 0, x, _ => x
  | n + 1, x, bytes => absorb n (compress x (bytes.take 64)) (bytes.drop 64)

/-! ## Digests -/

def sum256 (message : List UInt8) : List UInt8 :=
  let padded := pad message
  let x := absorb (padded.length / 64) start padded
  [x.a, x.b, x.c, x.d, x.e, x.f, x.g, x.h].flatMap bytesOf

def hexDigit (n : Nat) : Char := "0123456789abcdef".toList.getD n '0'

def encodeToString (bytes : List UInt8) : String :=
  String.ofList (bytes.flatMap fun b => [hexDigit (b.toNat / 16), hexDigit (b.toNat % 16)])

def sha256Hex (message : List UInt8) : String := encodeToString (sum256 message)

/-- A character that `hexDigit` gives. -/
def IsHexDigit (c : Char) : Prop := ('0' ≤ c ∧ c ≤ '9') ∨ ('a' ≤ c ∧ c ≤ 'f')

instance (c : Char) : Decidable (IsHexDigit c) := inferInstanceAs (Decidable (_ ∨ _))

theorem isHexDigit_hexDigit (n : Nat) : IsHexDigit (hexDigit n) := by
  unfold hexDigit
  rcases Nat.lt_or_ge n 16 with h | h
  · have hall : ∀ k < 16, IsHexDigit ("0123456789abcdef".toList.getD k '0') := by decide
    exact hall n h
  · rw [List.getD_eq_getElem?_getD, List.getElem?_eq_none (by simpa using h)]
    decide

theorem length_sum256 (message : List UInt8) : (sum256 message).length = 32 := rfl

theorem toList_sha256Hex (message : List UInt8) : (sha256Hex message).toList =
    (sum256 message).flatMap fun b => [hexDigit (b.toNat / 16), hexDigit (b.toNat % 16)] := String.toList_ofList

/-- A digest is written in 64 characters. -/
theorem length_sha256Hex (message : List UInt8) : (sha256Hex message).toList.length = 64 := by
  rw [toList_sha256Hex, List.length_flatMap]
  simp [length_sum256]

theorem isHexDigit_of_mem {message : List UInt8} {c : Char} (h : c ∈ (sha256Hex message).toList) : IsHexDigit c := by
  rw [toList_sha256Hex] at h
  obtain ⟨b, _, hc⟩ := List.mem_flatMap.1 h
  rcases List.mem_cons.1 hc with rfl | hc
  · exact isHexDigit_hexDigit _
  · rw [List.mem_singleton.1 hc]
    exact isHexDigit_hexDigit _

example : sha256Hex [0x61, 0x62, 0x63] = "ba7816bf8f01cfea414140de5dae2223b00361a396177a9cb410ff61f20015ad" := by
  decide +kernel

end Digest
