/-
Patterns with wildcards as `filepath.Match` reads them: their terms, and the names that they match.
-/
import Mathlib.Data.List.Basic

namespace Glob

/-! ## Patterns -/

inductive Term
  | star
  | any
  | char (c : Char)
  | ranges (negated : Bool) (l : List (Char × Char))
  deriving Repr, DecidableEq

/-- How the next character of a pattern is read: within brackets ranges are read one after another, from a first to a last character. -/
inductive Mode
  | plain
  | escaped
  | opened
  | low (negated : Bool) (done : List (Char × Char))
  | lowEscaped (negated : Bool) (done : List (Char × Char))
  | behindLow (negated : Bool) (done : List (Char × Char)) (lo : Char)
  | high (negated : Bool) (done : List (Char × Char)) (lo : Char)
  | highEscaped (negated : Bool) (done : List (Char × Char)) (lo : Char)
  deriving Repr, DecidableEq

structure Reader where
  mode : Mode
  terms : List Term
  deriving DecidableEq

def Reader.push (r : Reader) (t : Term) : Reader := ⟨.plain, r.terms ++ [t]⟩

/-- A range begins, or the brackets end behind one. -/
def Reader.begin (r : Reader) (negated : Bool) (done : List (Char × Char)) (c : Char) : Option Reader :=
  if c = ']' then (if done = [] then none else some (r.push (.ranges negated done)))
  else if c = '-' then none
  else if c = '\\' then some { r with mode := .lowEscaped negated done }
  else some { r with mode := .behindLow negated done c }

def Reader.step (r : Reader) (c : Char) : Option Reader :=
  match r.mode with
  | .plain =>
    if c = '*' then some (r.push .star)
    else if c = '?' then some (r.push .any)
    else if c = '[' then some { r with mode := .opened }
    else if c = '\\' then some { r with mode := .escaped }
    else some (r.push (.char c))
  | .escaped => some (r.push (.char c))
  | .opened => if c = '^' then some { r with mode := .low true [] } else r.begin false [] c
  | .low negated done => r.begin negated done c
  | .lowEscaped negated done => some { r with mode := .behindLow negated done c }
  | .behindLow negated done lo =>
    if c = '-' then some { r with mode := .high negated done lo } else r.begin negated (done ++ [(lo, lo)]) c
  | .high negated done lo =>
    if c = '-' ∨ c = ']' then none
    else if c = '\\' then some { r with mode := .highEscaped negated done lo }
    else some { r with mode := .low negated (done ++ [(lo, c)]) }
  | .highEscaped negated done lo => some { r with mode := .low negated (done ++ [(lo, c)]) }

/-- `none` is a pattern that is malformed. -/
def parse (pattern : String) : Option (List Term) :=
  (pattern.toList.foldlM Reader.step ⟨.plain, []⟩).bind fun r => if r.mode = .plain then some r.terms else none

/-! ## Matching -/

/-- Behind some characters, none of which is a slash. -/
def skipping (rest : List Char → Bool) : List Char → Bool
  | [] => rest []
  | c :: s => rest (c :: s) || (c ≠ '/' && skipping rest s)

def matchTerms : List Term → List Char → Bool
  | [], s => s.isEmpty
  | .star :: ts, s => skipping (matchTerms ts) s
  | _ :: _, [] => false
  | .any :: ts, c :: s => c ≠ '/' && matchTerms ts s
  | .char d :: ts, c :: s => c = d && matchTerms ts s
  | .ranges negated l :: ts, c :: s => (l.any (fun (lo, hi) => lo ≤ c ∧ c ≤ hi) != negated) && matchTerms ts s

/-- A malformed pattern matches nothing. -/
def isMatch (pattern name : String) : Bool := (parse pattern).any fun ts => matchTerms ts name.toList

section Matching

variable {pattern name : String} {s l : List Char} {rest : List Char → Bool}

end Matching

example : ["a[b-d]?", "[^a-c]\\*x", "a[", "[]a]"].map (isMatch · "acx") = [true, false, false, false] := by decide

end Glob
