/-
Buffered channels: a send that does not wait, a close, and a receive. A send on a closed channel
and a second close panic.
-/
import Mathlib.Data.List.Infix

namespace Conc

variable {α : Type}

/-- All that ever went in, how much of it was taken out again, and whether it is closed. -/
structure Chan (α : Type) where
  sent : List α
  taken : Nat
  cap : Nat
  closed : Bool
  deriving Repr, DecidableEq

inductive ChanPanic where
  | sendOnClosed
  | closeOfClosed
  deriving Repr, DecidableEq

namespace Chan

def make (cap : Nat) : Chan α := ⟨[], 0, cap, false⟩

def buffer (c : Chan α) : List α := c.sent.drop c.taken

def received (c : Chan α) : List α := c.sent.take c.taken

/-- `select { case c <- a: default: }` -/
def trySend (a : α) (c : Chan α) : Except ChanPanic (Chan α) :=
  if c.closed then .error .sendOnClosed
  else if c.buffer.length < c.cap then .ok { c with sent := c.sent ++ [a] }
  else .ok c

def close (c : Chan α) : Except ChanPanic (Chan α) :=
  if c.closed then .error .closeOfClosed else .ok { c with closed := true }

/-- What is in a channel can be received, also when it is closed. -/
def recv (c : Chan α) : Chan α := { c with taken := min (c.taken + 1) c.sent.length }

variable {a : α} {c c' : Chan α}

theorem trySend_open (h : c.closed = false) : c.trySend a = .ok (if c.buffer.length < c.cap then { c with sent := c.sent ++ [a] } else c) := by
  rw [trySend, if_neg (by simp [h])]
  split <;> rfl

theorem trySend_closed (h : c.closed = true) : c.trySend a = .error .sendOnClosed := if_pos h

theorem close_open (h : c.closed = false) : c.close = .ok { c with closed := true } := if_neg (by simp [h])

/-- What was received is the start of what went in. -/
theorem received_prefix (c : Chan α) : c.received <+: c.sent := List.take_prefix ..

end Chan

/-! ## Tables of channels -/

section Tables

variable {β γ : Type} {xs : List β} {x x' : β} {i : Nat}

/-- What a goroutine does with the `i`-th entry of a table. -/
def runAt (xs : List β) (i : Nat) (run : β → Except ChanPanic β) : Except ChanPanic (List β) :=
  match xs[i]? with
  | none => .ok xs
  | some x => (run x).map (xs.set i ·)

theorem runAt_ok {run : β → Except ChanPanic β} (hget : xs[i]? = some x) (hrun : run x = .ok x') : runAt xs i run = .ok (xs.set i x') := by
  rw [runAt, hget]
  dsimp only
  rw [hrun]
  rfl

theorem getElem?_set_of_some {y : β} (hget : xs[i]? = some x) (j : Nat) : (xs.set i y)[j]? = if i = j then some y else xs[j]? := by
  rw [List.getElem?_set]
  split
  · rw [if_pos (List.getElem?_eq_some_iff.1 hget).1]
  · rfl

theorem getElem?_append_of_some (hget : xs[i]? = some x) : (xs ++ [x'])[i]? = some x := by
  rw [List.getElem?_append_left (List.getElem?_eq_some_iff.1 hget).1, hget]

/-- An entry of a table that grew by one is an old one, or the new one at its end. -/
theorem of_getElem?_append (hget : (xs ++ [x'])[i]? = some x) : xs[i]? = some x ∨ i = xs.length ∧ x = x' := by
  rw [List.getElem?_append] at hget
  split at hget
  · exact .inl hget
  · obtain ⟨hi, rfl⟩ := List.getElem?_eq_some_iff.1 hget
    exact .inr ⟨by simp at hi; omega, by simp⟩

theorem forall_mem_set {P : β → Prop} (hall : ∀ y ∈ xs, P y) (hx' : P x') : ∀ y ∈ xs.set i x', P y := fun y hy => by
  rcases List.mem_or_eq_of_mem_set hy with hy | rfl
  · exact hall y hy
  · exact hx'

/-- What holds of all entries but the one that was replaced. -/
theorem forall_mem_of_set {P : β → Prop} (hget : xs[i]? = some x) (hall : ∀ y ∈ xs.set i x', P y) (hx : P x) : ∀ y ∈ xs, P y := fun y hy => by
  obtain ⟨j, hj⟩ := List.mem_iff_getElem?.1 hy
  by_cases hij : i = j
  · subst hij
    obtain rfl := Option.some.inj (hget.symm.trans hj)
    exact hx
  · exact hall y (List.mem_of_getElem? ((getElem?_set_of_some hget j).trans ((if_neg hij).trans hj)))

theorem mem_set_of_some (hget : xs[i]? = some x) : x' ∈ xs.set i x' :=
  List.mem_of_getElem? ((getElem?_set_of_some hget i).trans (if_pos rfl))

/-- What `f` reads of the entries does not change when one is replaced by one that reads the same. -/
theorem map_set_of_eq {f : β → γ} (hget : xs[i]? = some x) (hf : f x' = f x) : (xs.set i x').map f = xs.map f := by
  rw [List.map_set, hf]
  refine List.ext_getElem? fun j => ?_
  rw [List.getElem?_set, List.getElem?_map, List.length_map]
  split
  · rename_i hij
    subst hij
    rw [if_pos (List.getElem?_eq_some_iff.1 hget).1, hget]
    rfl
  · rfl

/-- An entry reads as one that stood there before. -/
theorem getElem?_of_map_eq {xs' : List β} {f : β → γ} (heq : xs'.map f = xs.map f) (hget : xs'[i]? = some x') : ∃ x, xs[i]? = some x ∧ f x = f x' := by
  have hmap : (xs.map f)[i]? = some (f x') := by rw [← heq, List.getElem?_map, hget]; rfl
  rw [List.getElem?_map, Option.map_eq_some_iff] at hmap
  exact hmap

end Tables

end Conc
