/-
The batcher of a terminal's output: what is written is gathered in a buffer, and handed on when there is enough of it, or when a timer
fires; the lock is let go while a chunk is handed on.
-/
import Purdex.Conc.Reach
import Mathlib.Data.List.Basic

namespace Purdex.Terminal

abbrev Bytes := List UInt8

/-! ## States -/

/-- Who flushes. -/
inductive Actor where
  | writer
  | timer (k : Nat)
  deriving Repr, DecidableEq

/-- How far an actor is. `waiting` is a timer whose callback runs, but has not got the lock; `flushing` has let go of the lock with a chunk
in hand and not called `onFlush` yet; `calling` is within that call, or takes the lock again behind it. -/
inductive Stage where
  | idle
  | armed
  | waiting
  | flushing
  | calling
  | stopped
  | done
  deriving Repr, DecidableEq

/-- `pending` has the chunks of the actors that are flushing, the one that was taken first in front. `taken` and `written` remember every
chunk that was taken, and everything that was written before the stop. -/
structure World where
  buf : Bytes
  timer : Option Nat
  stopped : Bool
  writer : Stage
  timers : List Stage
  pending : List (Actor × Bytes)
  calls : List Bytes
  taken : List Bytes
  written : Bytes
  deriving Repr, DecidableEq

namespace World

def initial : World := ⟨[], none, false, .idle, [], [], [], [], []⟩

def stage (w : World) : Actor → Option Stage
  | .writer => some w.writer
  | .timer k => w.timers[k]?

def setStage (a : Actor) (s : Stage) (w : World) : World :=
  { w with
    writer := match a with
      | .writer => s
      | .timer _ => w.writer
    timers := match a with
      | .writer => w.timers
      | .timer k => w.timers.set k s }

/-- `time.Timer.Stop`: a timer that has fired is not stopped. -/
def stopTimer (w : World) : World :=
  { w with timers := match w.timer with
      | some k => if w.timers[k]? = some .armed then w.timers.set k .stopped else w.timers
      | none => w.timers }

/-- Up to where it lets go of the lock; what the actor does otherwise, if there is nothing to flush. -/
def flushLocked (a : Actor) (otherwise : Stage) (w : World) : World :=
  if w.buf = [] then w.setStage a otherwise
  else { (w.stopTimer.setStage a .flushing) with
    buf := []
    timer := none
    pending := w.pending ++ [(a, w.buf)]
    taken := w.taken ++ [w.buf] }

def wrote (data : Bytes) (w : World) : World := { w with buf := w.buf ++ data, written := w.written ++ data }

/-- `time.AfterFunc`. -/
def afterFunc (w : World) : World := { w with timer := some w.timers.length, timers := w.timers ++ [.armed] }

end World

/-! ## Moves -/

inductive Move where
  | write (data : Bytes)
  | stop
  | fire (k : Nat)
  | acquire (k : Nat)
  | call (a : Actor)
  | return (a : Actor)
  deriving Repr, DecidableEq

/-- The writer writes and stops, one after the other. -/
def step (maxSize : Int) : Move → World → Option World
  | .write data, w =>
    if w.writer ≠ .idle then none
    else if w.stopped then some w
    else if maxSize ≤ (w.wrote data).buf.length then some ((w.wrote data).flushLocked .writer .idle)
    else if (w.wrote data).timer = none then some (w.wrote data).afterFunc
    else some (w.wrote data)
  | .stop, w =>
    if w.writer ≠ .idle then none
    else some ({ w with stopped := true }.stopTimer.flushLocked .writer .idle)
  | .fire k, w => if w.timers[k]? = some .armed then some (w.setStage (.timer k) .waiting) else none
  | .acquire k, w => if w.timers[k]? = some .waiting then some (w.flushLocked (.timer k) .done) else none
  | .call a, w => (w.pending.find? (·.1 = a)).map fun p =>
      { (w.setStage a .calling) with pending := w.pending.filter (·.1 ≠ a), calls := w.calls ++ [p.2] }
  | .return a, w =>
    if w.stage a = some .calling then some (w.setStage a (match a with | .writer => .idle | .timer _ => .done)) else none

/-- Everything a move can do. -/
inductive Stepped (maxSize : Int) (w : World) : Move → World → Prop where
  | ignored {data : Bytes} : w.writer = .idle → w.stopped = true → Stepped maxSize w (.write data) w
  | full {data : Bytes} : w.writer = .idle → w.stopped = false → maxSize ≤ (w.wrote data).buf.length →
      Stepped maxSize w (.write data) ((w.wrote data).flushLocked .writer .idle)
  | arms {data : Bytes} : w.writer = .idle → w.stopped = false → w.timer = none → Stepped maxSize w (.write data) (w.wrote data).afterFunc
  | gathers {data : Bytes} : w.writer = .idle → w.stopped = false → w.timer ≠ none → Stepped maxSize w (.write data) (w.wrote data)
  | stops : w.writer = .idle → Stepped maxSize w .stop ({ w with stopped := true }.stopTimer.flushLocked .writer .idle)
  | fires {k : Nat} : w.timers[k]? = some .armed → Stepped maxSize w (.fire k) (w.setStage (.timer k) .waiting)
  | acquires {k : Nat} : w.timers[k]? = some .waiting → Stepped maxSize w (.acquire k) (w.flushLocked (.timer k) .done)
  | calls {a : Actor} {p : Actor × Bytes} : w.pending.find? (·.1 = a) = some p → Stepped maxSize w (.call a)
      { (w.setStage a .calling) with pending := w.pending.filter (·.1 ≠ a), calls := w.calls ++ [p.2] }
  | returns {a : Actor} {s : Stage} : w.stage a = some .calling → (s = .idle ∨ s = .done) → Stepped maxSize w (.return a) (w.setStage a s)

theorem stepped_of_step {maxSize : Int} {m : Move} {w w' : World} (h : step maxSize m w = some w') : Stepped maxSize w m w' := by
  cases m with
  | write data =>
    simp only [step] at h
    split at h
    · cases h
    rename_i hidle
    have hwriter := not_not.1 hidle
    split at h
    · rename_i hstopped
      exact Option.some.inj h ▸ .ignored hwriter hstopped
    rename_i hstopped
    have hstopped := eq_false_of_ne_true hstopped
    split at h
    · rename_i hfull
      exact Option.some.inj h ▸ .full hwriter hstopped hfull
    split at h
    · rename_i htimer
      exact Option.some.inj h ▸ .arms hwriter hstopped htimer
    · rename_i htimer
      exact Option.some.inj h ▸ .gathers hwriter hstopped htimer
  | stop =>
    simp only [step] at h
    split at h
    · cases h
    · rename_i hidle
      exact Option.some.inj h ▸ .stops (not_not.1 hidle)
  | fire k =>
    simp only [step] at h
    split at h
    · rename_i harmed
      exact Option.some.inj h ▸ .fires harmed
    · cases h
  | acquire k =>
    simp only [step] at h
    split at h
    · rename_i hwaiting
      exact Option.some.inj h ▸ .acquires hwaiting
    · cases h
  | call a =>
    obtain ⟨p, hfind, rfl⟩ := Option.map_eq_some_iff.1 h
    exact .calls hfind
  | «return» a =>
    simp only [step] at h
    split at h
    · rename_i hcalling
      refine Option.some.inj h ▸ .returns hcalling ?_
      cases a with
      | writer => exact .inl rfl
      | timer k => exact .inr rfl
    · cases h

/-- What is written is not empty. -/
def Writes (_ : World) (m : Move) : Prop := m ≠ .write []

/-- A call begins for the chunk that was taken first of those whose calls have not begun. -/
def InTurn (w : World) (m : Move) : Prop := Writes w m ∧ ∀ a, m = .call a → (w.pending.head?).map Prod.fst = some a

end Purdex.Terminal
