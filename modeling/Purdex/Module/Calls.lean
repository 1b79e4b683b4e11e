/-
The operations as the code calls them: the frames store's methods over its statements, the
identity gate over the process table, and the projections over one listing of the frames.
-/
import Purdex.Module.Ops

namespace Purdex.Module

open Purdex.Agent Purdex.Store Conc

/-- A piece of module code: a program that may return an error. -/
abbrev Code := ExceptT Err (Prog iface)

/-- A piece of module code that swallows its errors or has none. -/
abbrev Quiet := Prog iface

/-- A quiet piece of code where errors are returned. -/
def quiet {α : Type} (p : Quiet α) : Code α :=
  liftM p

/-! ## The frames store -/

def getByIdentity (i : Ident) : Code (Option Frame) :=
  ExceptT.mk (Prog.call (I := iface) (.getByIdentity i))

def findByPanePID (paneID : String) (pid : Int) : Code (Option Frame) :=
  ExceptT.mk (Prog.call (I := iface) (.findByPanePID paneID pid))

def listByPane (paneID : String) : Code (List Frame) :=
  ExceptT.mk (Prog.call (I := iface) (.listByPane paneID))

def deleteIfUnchanged (frameID : String) (lastSeenAt : Int) : Code Bool :=
  ExceptT.mk (Prog.call (I := iface) (.deleteIfUnchanged frameID lastSeenAt))

def updateRow (frame : Frame) (expectedLastSeenAt : Int) : Code Bool :=
  ExceptT.mk (Prog.call (I := iface) (.updateIfUnchanged frame expectedLastSeenAt))

/-- `some stored` when the row was still at the expected version, `none` on a conflict. -/
def upsertIfUnchanged (frame : Frame) (expectedLastSeenAt : Int) : Code (Option Frame) := do
  if frame.frameID = "" then
    throw .frameIDRequired
  if ← updateRow frame expectedLastSeenAt then
    match ← getByIdentity frame.ident with
    | some stored => return some stored
    | none => throw .noRows
  else
    return none

/-! ## The process table -/

def now : Quiet Int :=
  Prog.call (I := iface) .now

def isPidAlive (pid : Int) : Quiet Bool :=
  Prog.call (I := iface) (.isPidAlive pid)

def processStartTime (pid : Int) : Quiet (Except Err String) :=
  Prog.call (I := iface) (.processStartTime pid)

def readProcessInfo (pid : Int) : Quiet (Except Err ProcessInfo) :=
  Prog.call (I := iface) (.readProcessInfo pid)

/-- What the process table says about a process remembered with its start time. -/
inductive Gate where
  | dead
  | unreadable
  | reused
  | live
  deriving DecidableEq, Repr

/-- Liveness first, then the start time. -/
def identityGate (pid : Int) (startTime : String) : Quiet Gate := do
  if ← isPidAlive pid then
    match ← processStartTime pid with
    | .error _ => return .unreadable
    | .ok actualStart => return if actualStart = startTime then .live else .reused
  else
    return .dead

/-- The gate of a frame's process, when there is a frame. -/
def frameGate : Option Frame → Quiet Gate
  | some frame => identityGate frame.pid frame.processStartTime
  | none => return .dead

/-- The gate over a process table that stands still. -/
def Env.gate (env : Env) (pid : Int) (startTime : String) : Gate :=
  if env.isPidAlive pid then
    match env.processStartTime pid with
    | .error _ => .unreadable
    | .ok actualStart => if actualStart = startTime then .live else .reused
  else .dead

end Purdex.Module
