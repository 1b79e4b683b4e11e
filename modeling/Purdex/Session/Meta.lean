/-
What the daemon keeps of a session beside tmux: one row of mode, agent session and model, and the handlers that read,
create, change and clean up rows, each a program of single statements.
-/
import Purdex.Conc.Pool
import Purdex.Store.Frames
import Purdex.Store.Keyed
import Mathlib

namespace Purdex.Session

open Conc
open Purdex.Store (Err)

/-! ## Rows -/

structure SessionMeta where
  mode : String
  ccSessionID : String
  ccModel : String
  cwd : String
  deriving Repr, DecidableEq

structure MetaUpdate where
  mode : Option String
  ccSessionID : Option String
  ccModel : Option String
  cwd : Option String
  deriving Repr, DecidableEq

/-- The columns of a row. -/
inductive MetaField where
  | mode
  | ccSessionID
  | ccModel
  | cwd
  deriving Repr, DecidableEq

def SessionMeta.get (row : SessionMeta) : MetaField → String
  | .mode => row.mode
  | .ccSessionID => row.ccSessionID
  | .ccModel => row.ccModel
  | .cwd => row.cwd

def MetaUpdate.get (update : MetaUpdate) : MetaField → Option String
  | .mode => update.mode
  | .ccSessionID => update.ccSessionID
  | .ccModel => update.ccModel
  | .cwd => update.cwd

/-- Only what is given is written. -/
def MetaUpdate.apply (update : MetaUpdate) (row : SessionMeta) : SessionMeta :=
  ⟨update.mode.getD row.mode, update.ccSessionID.getD row.ccSessionID, update.ccModel.getD row.ccModel, update.cwd.getD row.cwd⟩

/-- An update without a `SET` clause. -/
def MetaUpdate.none : MetaUpdate := ⟨Option.none, Option.none, Option.none, Option.none⟩

/-- A session as tmux lists it; its id is `$` and the number. -/
structure LiveSession where
  id : Nat
  name : String
  cwd : String
  deriving Repr, DecidableEq

structure SessionInfo where
  code : String
  tmuxID : Nat
  name : String
  mode : String
  cwd : String
  ccSessionID : String
  ccModel : String
  deriving Repr, DecidableEq

/-- The row of a session merged into what tmux says, whose directory counts. -/
def sessionInfo (code : String) (s : LiveSession) (row : Option SessionMeta) : SessionInfo :=
  match row with
  | none => ⟨code, s.id, s.name, "terminal", s.cwd, "", ""⟩
  | some row => ⟨code, s.id, s.name, row.mode, s.cwd, row.ccSessionID, row.ccModel⟩

/-! ## Codes -/

/-- 36 ^ 6 -/
def codeSpace : Nat := 2176782336

def digitChar36 (d : Nat) : Char := Char.ofNat (if d < 10 then 48 + d else 87 + d)

/-- Six digits to base 36, with zeros in front. -/
def encodeSessionID (n : Nat) : Option String :=
  if codeSpace ≤ n then none
  else
    let scrambled := (n * 1640531527 + 1013904223) % codeSpace
    some (String.ofList ([5, 4, 3, 2, 1, 0].map fun i => digitChar36 (scrambled / 36 ^ i % 36)))

/-- A digit to base 36, in either case. -/
def digit36 (c : Char) : Option Nat :=
  if c.isDigit then some (c.toNat - 48)
  else if c.isLower then some (c.toNat - 87)
  else if c.isUpper then some (c.toNat - 55)
  else none

def decodeSessionID (code : String) : Option Nat :=
  if code.utf8ByteSize ≠ 6 then none
  else (code.toList.mapM digit36).map fun digits =>
    let scrambled := digits.foldl (fun n d => n * 36 + d) 0
    (codeSpace + scrambled - 1013904223) % codeSpace * 1777800055 % codeSpace

/-! ## Statements -/

/-- The live sessions with the next free id, the rows, and whether tmux and the database answer. -/
structure MetaState where
  sessions : List LiveSession
  nextID : Nat
  rows : Keyed Nat SessionMeta
  tmuxFault : Option Err
  dbFault : Option Err

inductive MetaOp where
  | listSessions
  | hasSession (name : String)
  | newSession (name cwd : String)
  | getMeta (id : Nat)
  | setMeta (id : Nat) (row : SessionMeta)
  | updateMeta (id : Nat) (update : MetaUpdate)
  | deleteMeta (id : Nat)
  | cleanOrphans (live : List Nat)
  | resetStaleModes
  | answer (r : Except Err (Option SessionInfo))
  deriving DecidableEq

@[reducible] def MetaOp.Res : MetaOp → Type
  | .listSessions => Except Err (List LiveSession)
  | .hasSession _ => Bool
  | .getMeta _ => Except Err (Option SessionMeta)
  | .answer _ => Unit
  | _ => Except Err Unit

@[reducible] def metaIface : Iface := ⟨MetaOp, MetaOp.Res⟩

/-- A statement fails as a whole. -/
def MetaState.statement (s : MetaState) (rows : Keyed Nat SessionMeta) : Except Err Unit × MetaState :=
  match s.dbFault with
  | some e => (.error e, s)
  | none => (.ok (), { s with rows })

def MetaOp.exec : (o : MetaOp) → MetaState → o.Res × MetaState
  | .listSessions, s =>
    match s.tmuxFault with
    | some e => (.error e, s)
    | none => (.ok s.sessions, s)
  | .hasSession name, s => (s.tmuxFault.isNone && s.sessions.any (·.name == name), s)
  | .newSession name cwd, s =>
    match s.tmuxFault with
    | some e => (.error e, s)
    | none =>
      if s.sessions.any (·.name == name) then (.error (.driver "exit status 1"), s)
      else (.ok (), { s with sessions := s.sessions ++ [⟨s.nextID, name, cwd⟩], nextID := s.nextID + 1 })
  | .getMeta id, s =>
    match s.dbFault with
    | some e => (.error e, s)
    | none => (.ok (s.rows id), s)
  | .setMeta id row, s => s.statement (Function.update s.rows id (some row))
  | .updateMeta id update, s =>
    if update = .none then (.ok (), s) else s.statement (Function.update s.rows id ((s.rows id).map update.apply))
  | .deleteMeta id, s => s.statement (Function.update s.rows id none)
  | .cleanOrphans live, s =>
    if live = [] then (.ok (), s) else s.statement fun id => if id ∈ live then s.rows id else none
  | .resetStaleModes, s => s.statement fun id => (s.rows id).map fun row => { row with mode := "terminal" }
  | .answer _, s => ((), s)

/-! ## Handlers -/

abbrev MetaCode := ProgE metaIface Err

def listTmuxSessions : MetaCode (List LiveSession) := ExceptT.mk (Prog.call (I := metaIface) .listSessions)

def getMeta (id : Nat) : MetaCode (Option SessionMeta) := ExceptT.mk (Prog.call (I := metaIface) (.getMeta id))

def setMeta (id : Nat) (row : SessionMeta) : MetaCode Unit := ExceptT.mk (Prog.call (I := metaIface) (.setMeta id row))

/-- The rest of a list, after the clean-up: sessions whose id has no code are left out. -/
def mergeSessions : List LiveSession → MetaCode (List SessionInfo)
  | [] => return []
  | s :: rest => do
    match encodeSessionID s.id with
    | none => mergeSessions rest
    | some code =>
      let row ← getMeta s.id
      return sessionInfo code s row :: (← mergeSessions rest)

def listSessions : MetaCode (List SessionInfo) := do
  let sessions ← listTmuxSessions
  let _ ← ExceptT.mk (Prog.call (I := metaIface) (.cleanOrphans (sessions.map (·.id))))
  mergeSessions sessions

/-- A code without a session loses its row. -/
def getSession (code : String) : MetaCode (Option SessionInfo) := do
  match decodeSessionID code with
  | none => return none
  | some id =>
    let sessions ← listTmuxSessions
    match sessions.find? (·.id == id) with
    | none =>
      let _ ← (liftM (Prog.call (I := metaIface) (.deleteMeta id)) : MetaCode (Except Err Unit))
      return none
    | some s =>
      let row ← getMeta id
      return some (sessionInfo code s row)

def updateMeta (code : String) (update : MetaUpdate) : MetaCode Unit := do
  match decodeSessionID code with
  | none => throw (.driver "invalid session code")
  | some id => ExceptT.mk (Prog.call (I := metaIface) (.updateMeta id update))

def validName (name : String) : Bool := name ≠ "" ∧ name.toList.all fun c => c.isAlphanum || c == '_' || c == '-'

/-- Creations exclude each other by a lock, which is left out here: that only adds to what can happen. -/
def handleCreate (name cwd mode : String) : MetaCode Unit := do
  let cwd := if cwd = "" then "/" else cwd
  let mode := if mode = "" then "terminal" else mode
  if !validName name then
    throw (.driver "invalid session name: must match ^[a-zA-Z0-9_-]+$")
  if mode ≠ "terminal" ∧ mode ≠ "stream" then
    throw (.driver "invalid mode: must be terminal or stream")
  if ← (liftM (Prog.call (I := metaIface) (.hasSession name)) : MetaCode Bool) then
    throw (.driver ("session already exists: " ++ name))
  let _ ← ExceptT.mk (Prog.call (I := metaIface) (.newSession name cwd))
  let sessions ← listTmuxSessions
  match sessions.find? (·.name == name) with
  | none => throw (.driver "session created but not found")
  | some s =>
    if (encodeSessionID s.id).isNone then
      throw (.driver "tmux session ID out of range")
    setMeta s.id ⟨mode, "", "", cwd⟩

def handleSwitchMode (code mode : String) : MetaCode Unit := do
  if mode ≠ "terminal" ∧ mode ≠ "stream" then
    throw (.driver "invalid mode: must be terminal or stream")
  match ← getSession code with
  | none => throw (.driver "session not found")
  | some info =>
    setMeta info.tmuxID ⟨info.mode, "", "", info.cwd⟩
    updateMeta code ⟨some mode, none, none, none⟩

/-! ## The daemon -/

/-- What runs: the handlers, the calls of the other modules, and the start of the daemon. What a `GetSession` returns
to its caller stands in the trace as an operation that does nothing. -/
inductive MetaCall where
  | list
  | get (code : String)
  | create (name cwd mode : String)
  | switchMode (code mode : String)
  | update (code : String) (update : MetaUpdate)
  | start
  deriving Repr, DecidableEq

/-- A call with its result dropped. -/
def finish {α : Type} (code : MetaCode α) : Prog metaIface (Option MetaCall) := code.run >>= fun _ => pure none

def MetaCall.body : MetaCall → Prog metaIface (Option MetaCall)
  | .list => finish listSessions
  | .get code => (getSession code).run >>= fun r => Prog.call (I := metaIface) (.answer r) >>= fun _ => pure none
  | .create name cwd mode => finish (handleCreate name cwd mode)
  | .switchMode code mode => finish (handleSwitchMode code mode)
  | .update code upd => finish (updateMeta code upd)
  | .start => finish (ExceptT.mk (Prog.call (I := metaIface) .resetStaleModes) : MetaCode Unit)

/-- What goes on outside: sessions come and go, and what answers changes. -/
structure Outside where
  sessions : List LiveSession
  nextID : Nat
  tmuxFault : Option Err
  dbFault : Option Err

def metaSys : Sys metaIface MetaState MetaCall Outside where
  body := MetaCall.body
  exec := MetaOp.exec
  spawns _ := []
  tick e s := { s with sessions := e.sessions, nextID := e.nextID, tmuxFault := e.tmuxFault, dbFault := e.dbFault }

end Purdex.Session
