/-
The sync store's methods and the HTTP handlers over them, statement by statement.
-/
import Purdex.Sync.Daemon
import Mathlib

namespace Purdex.Sync

open Conc

/-- A store method: a program that may return an error. -/
abbrev Code (β : Type) := ExceptT Err (Prog (iface β))

variable {β : Type}

/-! ## Statements as the store calls them -/

def ask (o : Op β) : Code β ((iface β).Res o) :=
  liftM (Prog.call (I := iface β) o)

/-- A query whose error is returned. -/
def query {α : Type} (p : Prog (iface β) (Option α)) : Code β α := do
  match ← (liftM p : Code β (Option α)) with
  | some a => return a
  | none => throw .store

/-- A statement whose error is returned. -/
def execute (p : Prog (iface β) Bool) : Code β Unit := do
  if ← (liftM p : Code β Bool) then return () else throw .store

def clientGroupID (clientID : String) : Code β String := do
  match ← query (Prog.call (I := iface β) (.selectClientGroup clientID)) with
  | some groupID => return groupID
  | none => throw (.clientNotInAnyGroup clientID)

def getTime : Code β Int := ask .now

def updateLastSeen (groupID clientID : String) : Code β Unit := do
  let now ← getTime
  execute (Prog.call (I := iface β) (.touch groupID clientID now))

/-! ## Groups -/

def createGroup (groupID : String) : Code β Unit :=
  execute (Prog.call (I := iface β) (.insertGroup groupID))

def addClientToGroup (groupID clientID device : String) : Code β Unit := do
  if ← query (Prog.call (I := iface β) (.selectGroup groupID)) then
    let now ← getTime
    execute (Prog.call (I := iface β) (.upsertMember groupID clientID device now))
  else throw (.groupMissing groupID)

def listGroupMembers (clientID : String) : Code β (List GroupMember) := do
  let groupID ← clientGroupID clientID
  let rows ← query (Prog.call (I := iface β) (.selectMembers groupID))
  return rows.map fun row => ⟨row.clientID, row.device, row.lastSeen⟩

def removeClientFromGroup (requesterID targetID : String) : Code β Unit := do
  let groupID ← clientGroupID requesterID
  match ← (liftM (clientGroupID targetID : Code β String).run : Code β (Except Err String)) with
  | .error _ => throw (.targetNotFound targetID)
  | .ok targetGroup =>
    if targetGroup ≠ groupID then throw .notSameGroup
    else execute (Prog.call (I := iface β) (.deleteMember groupID targetID))

def hexDigits : List Char := "0123456789abcdef".toList

def hexByte (b : Nat) : List Char := [hexDigits.getD (b / 16) '0', hexDigits.getD (b % 16) '0']

/-- The identifier of eight random bytes. -/
def groupIDOf (bytes : List Nat) : String := String.ofList ('g' :: '_' :: bytes.flatMap hexByte)

def generateGroupID : Code β String := do
  match ← ask (.random 8) with
  | some bytes => return groupIDOf bytes
  | none => throw .generateGroupID

/-! ## Bundles -/

/-- A push: the canonical bundle, a row of history, and pruning, whose error is dropped. -/
def pushBundle (clientID : String) (bundle : β) : Code β Unit := do
  let groupID ← clientGroupID clientID
  updateLastSeen groupID clientID
  let now ← getTime
  let device ← ask (.selectDevice groupID clientID)
  let device := (device.getD none).getD ""
  execute (Prog.call (I := iface β) (.upsertCanonical groupID now bundle))
  execute (Prog.call (I := iface β) (.insertHistory groupID clientID device bundle now))
  let _ ← ask (.pruneHistory groupID)
  return ()

def pullCanonical [Inhabited β] (clientID : String) : Code β β := do
  let groupID ← clientGroupID clientID
  updateLastSeen groupID clientID
  let bundle ← query (Prog.call (I := iface β) (.selectBundle groupID))
  return bundle.getD default

def listHistory (clientID : String) (limit : Nat) : Code β (List (HistoryRow β)) := do
  let groupID ← clientGroupID clientID
  query (Prog.call (I := iface β) (.selectHistory groupID limit))

def HistoryRow.summary (row : HistoryRow β) : HistorySummary :=
  ⟨row.id, row.clientID, row.device, row.timestamp⟩

def listHistorySummary (clientID : String) (limit : Nat) : Code β (List HistorySummary) := do
  let rows ← listHistory clientID limit
  return rows.map HistoryRow.summary

/-! ## Pairing -/

def pairingCharset : List Char := "ABCDEFGHJKLMNPQRSTUVWXYZ23456789".toList

def codeOf (bytes : List Nat) : String :=
  String.ofList (bytes.map fun b => pairingCharset.getD (b % pairingCharset.length) 'A')

def randomCode (n : Nat) : Code β String := do
  match ← ask (.random n) with
  | some bytes => return codeOf bytes
  | none => throw .generateCode

/-- How many seconds a code is valid. -/
def pairingLifetime : Int := 300

def createPairingCode (clientID : String) : Code β String := do
  let groupID ← clientGroupID clientID
  let code ← randomCode 8
  let now ← getTime
  execute (Prog.call (I := iface β) (.deleteCodes groupID))
  execute (Prog.call (I := iface β) (.insertCode ⟨code, groupID, now, now + pairingLifetime, 0⟩))
  return code

def maxAttempts : Nat := 5

def verifyPairingCode (code : String) : Code β String := do
  match ← query (Prog.call (I := iface β) (.selectCode code)) with
  | none =>
    let _ ← ask .bumpAttempts
    throw .codeNotFound
  | some row =>
    if maxAttempts ≤ row.attempts then
      let _ ← ask (.deleteCode code .locked)
      throw .codeLocked
    let now ← getTime
    if row.expiresAt < now then
      let _ ← ask (.deleteCode code .expired)
      throw .codeExpired
    execute (Prog.call (I := iface β) (.deleteCode code .redeemed))
    return row.groupID

/-! ## Bodies -/

abbrev Bytes := List UInt8

/-- The bytes of a body that arrive, and whether reading on fails after them. -/
structure Body where
  bytes : Bytes
  broken : Bool
  deriving Repr, DecidableEq

def maxBody : Nat := 10 * 2 ^ 20

/-- All of a body up to the limit, behind which nothing is read. -/
def readAll (body : Body) : Option Bytes :=
  if body.broken ∧ body.bytes.length < maxBody then none else some (body.bytes.take maxBody)

/-! ## Handlers -/

/-- What arrives: `ρ` is a request body, still to be read. -/
inductive Request (ρ : Type) where
  | push (clientID : String) (body : ρ)
  | pull (clientID : String)
  | history (clientID : String) (limit : Option Int)
  | groupCreate (clientID device : String)
  | groupJoin (groupID clientID device : String)
  | pairCreate (clientID : String)
  | pairVerify (code clientID device : String)
  | groupMembers (clientID : String)
  | groupRemoveMember (clientID targetID : String)
  | invalid
  deriving Repr, DecidableEq

/-- The rest of a handler after a method that may have failed. -/
def orError {α : Type} (status : Nat) (p : Code β α) (k : α → Prog (iface β) (Reply β)) : Prog (iface β) (Reply β) := do
  match ← p.run with
  | .ok a => k a
  | .error err => return .error status err

def badRequest : Nat := 400

def forbidden : Nat := 403

def internalServerError : Nat := 500

variable {ρ : Type} [DecidableEq β] [Inhabited β]

def handlePush (readBody : ρ → Option β) (clientID : String) (body : ρ) : Prog (iface β) (Reply β) :=
  if clientID = "" then return .error badRequest .clientIDRequired
  else match readBody body with
    | none => return .error badRequest .readBody
    | some bundle => orError badRequest (pushBundle clientID bundle) fun _ => return .noContent

/-- A blank bundle is answered as none. -/
def handlePull (clientID : String) : Prog (iface β) (Reply β) :=
  if clientID = "" then return .error badRequest .clientIDRequired
  else orError badRequest (pullCanonical clientID) fun bundle =>
    if bundle = default then return .null else return .bundle bundle

/-- The limit of a listing; `none` is one that is absent or no number. -/
def historyLimit : Option Int → Nat
  | none => 100
  | some n => if 0 < n then (if 100 < n then 100 else n.toNat) else 100

def handleHistory (clientID : String) (limit : Option Int) : Prog (iface β) (Reply β) :=
  if clientID = "" then return .error badRequest .clientIDRequired
  else orError badRequest (listHistorySummary clientID (historyLimit limit)) fun entries => return .history entries

def handleGroupCreate (clientID device : String) : Prog (iface β) (Reply β) :=
  if clientID = "" then return .error badRequest .clientIDRequired
  else orError internalServerError generateGroupID fun groupID =>
    orError internalServerError (createGroup groupID) fun _ =>
      orError internalServerError (addClientToGroup groupID clientID device) fun _ => return .group groupID

def handleGroupJoin (groupID clientID device : String) : Prog (iface β) (Reply β) :=
  if groupID = "" ∨ clientID = "" then return .error badRequest .groupIDAndClientIDRequired
  else orError internalServerError (addClientToGroup groupID clientID device) fun _ => return .noContent

def handlePairCreate (clientID : String) : Prog (iface β) (Reply β) :=
  if clientID = "" then return .error badRequest .clientIDRequired
  else orError badRequest (createPairingCode clientID) fun code => return .code code

def handlePairVerify (code clientID device : String) : Prog (iface β) (Reply β) :=
  if code = "" ∨ clientID = "" then return .error badRequest .codeAndClientIDRequired
  else orError forbidden (verifyPairingCode code) fun groupID =>
    orError internalServerError (addClientToGroup groupID clientID device) fun _ => return .group groupID

def handleGroupMembers (clientID : String) : Prog (iface β) (Reply β) :=
  if clientID = "" then return .error badRequest .clientIDRequired
  else orError badRequest (listGroupMembers clientID) fun members => return .members members

def handleGroupRemoveMember (clientID targetID : String) : Prog (iface β) (Reply β) :=
  if clientID = "" ∨ targetID = "" then return .error badRequest .clientIDAndTargetIDRequired
  else orError badRequest (removeClientFromGroup clientID targetID) fun _ => return .noContent

def serve (readBody : ρ → Option β) : Request ρ → Prog (iface β) (Reply β)
  | .push clientID body => handlePush readBody clientID body
  | .pull clientID => handlePull clientID
  | .history clientID limit => handleHistory clientID limit
  | .groupCreate clientID device => handleGroupCreate clientID device
  | .groupJoin groupID clientID device => handleGroupJoin groupID clientID device
  | .pairCreate clientID => handlePairCreate clientID
  | .pairVerify code clientID device => handlePairVerify code clientID device
  | .groupMembers clientID => handleGroupMembers clientID
  | .groupRemoveMember clientID targetID => handleGroupRemoveMember clientID targetID
  | .invalid => return .error badRequest .invalidJSON

/-! ## Rules for statements and handlers -/

section Rules

variable {α : Type} {S : Spec (iface β)} {h : Hist (iface β)} {E : Hist (iface β) → Err → Prop}

omit [DecidableEq β] [Inhabited β]

theorem wpE_ask {o : Op β} {Q : Hist (iface β) → o.Res → Prop} :
    wpE S (ask o) Q E h ↔ S.ok h o ∧ ∀ r, S.ans o r → Q (⟨o, r⟩ :: h) r :=
  wpE_lift (Prog.call (I := iface β) o)

theorem wpE_query {p : Prog (iface β) (Option α)} {Q : Hist (iface β) → α → Prop} :
    wpE S (query p) Q E h ↔ wp S p (fun h' r => match r with
      | some a => Q h' a
      | none => E h' .store) h := by
  rw [query, wpE_bind, wpE_lift]
  refine iff_of_eq (congrArg (wp S p · h) ?_)
  funext h' r
  cases r <;> rfl

theorem wpE_execute {p : Prog (iface β) Bool} {Q : Hist (iface β) → Unit → Prop} :
    wpE S (execute p) Q E h ↔ wp S p (fun h' r => match r with
      | true => Q h' ()
      | false => E h' .store) h := by
  rw [execute, wpE_bind, wpE_lift]
  refine iff_of_eq (congrArg (wp S p · h) ?_)
  funext h' r
  cases r <;> rfl

theorem wp_orError {status : Nat} {p : Code β α} {k : α → Prog (iface β) (Reply β)} {Q : Hist (iface β) → Reply β → Prop} :
    wp S (orError status p k) Q h ↔ wpE S p (fun h' a => wp S (k a) Q h') (fun h' err => Q h' (.error status err)) h := by
  unfold orError wpE
  rw [Prog.bind_eq, wp_bind]
  refine iff_of_eq (congrArg (wp S p.run · h) ?_)
  funext h' r
  cases r <;> rfl

variable {P : Op β → Prop}

theorem onlyE_ask {o : Op β} (h : P o) : OnlyE (I := iface β) P (ask o) :=
  onlyE_lift (only_call (I := iface β) h)

theorem onlyE_query {p : Prog (iface β) (Option α)} (h : p.Only P) : OnlyE (I := iface β) P (query p) :=
  onlyE_bind (onlyE_lift h) fun r => by cases r <;> trivial

theorem onlyE_execute {p : Prog (iface β) Bool} (h : p.Only P) : OnlyE (I := iface β) P (execute p) :=
  onlyE_bind (onlyE_lift h) fun r => by cases r <;> trivial

end Rules

section Eval

variable {α σ : Type} (exec : (o : Op β) → σ → o.Res × σ) (s : σ)

omit [DecidableEq β] [Inhabited β]

theorem eval_execute (p : Prog (iface β) Bool) : (execute p).run.eval (I := iface β) exec s =
    match (p.eval (I := iface β) exec s).1 with
      | true => (.ok (), (p.eval (I := iface β) exec s).2)
      | false => (.error .store, (p.eval (I := iface β) exec s).2) := by
  rw [execute, eval_run_bind, eval_run_lift]
  cases (p.eval (I := iface β) exec s).1 <;> rfl

theorem eval_query (p : Prog (iface β) (Option α)) : (query p).run.eval (I := iface β) exec s =
    match (p.eval (I := iface β) exec s).1 with
      | some a => (.ok a, (p.eval (I := iface β) exec s).2)
      | none => (.error .store, (p.eval (I := iface β) exec s).2) := by
  rw [query, eval_run_bind, eval_run_lift]
  cases (p.eval (I := iface β) exec s).1 <;> rfl

variable {γ : Type}

theorem eval_ask_seq (o : Op β) (f : o.Res → Code β γ) : (ask o >>= f).run.eval (I := iface β) exec s =
    (f (exec o s).1).run.eval (I := iface β) exec (exec o s).2 := rfl

theorem eval_getTime_seq (f : Int → Code β γ) : (getTime >>= f).run.eval (I := iface β) exec s =
    (f (exec .now s).1).run.eval (I := iface β) exec (exec .now s).2 := rfl

theorem eval_execute_seq (p : Prog (iface β) Bool) (f : Unit → Code β γ) :
    (execute p >>= f).run.eval (I := iface β) exec s = match (p.eval (I := iface β) exec s).1 with
      | true => (f ()).run.eval (I := iface β) exec (p.eval (I := iface β) exec s).2
      | false => (.error .store, (p.eval (I := iface β) exec s).2) := by
  rw [eval_run_bind, eval_execute]
  cases (p.eval (I := iface β) exec s).1 <;> rfl

theorem eval_query_seq (p : Prog (iface β) (Option α)) (f : α → Code β γ) :
    (query p >>= f).run.eval (I := iface β) exec s = match (p.eval (I := iface β) exec s).1 with
      | some a => (f a).run.eval (I := iface β) exec (p.eval (I := iface β) exec s).2
      | none => (.error .store, (p.eval (I := iface β) exec s).2) := by
  rw [eval_run_bind, eval_query]
  cases (p.eval (I := iface β) exec s).1 <;> rfl

theorem eval_orError {status : Nat} {p : Code β α}
    {k : α → Prog (iface β) (Reply β)} : (orError status p k).eval (I := iface β) exec s =
      match (p.run.eval (I := iface β) exec s).1 with
      | .ok a => (k a).eval (I := iface β) exec (p.run.eval (I := iface β) exec s).2
      | .error err => (.error status err, (p.run.eval (I := iface β) exec s).2) := by
  unfold orError
  rw [Prog.bind_eq, Prog.eval_bind]
  cases (p.run.eval (I := iface β) exec s).1 <;> rfl

/-- A handler that only replies after its method leaves the state to the method. -/
theorem eval_orError_snd {status : Nat} {p : Code β α} {k : α → Prog (iface β) (Reply β)}
    (hk : ∀ a s, ((k a).eval (I := iface β) exec s).2 = s) :
    ((orError status p k).eval (I := iface β) exec s).2 = (p.run.eval (I := iface β) exec s).2 := by
  rw [eval_orError]
  split
  · exact hk _ _
  · rfl

end Eval

end Purdex.Sync
