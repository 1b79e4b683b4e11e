/-
The broker reaper's data and the operations it issues: the process table, the broker's RPC
endpoint, its state directory, the launch registry's panes, the audit directory and signals.
Every operation may be answered anything, at any time.
-/
import Purdex.Conc.Prog
import Mathlib

namespace Purdex.Broker

open Conc

/-! ## Times -/

/-! A time is a wall clock reading in nanoseconds, 0 the zero `time.Time`; a duration is a signed
64-bit count of nanoseconds. -/

def minDuration : Int := -2 ^ 63

def maxDuration : Int := 2 ^ 63 - 1

def second : Int := 10 ^ 9

def minute : Int := 60 * second

def hour : Int := 60 * minute

def day : Int := 24 * hour

def Time.isZero (t : Int) : Bool := t = 0

/-- `t.Sub(u)`, which saturates. -/
def Time.sub (t u : Int) : Int := max minDuration (min maxDuration (t - u))

/-- The negation of a 64-bit value: the least one is its own. -/
def Duration.neg (d : Int) : Int :=
  if d = minDuration then minDuration else -d

/-- The whole seconds of a duration, towards zero. -/
def Duration.wholeSeconds (d : Int) : Int := Int.tdiv d second

/-! ## Texts -/

/-- `strings.Contains`. -/
def contains (s sub : String) : Bool := sub.toList <:+: s.toList

/-- `strings.ToLower` as far as ASCII results go: two letters outside ASCII have a lower case in it. -/
def lowerRune (c : Char) : Char :=
  if c = '\u0130' then 'i' else if c = '\u212A' then 'k' else c.toLower

def toLower (s : String) : String := String.ofList (s.toList.map lowerRune)

/-- The address of a `unix:` endpoint; other schemes are not spoken. -/
def unixAddr (endpoint : String) : Option String :=
  if "unix:".toList <+: endpoint.toList then some (String.ofList (endpoint.toList.drop 5)) else none

/-! ## Records -/

/-- One row of the process table; `lstart` is zero when ps printed one that was not understood. -/
structure RawProcess where
  pid : Int
  lstart : Int
  cmdline : String
  deriving Repr, DecidableEq

inductive AnomalyCode where
  | cwdMissing
  | cwdTransientStatError
  | stateJSONUnreadable
  | foreignOwner
  /-- the codes no decision looks at -/
  | other (code : String)
  deriving Repr, DecidableEq

/-- One runtime instance of a broker; `pid` is 0 and `lstart` zero when no live process matched. -/
structure BrokerRecord where
  key : String
  pid : Int
  lstart : Int
  cwd : String
  endpoint : String
  socketDir : String
  pidFile : String
  stateDir : String
  lastJobUpdatedAt : Option Int
  cwdExists : Bool
  anomalies : List AnomalyCode
  deriving Repr, DecidableEq

structure StateJobLite where
  id : String
  status : String
  updatedAt : Int
  completedAt : Option Int
  pid : Option Int
  deriving Repr, DecidableEq

structure PredicateResult where
  a : Bool
  aDetail : String
  b : Bool
  bDetail : String
  c : Bool
  cDetail : String
  deriving Repr, DecidableEq

structure DecisionResult where
  predicates : PredicateResult
  idleSeconds : Int
  overrideE1 : Bool
  kill : Bool
  reason : String
  anomaliesAdded : List AnomalyCode
  deriving Repr, DecidableEq

structure BrokerFingerprint where
  executable : String
  cmdline : String
  pidFile : String
  deriving Repr, DecidableEq

structure QuarantineEntry where
  brokerKey : String
  pid : Int
  lstart : Int
  quarantinedAt : Int
  reason : String
  fingerprint : BrokerFingerprint
  expiresAt : Int
  deriving Repr, DecidableEq

structure QuarantineFile where
  version : Nat
  entries : List QuarantineEntry
  deriving Repr, DecidableEq

/-- One record of the launch registry: the pane a broker was started from. -/
structure LaunchEntry where
  brokerKey : String
  tmuxPane : String
  deriving Repr, DecidableEq

structure E1State where
  brokerKey : String
  firstSeenAt : Int
  firstConfirmedAt : Option Int
  deriving Repr, DecidableEq

structure KillResult where
  gracefulOk : Bool := false
  termOk : Bool := false
  killOk : Bool := false
  cleanedUp : Bool := false
  deriving Repr, DecidableEq

/-! ## Operations -/

inductive Signal where
  | term
  | kill
  deriving Repr, DecidableEq

/-- A thread of the broker's `/thread/list` answer. -/
structure BrokerThread where
  id : String
  status : String
  deriving Repr, DecidableEq

/-- What opening and decoding a JSON file of the broker comes to. -/
inductive FileAnswer (α : Type) where
  | absent
  | failed
  | decoded (a : α)
  deriving Repr, DecidableEq

inductive StatAnswer where
  | ok
  | enoent
  | transient
  deriving Repr, DecidableEq

inductive Op where
  | now
  /-- `lister.List` under a deadline of its own -/
  | list (deadline : Int)
  /-- how many more listings a poll loop gets in before its budget is spent -/
  | polls (budget : Int)
  | threadList (addr : String)
  | openState (stateDir : String)
  | openJobResult (stateDir id : String)
  | stat (cwd : String)
  | paneAlive (pane : String)
  | writePreimage (record : BrokerRecord) (decision : DecisionResult)
  | dialShutdown (addr : String)
  | pgidLookup (pid : Int)
  | signal (target : Int) (sig : Signal)
  | holdsSocket (dir : String)
  | removeAll (dir : String)
  | appendPostscript (path : String) (result : KillResult)
  | acquireLocks (mode brokerKey : String)
  | ctxErr
  | scan
  /-- `EvalFn(ctx, rec, opts)` begins -/
  | evalFn (record : BrokerRecord)
  /-- `KillerFactory(rec)` is called and its runner started -/
  | killerRun (record : BrokerRecord)
  | addEntry (entry : QuarantineEntry)
  | saveQuarantine

/-- `none` and `error` stand for every way an operation can fail. -/
def Op.Res : Op → Type
  | .now => Int
  | .list _ => Option (List RawProcess)
  | .polls _ => Nat
  | .threadList _ => Except String (List BrokerThread)
  | .openState _ => FileAnswer (List StateJobLite)
  | .openJobResult _ _ => FileAnswer (Bool × Bool)
  | .stat _ => StatAnswer
  | .paneAlive _ => Option Bool
  | .writePreimage _ _ => Except String String
  | .dialShutdown _ => Unit
  | .pgidLookup _ => Option Int
  | .signal _ _ => Bool
  | .holdsSocket _ => Option Bool
  | .removeAll _ => Bool
  | .appendPostscript _ _ => Unit
  | .acquireLocks _ _ => Bool
  | .ctxErr => Bool
  | .scan => Except String (List BrokerRecord)
  | .evalFn _ => Unit
  | .killerRun _ => Unit
  | .addEntry _ => Unit
  | .saveQuarantine => Except String Unit

@[reducible] def iface : Iface := ⟨Op, Op.Res⟩

abbrev Code (α : Type) := Prog iface α

abbrev History := Hist iface

section Ops

variable (deadline budget : Int) (record : BrokerRecord) (decision : DecisionResult)

def clock : Code Int := Prog.call (I := iface) .now

def list : Code (Option (List RawProcess)) := Prog.call (I := iface) (.list deadline)

def polls : Code Nat := Prog.call (I := iface) (.polls budget)

def threadList (addr : String) : Code (Except String (List BrokerThread)) := Prog.call (I := iface) (.threadList addr)

def openState (stateDir : String) : Code (FileAnswer (List StateJobLite)) := Prog.call (I := iface) (.openState stateDir)

def openJobResult (stateDir id : String) : Code (FileAnswer (Bool × Bool)) :=
  Prog.call (I := iface) (.openJobResult stateDir id)

def stat (cwd : String) : Code StatAnswer := Prog.call (I := iface) (.stat cwd)

def paneAlive (pane : String) : Code (Option Bool) := Prog.call (I := iface) (.paneAlive pane)

def writePreimage : Code (Except String String) := Prog.call (I := iface) (.writePreimage record decision)

def dialShutdown (addr : String) : Code Unit := Prog.call (I := iface) (.dialShutdown addr)

def pgidLookup (pid : Int) : Code (Option Int) := Prog.call (I := iface) (.pgidLookup pid)

def signal (target : Int) (sig : Signal) : Code Bool := Prog.call (I := iface) (.signal target sig)

def holdsSocket (dir : String) : Code (Option Bool) := Prog.call (I := iface) (.holdsSocket dir)

def removeAll (dir : String) : Code Bool := Prog.call (I := iface) (.removeAll dir)

def appendPostscript (path : String) (result : KillResult) : Code Unit :=
  Prog.call (I := iface) (.appendPostscript path result)

def acquireLocks (mode brokerKey : String) : Code Bool := Prog.call (I := iface) (.acquireLocks mode brokerKey)

def ctxErr : Code Bool := Prog.call (I := iface) .ctxErr

def scan : Code (Except String (List BrokerRecord)) := Prog.call (I := iface) .scan

def evalFn : Code Unit := Prog.call (I := iface) (.evalFn record)

def killerRun : Code Unit := Prog.call (I := iface) (.killerRun record)

def recordEntry (entry : QuarantineEntry) : Code Unit := Prog.call (I := iface) (.addEntry entry)

def saveQuarantine : Code (Except String Unit) := Prog.call (I := iface) .saveQuarantine

end Ops

end Purdex.Broker
