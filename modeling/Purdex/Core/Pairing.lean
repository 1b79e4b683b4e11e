/-
Pairing a client with a fresh daemon: a guess at the code that is shown is exchanged for a setup secret, and that for a
token of the client's own, while other requests change the settings. Every request takes one access of the shared state at
a time.
-/
import Purdex.Conc.Stages
import Purdex.Core.ConfigFile

namespace Purdex.Core

open Conc

/-! ## Secrets -/

def hexDigit (c : Char) : Option Nat :=
  if '0' ≤ c ∧ c ≤ '9' then some (c.toNat - 48)
  else if 'a' ≤ c ∧ c ≤ 'f' then some (c.toNat - 87)
  else if 'A' ≤ c ∧ c ≤ 'F' then some (c.toNat - 55)
  else none

def hexPairs : List Char → Option (List Nat)
  | [] => some []
  | [_] => none
  | a :: b :: rest => do return ((← hexDigit a) * 16 + (← hexDigit b)) :: (← hexPairs rest)

def hexDecode (s : String) : Option (List Nat) := hexPairs s.toList

def hexEncode (bytes : List UInt8) : String :=
  String.ofList (bytes.flatMap fun b => [Nat.digitChar (b.toNat / 16), Nat.digitChar (b.toNat % 16)])

/-- The guess decodes, and to the same bytes. -/
def Right (given expected : String) : Prop := (hexDecode given).isSome ∧ hexDecode given = hexDecode expected

instance (given expected : String) : Decidable (Right given expected) := inferInstanceAs (Decidable (_ ∧ _))

def maxVerifyFailures : Nat := 10

def minTokenLength : Nat := 20

/-- Five minutes, in nanoseconds. -/
def setupTTL : Nat := 300000000000

/-- The sum of an atomic counter of 32 bits. -/
def wrap32 (n : Int) : Int := (n + 2147483648) % 4294967296 - 2147483648

/-! ## The state -/

inductive StateValue where
  | normal
  | pairing
  | pending
  deriving Repr, DecidableEq

/-- `lock` is the request that holds the settings for writing. `generation` tells the pairing secrets apart, and `wrong` is how
many wrong guesses were counted against each since the last right one, where ten stay ten: both are kept for the
proofs only. -/
structure Daemon where
  mode : StateValue
  cfg : Config
  lock : Option Nat
  dir : ConfigDir
  pairingSecret : String
  failedVerify : Int
  setupSecret : String
  born : Nat
  now : Nat
  generation : Nat
  wrong : Nat → Nat

namespace Daemon

/-- `SetupSecretStore.Validate`: a secret serves once. -/
def validate (secret : String) (d : Daemon) : Bool × Daemon :=
  if secret = "" ∨ d.setupSecret = "" ∨ d.setupSecret ≠ secret then (false, d)
  else (decide (d.now - d.born ≤ setupTTL), { d with setupSecret := "" })

/-- A wrong guess is counted. -/
def countWrong (generation : Nat) (d : Daemon) : Daemon :=
  { d with failedVerify := wrap32 (d.failedVerify + 1), wrong := Function.update d.wrong generation (d.wrong generation + 1) }

/-- A right guess resets the counter. -/
def resetWrong (d : Daemon) : Daemon :=
  { d with failedVerify := 0, wrong := fun g => if maxVerifyFailures ≤ d.wrong g then d.wrong g else 0 }

end Daemon

/-! ## Requests -/

inductive VerifyAt where
  | start
  | checked
  | read (expected : String) (generation : Nat)
  /-- Its wrong guess was the tenth. -/
  | tenth
  /-- There is a new pairing secret, and the counter is not reset yet. -/
  | renewed
  | reset
  | answered (status : Nat) (setupSecret : Option String)
  deriving Repr, DecidableEq

inductive SetupAt where
  | start
  | checked
  | accepted
  | writing (copy : Config) (at' : WriteAt)
  | persisted
  | stored
  | answered (status : Nat)
  deriving Repr, DecidableEq

inductive PutAt where
  | start
  | admitted
  | writing (snapshot : Config) (at' : WriteAt)
  | answered (status : Nat)
  deriving Repr, DecidableEq

/-- A request with its body, where that decodes, and how far it is. -/
inductive Request where
  | verify (secret : Option String) (at' : VerifyAt)
  | setup (body : Option (String × String)) (at' : SetupAt)
  | put (body : Option ConfigUpdate) (at' : PutAt)
  deriving Repr, DecidableEq

/-- What the outside decides: whether a call succeeds, how much of a text was written when it does not, and random bytes. -/
structure Luck where
  ok : Bool
  n : Nat
  random : List UInt8
  deriving Repr, DecidableEq

/-! ## Steps -/

def handlePairVerify (luck : Luck) (secret : Option String) : VerifyAt → Daemon → Option (VerifyAt × Daemon)
  | .start, d => some (if d.mode = .pairing then .checked else .answered 409 none, d)
  | .checked, d =>
    match secret with
    | none => some (.answered 400 none, d)
    | some _ => if d.lock.isSome then none else some (.read d.pairingSecret d.generation, d)
  | .read expected generation, d =>
    if (hexDecode expected).all (· = []) then some (.answered 500 none, d)
    else if Right (secret.getD "") expected then some (.reset, d.resetWrong)
    else
      let d' := d.countWrong generation
      some (if d'.failedVerify = maxVerifyFailures then .tenth else .answered 401 none, d')
  | .tenth, d =>
    if !luck.ok then some (.answered 401 none, d)
    else if d.lock.isSome then none
    else some (.renewed, { d with pairingSecret := hexEncode luck.random, generation := d.generation + 1 })
  | .renewed, d => some (.answered 401 none, { d with failedVerify := 0 })
  | .reset, d =>
    if d.lock.isSome then none
    else if d.mode ≠ .pairing then some (.answered 409 none, d)
    else if !luck.ok then some (.answered 500 none, d)
    else some (.answered 200 (some (hexEncode luck.random)), { d with setupSecret := hexEncode luck.random, born := d.now })
  | .answered .., _ => none

-- what the settings look like in the file
variable (encode : Config → List UInt8)

def handlePairSetup (luck : Luck) (body : Option (String × String)) : SetupAt → Daemon → Option (SetupAt × Daemon)
  | .start, d => some (if d.mode = .pairing then .checked else .answered 409, d)
  | .checked, d =>
    match body with
    | none => some (.answered 400, d)
    | some (setupSecret, token) =>
      let (valid, d') := d.validate setupSecret
      some (if !valid then .answered 401 else if token.utf8ByteSize < minTokenLength then .answered 422 else .accepted, d')
  | .accepted, d => if d.lock.isSome then none else some (.writing { d.cfg with token := (body.getD ("", "")).2 } .start, d)
  | .writing copy at', d =>
    match writeFile (encode copy) luck.ok luck.n at' d.dir with
    | (.going at'', dir) => some (.writing copy at'', { d with dir })
    | (.done, dir) => some (.persisted, { d with dir })
    | (.failed, dir) => some (.answered 500, { d with dir })
  | .persisted, d => if d.lock.isSome then none else some (.stored, { d with cfg := { d.cfg with token := (body.getD ("", "")).2 } })
  | .stored, d => some (.answered 200, { d with mode := .normal })
  | .answered _, _ => none

/-- The guard of all that is not pairing stands before it, and the settings stay locked until the file is written. -/
def handlePutConfig (i : Nat) (luck : Luck) (body : Option ConfigUpdate) : PutAt → Daemon → Option (PutAt × Daemon)
  | .start, d => some (if d.mode = .pairing then .answered 503 else .admitted, d)
  | .admitted, d =>
    match body with
    | none => some (.answered 400, d)
    | some upd =>
      if d.lock.isSome then none
      else if upd.invalid.isSome then some (.answered 400, d)
      else some (.writing d.cfg .start, { d with cfg := upd.apply d.cfg, lock := some i })
  | .writing snapshot at', d =>
    match writeFile (encode d.cfg) luck.ok luck.n at' d.dir with
    | (.going at'', dir) => some (.writing snapshot at'', { d with dir })
    | (.done, dir) => some (.answered 200, { d with dir, lock := none })
    | (.failed, dir) => some (.answered 500, { d with dir, cfg := snapshot, lock := none })
  | .answered _, _ => none

def serve (i : Nat) (luck : Luck) : Request → Daemon → Option (Request × Daemon)
  | .verify secret at', d => (handlePairVerify luck secret at' d).map fun (at'', d') => (.verify secret at'', d')
  | .setup body at', d => (handlePairSetup encode luck body at' d).map fun (at'', d') => (.setup body at'', d')
  | .put body at', d => (handlePutConfig encode i luck body at' d).map fun (at'', d') => (.put body at'', d')

/-- By itself only time passes. -/
def pairing : Stages Daemon Request Luck Nat where
  act := serve encode
  tick n d := { d with now := d.now + n }

abbrev Served := Staged Daemon Request

abbrev Call := Move Request Luck Nat

/-- A request that has just come in. -/
def Request.Fresh : Request → Prop
  | .verify _ at' => at' = .start
  | .setup _ at' => at' = .start
  | .put _ at' => at' = .start

instance : (r : Request) → Decidable r.Fresh
  | .verify .. | .setup .. | .put .. => inferInstanceAs (Decidable (_ = _))

/-- A daemon that begins to pair. -/
structure Begins (w : Served) : Prop where
  threads : w.threads = []
  mode : w.shared.mode = .pairing
  lock : w.shared.lock = none
  dir : w.shared.dir.Ok
  setupSecret : w.shared.setupSecret = ""
  failedVerify : w.shared.failedVerify = 0
  wrong : ∀ g, w.shared.wrong g = 0

end Purdex.Core
