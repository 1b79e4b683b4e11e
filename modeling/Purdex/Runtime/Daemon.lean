/-
The daemon that runs executions: its rows, the locks of the repositories, tmux, the relays and the service that
hands out dispatches, and every single thing that one of its goroutines can do to them.
-/
import Purdex.Dispatch.Reports
import Purdex.Conc.Pool
import Purdex.Conc.Runs
import Mathlib.Data.List.Sort
import Mathlib.Data.List.TakeWhile

namespace Purdex.Runtime

open Conc Dispatch

/-! ## Sandbox profiles -/

/-- From the strictest to the widest. -/
inductive Profile where
  | readOnly
  | ask
  | workspaceWrite
  | dangerFull
  deriving Repr, DecidableEq

def Profile.rank : Profile → Nat
  | .readOnly => 0
  | .ask => 1
  | .workspaceWrite => 2
  | .dangerFull => 3

def parseProfile (s : String) : Option Profile :=
  match s with
  | "read-only" => some .readOnly
  | "ask" => some .ask
  | "workspace-write" => some .workspaceWrite
  | "danger-full" => some .dangerFull
  | _ => none

def Profile.string : Profile → String
  | .readOnly => "read-only"
  | .ask => "ask"
  | .workspaceWrite => "workspace-write"
  | .dangerFull => "danger-full"

def Profile.toPermissionMode : Profile → String
  | .readOnly => "plan"
  | .ask => "default"
  | .workspaceWrite => "acceptEdits"
  | .dangerFull => "bypassPermissions"

/-- White space of Unicode. -/
def isSpace (c : Char) : Bool :=
  c.toNat ∈ [9, 10, 11, 12, 13, 32, 0x85, 0xA0, 0x1680, 0x2028, 0x2029, 0x202F, 0x205F, 0x3000] ∨ 0x2000 ≤ c.toNat ∧ c.toNat ≤ 0x200A

def trimSpace (s : String) : String := String.ofList ((s.toList.dropWhile isSpace).reverse.dropWhile isSpace).reverse

/-- What has a character that is no space is not blank. -/
theorem trimSpace_ne {s : String} {c : Char} (hc : c ∈ s.toList) (hspace : isSpace c = false) : trimSpace s ≠ "" := by
  intro h
  have hlist := String.toList_eq_nil_iff.2 h
  rw [trimSpace, String.toList_ofList, List.reverse_eq_nil_iff, List.dropWhile_eq_nil_iff] at hlist
  rw [← List.takeWhile_append_dropWhile (p := isSpace) (l := s.toList)] at hc
  have hall : isSpace c = true := by
    rcases List.mem_append.1 hc with hc | hc
    · exact List.mem_takeWhile_imp hc
    · exact hlist c (List.mem_reverse.2 hc)
  rw [hspace] at hall
  cases hall

/-- The stricter of the request and the policy of the host; a request that is unknown has none. -/
@[irreducible] def clamp (request : String) (hostPolicy : Profile) : Option Profile :=
  if trimSpace request = "" then some hostPolicy
  else (parseProfile request).map fun req => if req.rank < hostPolicy.rank then req else hostPolicy

/-- The strictest profile, for what never runs. -/
def strictestProfile : Profile := .readOnly

/-! ## Sessions and dispatches -/

def sessionNamePrefix : String := "pdx-exec-"

def sessionNameFor (executionID : String) : String := sessionNamePrefix ++ executionID

/-- A session of tmux; its id is `$` and the number. -/
structure TmuxSession where
  name : String
  id : Nat
  deriving Repr, DecidableEq

/-- 36 ^ 6 -/
def codeSpace : Nat := 2176782336

def digits36 : List Char := "0123456789abcdefghijklmnopqrstuvwxyz".toList

/-- The last `n` digits to base 36. -/
def base36 : Nat → Nat → List Char
  | 0, _ => []
  | n + 1, k => base36 n (k / 36) ++ [digits36.getD (k % 36) '0']

/-- The code of the session with that number, which has six characters. -/
def encodeSessionID (n : Nat) : Except String String :=
  if codeSpace ≤ n then .error ("tmux session ID out of range: " ++ toString n)
  else .ok (String.ofList (base36 6 ((n * 1640531527 + 1013904223) % codeSpace)))

structure Issue where
  title : String
  body : String
  deriving Repr, DecidableEq

/-- The directory, and the whole object as it is echoed. -/
structure RepoLocation where
  localDir : String
  json : String
  deriving Repr, DecidableEq

structure DispatchDetail where
  dispatchID : String
  issue : Issue
  repoLocation : RepoLocation
  sandboxProfile : String
  deriving Repr, DecidableEq

/-- The service: what there is, what waits to be claimed, and who has claimed what. -/
structure Ploom where
  dispatches : List DispatchDetail
  pending : List String
  claimed : List String
  elsewhere : List String
  deriving Repr, DecidableEq

inductive PloomError where
  | alreadyClaimed
  | dispatchNotFound
  | other
  deriving Repr, DecidableEq

/-- What becomes of a request to the service. -/
inductive Delivery where
  | answered
  | lost
  | unanswered
  deriving Repr, DecidableEq

structure LaunchConfig where
  token : String
  port : Nat
  bind : String
  deriving Repr, DecidableEq

structure DiffMeta where
  files : Nat
  add : Nat
  del : Nat
  deriving Repr, DecidableEq

/-! ## The state -/

/-- What comes from outside at a moment: file system, git, clock and network, and which of them fail. -/
structure World where
  canonicalize : String → Except String String
  revParse : String → Except String String
  porcelain : String → Except String String
  gitDiff : String → String → Except String DiffMeta
  newID : String
  config : LaunchConfig
  now : Int
  tmuxFails : Option String
  tokenFails : Option String
  statementFails : Nat → Bool
  ploom : Delivery
  panics : Bool

/-- `boot` counts the starts of the daemon, and `locks` are the repositories whose mutex is locked. -/
structure DaemonState where
  boot : Nat
  db : Tables
  locks : List String
  sessions : List TmuxSession
  nextSession : Nat
  relays : List String
  ploom : Ploom
  world : World

def Status.Live (s : Status) : Prop := s = .accepted ∨ s = .running

instance (s : Status) : Decidable (Status.Live s) := inferInstanceAs (Decidable (_ ∨ _))

def DaemonState.faults (s : DaemonState) (n : Nat) : Option StoreError := if s.world.statementFails n then some .database else none

/-- A statement by itself. -/
def DaemonState.query {α : Type} (s : DaemonState) (read : Tables → Except StoreError α) : Except StoreError α :=
  if s.world.statementFails 0 then .error .database else read s.db

/-! ## What is done in one go -/

inductive DaemonOp where
  -- admission
  | canonicalize (localDir : String)
  | lock (key : String)
  | unlock (key : String)
  | revParse (dir : String)
  | porcelain (dir : String)
  -- launch
  | newID
  | config
  | hasSession (name : String)
  | newSession (name cwd : String)
  | listSessions
  | writeToken (executionID token : String)
  | sendKeys (target keys : String)
  | hasRelay (code : String)
  | subscriberToRelay (code prompt : String)
  | killSession (name : String)
  -- the store
  | hasLiveByRepo (key : String)
  | store (op : StoreOp)
  | liveIDs
  | loadByID (id : String)
  | idByCode (code : String)
  | gitDiff (repoPath headAtStart : String)
  -- the service
  | pollPending
  | claim (dispatchID : String)
  | fetch (dispatchID : String)

def DaemonOp.Answer : DaemonOp → Type
  | .canonicalize _ | .revParse _ | .porcelain _ => Except String String
  | .lock _ | .unlock _ | .subscriberToRelay _ _ => Unit
  | .newID => String
  | .config => LaunchConfig
  | .hasSession _ | .hasRelay _ => Bool
  | .newSession _ _ | .writeToken _ _ | .sendKeys _ _ | .killSession _ => Except String Unit
  | .listSessions => Except String (List TmuxSession)
  | .hasLiveByRepo _ => Except StoreError Bool
  | .store _ => Except StoreError StoreReply
  | .liveIDs => Except StoreError (List String)
  | .loadByID _ => Except StoreError Execution
  | .idByCode _ => Except StoreError (Option String)
  | .gitDiff _ _ => Except String DiffMeta
  | .pollPending => Except PloomError (List String)
  | .claim _ => Except PloomError Unit
  | .fetch _ => Except PloomError DispatchDetail

/-- `ORDER BY created_at, execution_id` -/
def olderFirst (a b : Execution) : Prop :=
  a.createdAt < b.createdAt ∨ a.createdAt = b.createdAt ∧ ¬b.executionID < a.executionID

instance : DecidableRel olderFirst := fun _ _ => inferInstanceAs (Decidable (_ ∨ _))

/-- A claim takes what is pending; one's own may be claimed again. -/
def Ploom.claim (p : Ploom) (dispatchID : String) : Except PloomError Unit × Ploom :=
  if dispatchID ∈ p.pending then
    (.ok (), { p with pending := p.pending.filter (· ≠ dispatchID), claimed := dispatchID :: p.claimed.filter (· ≠ dispatchID) })
  else if dispatchID ∈ p.claimed then (.ok (), p)
  else if dispatchID ∈ p.elsewhere then (.error .alreadyClaimed, p)
  else (.error .dispatchNotFound, p)

/-- A claim that may get lost on its way, or its answer. -/
def DaemonState.claim (s : DaemonState) (dispatchID : String) : Except PloomError Unit × DaemonState :=
  match s.world.ploom with
  | .lost => (.error .other, s)
  | .answered => ((s.ploom.claim dispatchID).1, { s with ploom := (s.ploom.claim dispatchID).2 })
  | .unanswered => (.error .other, { s with ploom := (s.ploom.claim dispatchID).2 })

def DaemonState.ask {α : Type} (s : DaemonState) (answer : Ploom → Except PloomError α) : Except PloomError α :=
  if s.world.ploom = .answered then answer s.ploom else .error .other

def DaemonState.tmux {α : Type} (s : DaemonState) (run : DaemonState → Except String α × DaemonState) : Except String α × DaemonState :=
  match s.world.tmuxFails with
  | some err => (.error err, s)
  | none => run s

def DaemonOp.run : (o : DaemonOp) → DaemonState → o.Answer × DaemonState
  | .canonicalize localDir, s => (s.world.canonicalize localDir, s)
  | .lock key, s => ((), { s with locks := key :: s.locks })
  | .unlock key, s => ((), { s with locks := s.locks.filter (· ≠ key) })
  | .revParse dir, s => (s.world.revParse dir, s)
  | .porcelain dir, s => (s.world.porcelain dir, s)
  | .newID, s => (s.world.newID, s)
  | .config, s => (s.world.config, s)
  | .hasSession name, s => (s.world.tmuxFails.isNone && s.sessions.any (·.name = name), s)
  | .newSession name _, s => s.tmux fun s =>
    if s.sessions.any (·.name = name) then (.error "exit status 1", s)
    else (.ok (), { s with sessions := s.sessions ++ [⟨name, s.nextSession⟩], nextSession := s.nextSession + 1 })
  | .listSessions, s => s.tmux fun s => (.ok s.sessions, s)
  | .writeToken _ _, s => (match s.world.tokenFails with | some err => .error err | none => .ok (), s)
  | .sendKeys _ _, s => s.tmux fun s => (.ok (), s)
  | .hasRelay code, s => (s.relays.contains code, s)
  | .subscriberToRelay _ _, s => ((), s)
  | .killSession name, s => s.tmux fun s =>
    if s.sessions.any (·.name = name) then (.ok (), { s with sessions := s.sessions.filter (·.name ≠ name) }) else (.error "no session", s)
  | .hasLiveByRepo key, s => (s.query fun db => .ok (decide (∃ r ∈ db.executions, r.repoLocation = key ∧ Status.Live r.status)), s)
  | .store op, s => ((StoreCall.serve ⟨op, s.world.now, s.faults⟩ s.db).1, { s with db := (StoreCall.serve ⟨op, s.world.now, s.faults⟩ s.db).2 })
  | .liveIDs, s =>
    (s.query fun db => .ok (((db.executions.filter fun r => decide (Status.Live r.status)).insertionSort olderFirst).map (·.executionID)), s)
  | .loadByID id, s => (s.query fun db =>
    match db.executions.find? (·.executionID = id) with
    | some exec => .ok exec
    | none => .error .noRows, s)
  | .idByCode code, s => (s.query fun db => .ok ((db.executions.find? (·.sessionCode = some code)).map (·.executionID)), s)
  | .gitDiff repoPath headAtStart, s => (s.world.gitDiff repoPath headAtStart, s)
  | .pollPending, s => (s.ask fun p => .ok p.pending, s)
  | .claim dispatchID, s => s.claim dispatchID
  | .fetch dispatchID, s => (s.ask fun p =>
    match p.dispatches.find? (·.dispatchID = dispatchID) with
    | some detail => if dispatchID ∈ p.claimed then .ok detail else .error .dispatchNotFound
    | none => .error .dispatchNotFound, s)

/-- A goroutine that unwinds. -/
inductive Panic where
  | panic
  deriving Repr, DecidableEq

/-- The mutexes do not panic. -/
def DaemonOp.MayPanic : DaemonOp → Prop
  | .lock _ | .unlock _ => False
  | _ => True

instance : DecidablePred DaemonOp.MayPanic
  | .lock _ | .unlock _ => isFalse id
  | .canonicalize _ | .revParse _ | .porcelain _ | .newID | .config | .hasSession _ | .newSession _ _ | .listSessions | .writeToken _ _
  | .sendKeys _ _ | .hasRelay _ | .subscriberToRelay _ _ | .killSession _ | .hasLiveByRepo _ | .store _ | .liveIDs | .loadByID _
  | .idByCode _ | .gitDiff _ _ | .pollPending | .claim _ | .fetch _ => isTrue trivial

def Daemon : Iface where
  Op := DaemonOp
  Res o := Except Panic o.Answer

def DaemonOp.exec (o : DaemonOp) (s : DaemonState) : Except Panic o.Answer × DaemonState :=
  if s.world.panics = true ∧ o.MayPanic then (.error .panic, s) else (.ok (o.run s).1, (o.run s).2)

/-! ## What happens by itself -/

inductive DaemonEvent where
  | restart
  | world (w : World)
  | tmuxRestart
  | sessionEnds (name : String)
  /-- Somebody opens a session; the names of executions are not theirs. -/
  | userSession (name : String)
  | relayConnects (code : String)
  | relayLeaves (code : String)
  | dispatched (detail : DispatchDetail)
  | claimedElsewhere (dispatchID : String)
  /-- The service offers again what was claimed. -/
  | redelivered (dispatchID : String)

/-- A restart leaves the rows and the sessions, and a new server of tmux counts from the start. -/
def DaemonEvent.tick : DaemonEvent → DaemonState → DaemonState
  | .restart, s => { s with boot := s.boot + 1, locks := [], relays := [] }
  | .world w, s => { s with world := w }
  | .tmuxRestart, s => { s with sessions := [], nextSession := 0, relays := [] }
  | .sessionEnds name, s => { s with sessions := s.sessions.filter (·.name ≠ name) }
  | .userSession name, s =>
    if sessionNamePrefix.toList <+: name.toList ∨ s.sessions.any (·.name = name) then s
    else { s with sessions := s.sessions ++ [⟨name, s.nextSession⟩], nextSession := s.nextSession + 1 }
  | .relayConnects code, s => { s with relays := code :: s.relays }
  | .relayLeaves code, s => { s with relays := s.relays.filter (· ≠ code) }
  | .dispatched detail, s => { s with ploom :=
      { s.ploom with dispatches := s.ploom.dispatches ++ [detail], pending := s.ploom.pending ++ [detail.dispatchID] } }
  | .claimedElsewhere dispatchID, s => { s with ploom :=
      { s.ploom with pending := s.ploom.pending.filter (· ≠ dispatchID), elsewhere := dispatchID :: s.ploom.elsewhere } }
  | .redelivered dispatchID, s => { s with ploom :=
      { s.ploom with claimed := s.ploom.claimed.filter (· ≠ dispatchID), pending := dispatchID :: s.ploom.pending } }

end Purdex.Runtime
