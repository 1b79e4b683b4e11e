/-
The daemon's side of sync: the tables of groups, canonical bundles, history and pairing codes, and
the statements the handlers issue. A statement is atomic and may fail; between two statements of
one request those of others may run.
-/
import Purdex.Conc.Prog
import Mathlib.Data.List.Sort
import Mathlib.Data.List.Nodup

namespace Purdex.Sync

open Conc

/-! ## Tables -/

structure GroupRow where
  groupID : String
  clientID : String
  device : String
  lastSeen : Int
  deriving Repr, DecidableEq

def GroupRow.key (row : GroupRow) : String × String := (row.groupID, row.clientID)

/-- The bundle of a group; the default value is the empty text. -/
structure CanonicalRow (β : Type) where
  groupID : String
  updatedAt : Int
  bundle : β
  deriving Repr, DecidableEq

structure HistoryRow (β : Type) where
  id : Nat
  groupID : String
  clientID : String
  device : String
  bundle : β
  timestamp : Int
  deriving Repr, DecidableEq

structure PairingRow where
  code : String
  groupID : String
  createdAt : Int
  expiresAt : Int
  attempts : Nat
  deriving Repr, DecidableEq

/-- One more failed attempt. -/
def PairingRow.bump (row : PairingRow) : PairingRow := { row with attempts := row.attempts + 1 }

/-- The database, with its primary keys, and how many statements were issued so far. -/
structure DB (β : Type) where
  groups : List GroupRow
  canonical : List (CanonicalRow β)
  history : List (HistoryRow β)
  nextID : Nat
  pairing : List PairingRow
  tick : Nat
  groupKeys : (groups.map (·.key)).Nodup
  canonicalKeys : (canonical.map (·.groupID)).Nodup
  pairingKeys : (pairing.map (·.code)).Nodup
  historyIDs : history.Pairwise (·.id < ·.id)
  historyNext : ∀ row ∈ history, row.id < nextID

def DB.empty {β : Type} : DB β :=
  ⟨[], [], [], 1, [], 0, by simp, by simp, by simp, by simp, by simp⟩

variable {β : Type}

namespace DB

variable (db : DB β)

def next : DB β := { db with tick := db.tick + 1 }

/-- The rows a statement keeps its key for. -/
theorem map_keys {α κ : Type} {key : α → κ} {f : α → α} (hf : ∀ a, key (f a) = key a) {rows : List α}
    (h : (rows.map key).Nodup) : ((rows.map f).map key).Nodup := by
  simpa [List.map_map, Function.comp_def, hf] using h

theorem filter_keys {α κ : Type} {key : α → κ} (p : α → Bool) {rows : List α} (h : (rows.map key).Nodup) :
    ((rows.filter p).map key).Nodup :=
  h.sublist (List.filter_sublist.map key)

theorem append_keys {α κ : Type} {key : α → κ} {rows : List α} {row : α} (h : (rows.map key).Nodup)
    (hnew : ∀ r ∈ rows, key r ≠ key row) : ((rows ++ [row]).map key).Nodup := by
  rw [List.map_append, List.nodup_append]
  refine ⟨h, by simp, fun a ha b hb => ?_⟩
  obtain ⟨r, hr, rfl⟩ := List.mem_map.1 ha
  rw [List.map_singleton, List.mem_singleton] at hb
  exact hb ▸ hnew r hr

/-- `UPDATE sync_groups SET last_seen`. -/
def touch (groupID clientID : String) (now : Int) : DB β :=
  { db with
    groups := db.groups.map fun row => if row.key = (groupID, clientID) then { row with lastSeen := now } else row
    groupKeys := map_keys (fun row => by split <;> rfl) db.groupKeys }

/-- A member is added, or its device and last seen are renewed. -/
def upsertMember (row : GroupRow) : DB β :=
  if h : ∃ r ∈ db.groups, r.key = row.key then
    { db with
      groups := db.groups.map fun r => if r.key = row.key then row else r
      groupKeys := map_keys (fun r => by split <;> simp_all) db.groupKeys }
  else
    { db with
      groups := db.groups ++ [row]
      groupKeys := append_keys db.groupKeys fun r hr heq => h ⟨r, hr, heq⟩ }

def deleteMember (groupID clientID : String) : DB β :=
  { db with
    groups := db.groups.filter fun row => row.key ≠ (groupID, clientID)
    groupKeys := filter_keys _ db.groupKeys }

/-- `INSERT OR IGNORE`. -/
def insertGroup [Inhabited β] (groupID : String) : DB β :=
  if h : ∃ r ∈ db.canonical, r.groupID = groupID then db
  else
    { db with
      canonical := db.canonical ++ [⟨groupID, 0, default⟩]
      canonicalKeys := append_keys db.canonicalKeys fun r hr heq => h ⟨r, hr, heq⟩ }

def upsertCanonical (row : CanonicalRow β) : DB β :=
  if h : ∃ r ∈ db.canonical, r.groupID = row.groupID then
    { db with
      canonical := db.canonical.map fun r => if r.groupID = row.groupID then row else r
      canonicalKeys := map_keys (fun r => by split <;> simp_all) db.canonicalKeys }
  else
    { db with
      canonical := db.canonical ++ [row]
      canonicalKeys := append_keys db.canonicalKeys fun r hr heq => h ⟨r, hr, heq⟩ }

/-- The id is the next one, which is never given twice. -/
def insertHistory (groupID clientID device : String) (bundle : β) (timestamp : Int) : DB β :=
  { db with
    history := db.history ++ [⟨db.nextID, groupID, clientID, device, bundle, timestamp⟩]
    nextID := db.nextID + 1
    historyIDs := by
      rw [List.pairwise_append]
      refine ⟨db.historyIDs, by simp, fun a ha b hb => ?_⟩
      obtain rfl := List.mem_singleton.1 hb
      exact db.historyNext a ha
    historyNext := by
      intro row hrow
      rcases List.mem_append.1 hrow with h | h
      · exact Nat.lt_succ_of_lt (db.historyNext row h)
      · obtain rfl := List.mem_singleton.1 h
        exact Nat.lt_succ_self _ }

def keptEntries : Nat := 100

/-- The ids pruning keeps: by timestamp, the latest first, equal ones as they come in `rows`. -/
def keptIDs (rows : List (HistoryRow β)) : List Nat :=
  ((rows.insertionSort fun a b => b.timestamp ≤ a.timestamp).take keptEntries).map (·.id)

/-- All but the kept rows of the group go; `order` is the order in which its rows come up. -/
def pruneHistory (order : List (HistoryRow β) → List (HistoryRow β)) (groupID : String) : DB β :=
  { db with
    history := db.history.filter fun row =>
      row.groupID ≠ groupID || row.id ∈ keptIDs (order (db.history.filter fun row => row.groupID = groupID))
    historyIDs := db.historyIDs.filter _
    historyNext := fun row hrow => db.historyNext row (List.mem_filter.1 hrow).1 }

def deleteCodes (groupID : String) : DB β :=
  { db with
    pairing := db.pairing.filter fun row => row.groupID ≠ groupID
    pairingKeys := filter_keys _ db.pairingKeys }

/-- A code that is there already violates the primary key. -/
def insertCode (row : PairingRow) : Option (DB β) :=
  if h : ∃ r ∈ db.pairing, r.code = row.code then none
  else
    some { db with
      pairing := db.pairing ++ [row]
      pairingKeys := append_keys db.pairingKeys fun r hr heq => h ⟨r, hr, heq⟩ }

def bumpAttempts : DB β :=
  { db with
    pairing := db.pairing.map PairingRow.bump
    pairingKeys := map_keys (f := PairingRow.bump) (fun _ => rfl) db.pairingKeys }

def deleteCode (code : String) : DB β :=
  { db with
    pairing := db.pairing.filter fun row => row.code ≠ code
    pairingKeys := filter_keys _ db.pairingKeys }

end DB

/-! ## Replies -/

/-- The errors of the handlers and of the store. -/
inductive Err where
  | clientIDRequired
  | groupIDAndClientIDRequired
  | codeAndClientIDRequired
  | clientIDAndTargetIDRequired
  | readBody
  | invalidJSON
  | generateGroupID
  | store
  | clientNotInAnyGroup (clientID : String)
  | groupMissing (groupID : String)
  | generateCode
  | codeNotFound
  | codeLocked
  | codeExpired
  | targetNotFound (targetID : String)
  | notSameGroup
  deriving Repr, DecidableEq

structure HistorySummary where
  id : Nat
  clientID : String
  device : String
  timestamp : Int
  deriving Repr, DecidableEq

structure GroupMember where
  clientID : String
  device : String
  lastSeen : Int
  deriving Repr, DecidableEq

inductive Reply (β : Type) where
  | noContent
  | null
  | bundle (bundle : β)
  | history (entries : List HistorySummary)
  | group (groupID : String)
  | code (code : String)
  | members (members : List GroupMember)
  | error (status : Nat) (err : Err)
  deriving Repr, DecidableEq

/-! ## Statements -/

/-- Why a pairing code is deleted. -/
inductive Deletion where
  | locked
  | expired
  | redeemed
  deriving Repr, DecidableEq

inductive Op (β : Type) where
  | now
  | random (bytes : Nat)
  | selectClientGroup (clientID : String)
  | touch (groupID clientID : String) (now : Int)
  | selectDevice (groupID clientID : String)
  | upsertCanonical (groupID : String) (now : Int) (bundle : β)
  | insertHistory (groupID clientID device : String) (bundle : β) (now : Int)
  | pruneHistory (groupID : String)
  | selectBundle (groupID : String)
  | selectHistory (groupID : String) (limit : Nat)
  | insertGroup (groupID : String)
  | selectGroup (groupID : String)
  | upsertMember (groupID clientID device : String) (now : Int)
  | deleteMember (groupID clientID : String)
  | selectMembers (groupID : String)
  | deleteCodes (groupID : String)
  | insertCode (row : PairingRow)
  | selectCode (code : String)
  | bumpAttempts
  | deleteCode (code : String) (why : Deletion)
  | respond (reply : Reply β)

/-- `none` and `false` are errors; a query that finds no row answers `some none`. -/
@[reducible] def Op.Res : Op β → Type
  | .now => Int
  | .random _ => Option (List Nat)
  | .selectClientGroup _ => Option (Option String)
  | .selectDevice _ _ => Option (Option String)
  | .selectBundle _ => Option (Option β)
  | .selectHistory _ _ => Option (List (HistoryRow β))
  | .selectGroup _ => Option Bool
  | .selectMembers _ => Option (List GroupRow)
  | .selectCode _ => Option (Option PairingRow)
  | .respond _ => Unit
  | _ => Bool

@[reducible] def iface (β : Type) : Iface := ⟨Op β, Op.Res⟩

/-- What the database does not determine, by the number of the statement: whether it fails, the
clock in seconds, the random bytes, and the order in which rows come up that no `ORDER BY` orders. -/
structure Env (β : Type) where
  fails : Nat → Bool
  clock : Nat → Int
  random : Nat → Option (List Nat)
  scan : Nat → List GroupRow → List GroupRow
  scan_perm : ∀ n rows, (scan n rows).Perm rows
  ties : Nat → List (HistoryRow β) → List (HistoryRow β)
  ties_perm : ∀ n rows, (ties n rows).Perm rows

/-- No statement fails, and the clock is the number of the statement. -/
def Env.calm (random : Nat → List Nat) : Env β where
  fails _ := false
  clock n := n
  random n := some (random n)
  scan _ rows := rows
  scan_perm _ _ := .refl _
  ties _ rows := rows
  ties_perm _ _ := .refl _

/-- A statement that changes the database, unless it fails. -/
def write (env : Env β) (db db' : DB β) : Bool × DB β :=
  if env.fails db.tick then (false, db.next) else (true, db'.next)

/-- A query. -/
def read {α : Type} (env : Env β) (db : DB β) (a : α) : Option α × DB β :=
  (if env.fails db.tick then none else some a, db.next)

def exec [Inhabited β] (env : Env β) : (o : Op β) → DB β → o.Res × DB β
  | .now, db => (env.clock db.tick, db.next)
  | .random _, db => (env.random db.tick, db.next)
  | .selectClientGroup clientID, db =>
    read env db (((env.scan db.tick db.groups).find? fun row => row.clientID = clientID).map (·.groupID))
  | .touch groupID clientID now, db => write env db (db.touch groupID clientID now)
  | .selectDevice groupID clientID, db =>
    read env db ((db.groups.find? fun row => row.key = (groupID, clientID)).map (·.device))
  | .upsertCanonical groupID now bundle, db => write env db (db.upsertCanonical ⟨groupID, now, bundle⟩)
  | .insertHistory groupID clientID device bundle now, db =>
    write env db (db.insertHistory groupID clientID device bundle now)
  | .pruneHistory groupID, db => write env db (db.pruneHistory (env.ties db.tick) groupID)
  | .selectBundle groupID, db => read env db ((db.canonical.find? fun row => row.groupID = groupID).map (·.bundle))
  | .selectHistory groupID limit, db =>
    read env db (((db.history.filter fun row => row.groupID = groupID).reverse).take limit)
  | .insertGroup groupID, db => write env db (db.insertGroup groupID)
  | .selectGroup groupID, db => read env db (db.canonical.any fun row => row.groupID = groupID)
  | .upsertMember groupID clientID device now, db => write env db (db.upsertMember ⟨groupID, clientID, device, now⟩)
  | .deleteMember groupID clientID, db => write env db (db.deleteMember groupID clientID)
  | .selectMembers groupID, db =>
    read env db (((env.scan db.tick db.groups).filter fun row => row.groupID = groupID).insertionSort
      fun a b => b.lastSeen ≤ a.lastSeen)
  | .deleteCodes groupID, db => write env db (db.deleteCodes groupID)
  | .insertCode row, db =>
    match db.insertCode row with
    | some db' => write env db db'
    | none => (false, db.next)
  | .selectCode code, db => read env db (db.pairing.find? fun row => row.code = code)
  | .bumpAttempts, db => write env db db.bumpAttempts
  | .deleteCode code _, db => write env db (db.deleteCode code)
  | .respond _, db => ((), db.next)

/-! ## What a statement leaves alone -/

section Frame

variable (env : Env β) (db db' : DB β)

theorem write_cases : env.fails db.tick = true ∧ write env db db' = (false, db.next) ∨
    env.fails db.tick = false ∧ write env db db' = (true, db'.next) := by
  unfold write
  cases env.fails db.tick
  · exact .inr ⟨rfl, rfl⟩
  · exact .inl ⟨rfl, rfl⟩

/-- The value after a statement that may have failed. -/
def ifDone {α : Type} (done : Bool) (after before : α) : α := if done then after else before

theorem ifDone_eq_some {α : Type} {done : Bool} {a b : α} (h : ifDone done (some a) none = some b) :
    done = true ∧ a = b := by
  unfold ifDone at h
  split at h
  · exact ⟨‹_›, Option.some.inj h⟩
  · cases h

theorem write_view {α : Type} (view : DB β → α) (hnext : ∀ db, view db.next = view db) :
    view (write env db db').2 = ifDone (write env db db').1 (view db') (view db) := by
  unfold write ifDone
  split <;> simp [hnext]

/-- A statement changes nothing of a part of the database that it would leave alone if it succeeded. -/
theorem write_frame {α : Type} (view : DB β → α) (hnext : ∀ db, view db.next = view db) (h : view db' = view db) :
    view (write env db db').2 = view db := by
  rw [write_view env db db' view hnext, ifDone, h, ite_self]

@[simp] theorem next_groups : db.next.groups = db.groups := rfl

@[simp] theorem next_canonical : db.next.canonical = db.canonical := rfl

@[simp] theorem next_history : db.next.history = db.history := rfl

@[simp] theorem next_pairing : db.next.pairing = db.pairing := rfl

variable (row : GroupRow) (groupID : String)

@[simp] theorem upsertMember_pairing : (db.upsertMember row).pairing = db.pairing := by
  unfold DB.upsertMember
  split <;> rfl

@[simp] theorem upsertCanonical_pairing (row : CanonicalRow β) : (db.upsertCanonical row).pairing = db.pairing := by
  unfold DB.upsertCanonical
  split <;> rfl

@[simp] theorem insertGroup_pairing [Inhabited β] : (db.insertGroup groupID).pairing = db.pairing := by
  unfold DB.insertGroup
  split <;> rfl

theorem insertCode_pairing {db db' : DB β} {row : PairingRow} (h : db.insertCode row = some db') :
    db'.pairing = db.pairing ++ [row] := by
  unfold DB.insertCode at h
  split at h
  · cases h
  · cases h
    rfl

end Frame

end Purdex.Sync
