/-
The blobs and snapshots of a daemon: uploads, appends in one transaction, and the collection of what
no snapshot needs any more.
-/
import Purdex.Backup.Manifest
import Purdex.Conc.Transaction
import Mathlib

namespace Purdex.Backup

open Conc Digest

/-! ## Tables -/

/-- The JSON of a list of entries; that of a nil slice is `null`. -/
inductive ManifestText where
  | null
  | array (entries : List ManifestEntry)
  | unreadable (text : String)
  deriving Repr, DecidableEq

def marshal : Option (List ManifestEntry) → ManifestText
  | none => .null
  | some entries => .array entries

def unmarshal : ManifestText → Option (List ManifestEntry)
  | .null => some []
  | .array entries => some entries
  | .unreadable _ => none

@[simp] theorem unmarshal_marshal (manifest : Option (List ManifestEntry)) : unmarshal (marshal manifest) = some (manifest.getD []) := by
  cases manifest <;> rfl

structure Blob where
  hash : String
  content : List UInt8
  size : Int
  createdAt : Int
  deriving Repr, DecidableEq

structure Snapshot where
  id : Int
  storeID : String
  device : String
  parentID : Option Int
  isFork : Bool
  trigger : String
  createdAt : Int
  manifest : ManifestText
  deriving Repr, DecidableEq

/-- The rows, and the last id that was given out. -/
structure Tables where
  blobs : List Blob
  snapshots : List Snapshot
  sequence : Int
  deriving Repr, DecidableEq

inductive BackupError where
  | hashMismatch
  | invalidManifest (e : ManifestError)
  | unknownParent (id : Int) (storeID : String)
  | blobMissing (hash path : String)
  | sizeMismatch (path : String) (size length : Int)
  | database
  deriving Repr, DecidableEq

structure AppendRequest where
  storeID : String
  device : String
  parentID : Option Int
  trigger : String
  manifest : Option (List ManifestEntry)
  deriving Repr, DecidableEq

structure AppendResult where
  storeID : String
  snapshotID : Int
  currentHeadID : Int
  isFork : Bool
  device : String
  trigger : String
  createdAt : Int
  written : Bool
  deriving Repr, DecidableEq

/-! ## Blobs -/

/-- `INSERT OR IGNORE` of a content that has the hash. -/
def putBlob (now : Int) (hash : String) (content : List UInt8) : Tx Tables BackupError Unit :=
  if sha256Hex content ≠ hash then .abort .hashMismatch
  else .statement fun db =>
    .ok ((), if ∃ b ∈ db.blobs, b.hash = hash then db else { db with blobs := db.blobs ++ [⟨hash, content, content.length, now⟩] })

def getBlob (hash : String) : Tx Tables BackupError (Option (List UInt8)) :=
  .query fun db => .ok ((db.blobs.find? (·.hash = hash)).map (·.content))

/-! ## Collection -/

def maxSnapshots : Nat := 100

def maxAgeDays : Int := 90

def blobGraceSeconds : Int := 3600

/-- A difference of two times, as a machine integer. -/
def int64 (n : Int) : Int := n.bmod (2 ^ 64)

def parentOf (snaps : List Snapshot) (id : Int) : Int := ((snaps.find? (·.id = id)).bind (·.parentID)).getD 0

/-- The kept ids with those above `p` that are not kept yet. -/
def climb (snaps : List Snapshot) : Nat → List Int → Int → List Int
  | 0, keep, _ => keep
  | fuel + 1, keep, p => if p = 0 ∨ p ∈ keep then keep else climb snaps fuel (p :: keep) (parentOf snaps p)

/-- The latest, the recent, and whatever these descend from. -/
def keepSet (now : Int) (snaps : List Snapshot) : List Int :=
  let threshold := int64 (now - maxAgeDays * 86400)
  let aged := (snaps.filter (threshold ≤ ·.createdAt)).map (·.id)
  let latest := ((snaps.map (·.id)).insertionSort (· ≥ ·)).take maxSnapshots
  snaps.foldl (fun keep sn => if sn.id ∈ keep then climb snaps (snaps.length + 1) keep (parentOf snaps sn.id) else keep) (aged ++ latest)

def Tables.ofStore (db : Tables) (storeID : String) : List Snapshot := db.snapshots.filter (·.storeID = storeID)

def deleteSnapshots : List Int → Tx Tables BackupError Unit
  | [] => return
  | id :: rest => do
    .statement fun db => .ok ((), { db with snapshots := db.snapshots.filter (·.id ≠ id) })
    deleteSnapshots rest

/-- What a collection drops of the snapshots of a store. -/
def surplus (now : Int) (snaps : List Snapshot) : List Int := (snaps.filter (·.id ∉ keepSet now snaps)).map (·.id)

def gcSnapshots (storeID : String) (now : Int) : Tx Tables BackupError Unit := do
  let snaps ← .query fun db => .ok (db.ofStore storeID)
  deleteSnapshots (surplus now snaps)

/-- The hashes that a snapshot needs; none of a manifest that cannot be read. -/
def Snapshot.references (s : Snapshot) : List String :=
  (((unmarshal s.manifest).getD []).filter fun e => e.kind = "file" ∧ e.hash ≠ "").map (·.hash)

def Tables.referenced (db : Tables) : List String := db.snapshots.flatMap (·.references)

def graceThreshold (now : Int) : Int := int64 (now - blobGraceSeconds)

/-- The blobs that a collection takes. -/
def Tables.collectable (db : Tables) (now : Int) : List String :=
  (db.blobs.filter fun b => b.hash ∉ db.referenced ∧ b.createdAt < graceThreshold now).map (·.hash)

def deleteBlobs : List String → Tx Tables BackupError Unit
  | [] => return
  | hash :: rest => do
    .statement fun db => .ok ((), { db with blobs := db.blobs.filter (·.hash ≠ hash) })
    deleteBlobs rest

def gcBlobs (now : Int) : Tx Tables BackupError Unit := do
  let referenced ← .query fun db => .ok db.referenced
  let rows ← .query fun db => .ok db.blobs
  deleteBlobs ((rows.filter fun b => b.hash ∉ referenced ∧ b.createdAt < graceThreshold now).map (·.hash))

def gcTx (storeID : String) (now : Int) : Tx Tables BackupError Unit := do
  gcSnapshots storeID now
  gcBlobs now

def gcStores (now : Int) : List String → Tx Tables BackupError Unit
  | [] => return
  | storeID :: rest => do
    gcSnapshots storeID now
    gcStores now rest

def gc (now : Int) : Tx Tables BackupError Unit := do
  let stores ← .query fun db => .ok (db.snapshots.map (·.storeID)).dedup
  gcStores now stores
  gcBlobs now

/-! ## Snapshots -/

/-- The snapshot of a store with the greatest id. -/
def Tables.head (db : Tables) (storeID : String) : Option Snapshot :=
  letI : Preorder Int := Int.instLinearOrder.toPreorder
  (db.ofStore storeID).argmax (·.id)

def Tables.headID (db : Tables) (storeID : String) : Int := ((db.head storeID).map (·.id)).getD 0

def Tables.headManifest (db : Tables) (storeID : String) : ManifestText :=
  ((db.head storeID).map (·.manifest)).getD (.unreadable "")

def checkManifest (manifest : Option (List ManifestEntry)) : Tx Tables BackupError Unit :=
  match validateManifest (manifest.getD []) with
  | .ok () => return
  | .error e => .abort (.invalidManifest e)

def checkParent (storeID : String) (parentID : Option Int) : Tx Tables BackupError Unit :=
  match parentID with
  | none => return
  | some id => .query fun db =>
    if ∃ s ∈ db.snapshots, s.id = id ∧ s.storeID = storeID then .ok () else .error (.unknownParent id storeID)

def checkBlobs : List ManifestEntry → Tx Tables BackupError Unit
  | [] => return
  | e :: rest =>
    if e.kind ≠ "file" then checkBlobs rest
    else do
      let size ← .query fun db =>
        match db.blobs.find? (·.hash = e.hash) with
        | some b => .ok b.size
        | none => .error (.blobMissing e.hash e.path)
      if size ≠ e.size then Tx.abort (.sizeMismatch e.path e.size size)
      checkBlobs rest

/-- The next row; ids are never given out again. -/
def insertSnapshot (row : Snapshot) : Tx Tables BackupError Int :=
  .statement fun db => .ok (db.sequence + 1,
    { db with snapshots := db.snapshots ++ [{ row with id := db.sequence + 1 }], sequence := db.sequence + 1 })

def appendSnapshot (now : Int) (req : AppendRequest) : Tx Tables BackupError AppendResult := do
  let (headID, headManifest) ← .query fun db => .ok (db.headID req.storeID, db.headManifest req.storeID)
  checkManifest req.manifest
  checkParent req.storeID req.parentID
  checkBlobs (req.manifest.getD [])
  let manifestJSON := marshal req.manifest
  if headID ≠ 0 ∧ manifestJSON = headManifest then
    return ⟨req.storeID, headID, headID, false, "", "", 0, false⟩
  else
    let isFork := decide (req.parentID.getD 0 ≠ headID)
    let newID ← insertSnapshot ⟨0, req.storeID, req.device, req.parentID, isFork, req.trigger, now, manifestJSON⟩
    gcTx req.storeID now
    return ⟨req.storeID, newID, newID, isFork, req.device, req.trigger, now, true⟩

/-! ## What the operations do -/

section Effects

variable {db : Tables} {now : Int} {storeID : String}

theorem returns_putBlob {hash : String} {content : List UInt8} : (putBlob now hash content).Returns db fun _ db' =>
    sha256Hex content = hash ∧
      db' = if ∃ b ∈ db.blobs, b.hash = hash then db else { db with blobs := db.blobs ++ [⟨hash, content, content.length, now⟩] } := by
  unfold putBlob
  split
  · exact Tx.returns_abort
  · rename_i hhash
    refine Tx.returns_statement fun _ db' hrun => ?_
    obtain ⟨_, rfl⟩ := Prod.mk.inj (Except.ok.inj hrun)
    exact ⟨not_not.1 hhash, rfl⟩

theorem returns_deleteSnapshots : ∀ {ids : List Int} {db : Tables}, (deleteSnapshots ids).Returns db fun _ db' =>
    db' = { db with snapshots := db.snapshots.filter (·.id ∉ ids) }
  | [], db => Tx.returns_pure (by simp)
  | id :: rest, db => by
    refine Tx.returns_bind (Tx.returns_statement fun _ db₁ hrun => ?_)
    obtain ⟨_, rfl⟩ := Prod.mk.inj (Except.ok.inj hrun)
    refine returns_deleteSnapshots.mono fun _ db' h => ?_
    rw [h, List.filter_filter]
    congr 1
    refine List.filter_congr fun s _ => ?_
    simp only [List.mem_cons, not_or, ← Bool.decide_and, decide_eq_decide]
    exact and_comm

theorem returns_deleteBlobs : ∀ {hashes : List String} {db : Tables}, (deleteBlobs hashes).Returns db fun _ db' =>
    db' = { db with blobs := db.blobs.filter (·.hash ∉ hashes) }
  | [], db => Tx.returns_pure (by simp)
  | hash :: rest, db => by
    refine Tx.returns_bind (Tx.returns_statement fun _ db₁ hrun => ?_)
    obtain ⟨_, rfl⟩ := Prod.mk.inj (Except.ok.inj hrun)
    refine returns_deleteBlobs.mono fun _ db' h => ?_
    rw [h, List.filter_filter]
    congr 1
    refine List.filter_congr fun b _ => ?_
    simp only [List.mem_cons, not_or, ← Bool.decide_and, decide_eq_decide]
    exact and_comm

/-- The tables after the surplus of a store is gone. -/
def Tables.pruned (db : Tables) (storeID : String) (now : Int) : Tables :=
  { db with snapshots := db.snapshots.filter (·.id ∉ surplus now (db.ofStore storeID)) }

/-- The tables after the blobs that nothing needs are gone. -/
def Tables.swept (db : Tables) (now : Int) : Tables := { db with blobs := db.blobs.filter (·.hash ∉ db.collectable now) }

theorem returns_gcSnapshots : (gcSnapshots storeID now).Returns db fun _ db' => db' = db.pruned storeID now := by
  refine Tx.returns_bind (Tx.returns_query fun snaps h => ?_)
  obtain rfl := Except.ok.inj h
  exact returns_deleteSnapshots

theorem returns_gcBlobs : (gcBlobs now).Returns db fun _ db' => db' = db.swept now := by
  refine Tx.returns_bind (Tx.returns_query fun referenced h => Tx.returns_bind (Tx.returns_query fun rows h' => ?_))
  obtain rfl := Except.ok.inj h
  obtain rfl := Except.ok.inj h'
  exact returns_deleteBlobs

theorem returns_gcTx : (gcTx storeID now).Returns db fun _ db' => db' = (db.pruned storeID now).swept now := by
  refine Tx.returns_bind (returns_gcSnapshots.mono fun _ db₁ h => ?_)
  rw [h]
  exact returns_gcBlobs

theorem returns_gcStores : ∀ {stores : List String} {db : Tables}, (gcStores now stores).Returns db fun _ db' =>
    db' = stores.foldl (fun db storeID => db.pruned storeID now) db
  | [], db => Tx.returns_pure rfl
  | storeID :: rest, db => by
    refine Tx.returns_bind (returns_gcSnapshots.mono fun _ db₁ h => ?_)
    rw [h]
    exact returns_gcStores

/-- The tables after every store has lost its surplus. -/
def Tables.prunedAll (db : Tables) (now : Int) : Tables :=
  (db.snapshots.map (·.storeID)).dedup.foldl (fun db storeID => db.pruned storeID now) db

theorem returns_gc : (gc now).Returns db fun _ db' => db' = (db.prunedAll now).swept now := by
  refine Tx.returns_bind (Tx.returns_query fun stores h => ?_)
  obtain rfl := Except.ok.inj h
  refine Tx.returns_bind (returns_gcStores.mono fun _ db₁ h => ?_)
  rw [h]
  exact returns_gcBlobs

theorem returns_checkManifest {manifest : Option (List ManifestEntry)} : (checkManifest manifest).Returns db fun _ db' =>
    db' = db ∧ validateManifest (manifest.getD []) = .ok () := by
  unfold checkManifest
  split
  · rename_i hok
    exact Tx.returns_pure ⟨rfl, hok⟩
  · exact Tx.returns_abort

theorem returns_checkParent {parentID : Option Int} : (checkParent storeID parentID).Returns db fun _ db' =>
    db' = db ∧ ∀ id ∈ parentID, ∃ s ∈ db.snapshots, s.id = id ∧ s.storeID = storeID := by
  unfold checkParent
  split
  · exact Tx.returns_pure ⟨rfl, nofun⟩
  · refine Tx.returns_query fun _ h => ⟨rfl, ?_⟩
    split at h
    · rename_i hfound
      rintro _ ⟨⟩
      exact hfound
    · cases h

theorem returns_checkBlobs : ∀ {entries : List ManifestEntry} {db : Tables}, (checkBlobs entries).Returns db fun _ db' =>
    db' = db ∧ ∀ e ∈ entries, e.kind = "file" → ∃ b ∈ db.blobs, b.hash = e.hash ∧ b.size = e.size
  | [], db => Tx.returns_pure ⟨rfl, nofun⟩
  | e :: rest, db => by
    rw [checkBlobs]
    split
    · rename_i hkind
      refine returns_checkBlobs.mono fun _ db' h => ⟨h.1, fun e' he' hfile => ?_⟩
      rcases List.mem_cons.1 he' with rfl | he'
      · exact absurd hfile hkind
      · exact h.2 e' he' hfile
    · refine Tx.returns_bind (Tx.returns_query fun size hsize => ?_)
      cases hfind : db.blobs.find? (·.hash = e.hash) with
      | none =>
        rw [hfind] at hsize
        cases hsize
      | some b =>
        rw [hfind] at hsize
        obtain rfl := Except.ok.inj hsize
        split
        · exact Tx.returns_bind Tx.returns_abort
        · rename_i heq
          refine Tx.returns_bind (Tx.returns_pure (returns_checkBlobs.mono fun _ db' h => ⟨h.1, fun e' he' hfile => ?_⟩))
          rcases List.mem_cons.1 he' with rfl | he'
          · exact ⟨b, List.mem_of_find?_eq_some hfind, by simpa using List.find?_some hfind, not_not.1 heq⟩
          · exact h.2 e' he' hfile

/-- What an append was checked for. -/
structure Checked (db : Tables) (req : AppendRequest) : Prop where
  valid : validateManifest (req.manifest.getD []) = .ok ()
  parent : ∀ id ∈ req.parentID, ∃ s ∈ db.snapshots, s.id = id ∧ s.storeID = req.storeID
  stored : ∀ e ∈ req.manifest.getD [], e.kind = "file" → ∃ b ∈ db.blobs, b.hash = e.hash ∧ b.size = e.size

/-- The content is at the head of the store already. -/
def AppendRequest.Unchanged (req : AppendRequest) (db : Tables) : Prop :=
  db.headID req.storeID ≠ 0 ∧ marshal req.manifest = db.headManifest req.storeID

instance (req : AppendRequest) (db : Tables) : Decidable (req.Unchanged db) := inferInstanceAs (Decidable (_ ∧ _))

/-- The row that an append writes. -/
def AppendRequest.row (req : AppendRequest) (db : Tables) (now : Int) : Snapshot :=
  ⟨db.sequence + 1, req.storeID, req.device, req.parentID, decide (req.parentID.getD 0 ≠ db.headID req.storeID), req.trigger, now,
    marshal req.manifest⟩

def Tables.inserted (db : Tables) (row : Snapshot) : Tables :=
  { db with snapshots := db.snapshots ++ [row], sequence := db.sequence + 1 }

/-- An append finds its content at the head of the store, or writes a row and collects. -/
theorem returns_appendSnapshot {req : AppendRequest} : (appendSnapshot now req).Returns db fun out db' =>
    Checked db req ∧
      if req.Unchanged db
      then out = ⟨req.storeID, db.headID req.storeID, db.headID req.storeID, false, "", "", 0, false⟩ ∧ db' = db
      else out = ⟨req.storeID, (req.row db now).id, (req.row db now).id, (req.row db now).isFork, req.device, req.trigger, now, true⟩ ∧
        db' = ((db.inserted (req.row db now)).pruned req.storeID now).swept now := by
  refine Tx.returns_bind (Tx.returns_query fun read hread => ?_)
  obtain rfl := Except.ok.inj hread
  refine Tx.returns_bind (returns_checkManifest.mono fun _ db₁ hvalid => ?_)
  obtain ⟨rfl, hvalid⟩ := hvalid
  refine Tx.returns_bind (returns_checkParent.mono fun _ db₂ hparent => ?_)
  obtain ⟨rfl, hparent⟩ := hparent
  refine Tx.returns_bind (returns_checkBlobs.mono fun _ db₃ hstored => ?_)
  obtain ⟨rfl, hstored⟩ := hstored
  change Tx.Returns (if req.Unchanged db₃ then _ else _) _ _
  split
  · exact Tx.returns_pure ⟨⟨hvalid, hparent, hstored⟩, rfl, rfl⟩
  · refine Tx.returns_bind (Tx.returns_statement fun newID db₄ hrun => ?_)
    obtain ⟨rfl, rfl⟩ := Prod.mk.inj (Except.ok.inj hrun)
    refine Tx.returns_bind (returns_gcTx.mono fun _ db₅ hgc => Tx.returns_pure ⟨⟨hvalid, hparent, hstored⟩, rfl, ?_⟩)
    rw [hgc]
    rfl

end Effects

end Purdex.Backup
