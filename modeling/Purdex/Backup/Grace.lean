/-
Uploads in progress: what a daemon says it has, the collections that run meanwhile, and the clients that negotiate,
upload and append.
-/
import Purdex.Backup.Runs
import Purdex.Conc.Pool
import Purdex.Conc.Runs
import Mathlib

namespace Purdex.Backup

open Conc Digest

/-! ## The daemon -/

/-- What the daemon does in one go: a look at the clock, the look for one hash, and the calls of the store. -/
inductive DaemonOp where
  | now
  | has (hash : String)
  | call (op : BackupOp) (now : Int)

def Daemon : Iface where
  Op := DaemonOp
  Res
    | .now => Int
    | .has _ => Except BackupError Bool
    | .call _ _ => Except BackupError BackupReply

/-- The rows, the clock, and which statements of the next transaction fail. -/
structure DaemonState where
  db : Tables
  clock : Int
  fails : Nat → Bool

def DaemonState.faults (s : DaemonState) (n : Nat) : Option BackupError := if s.fails n then some .database else none

def DaemonState.exec : (o : DaemonOp) → DaemonState → Daemon.Res o × DaemonState
  | .now, s => (s.clock, s)
  | .has hash, s => ((inTx (.query fun db => .ok (decide (∃ b ∈ db.blobs, b.hash = hash))) s.faults s.db).1, s)
  | .call op now, s =>
    let (reply, db) := BackupCall.serve ⟨op, now, s.faults⟩ s.db
    (reply, { s with db })

/-- Time passes, or the database gets better or worse. -/
inductive DaemonEvent where
  | tick (seconds : Nat)
  | faults (fails : Nat → Bool)

def DaemonState.tick : DaemonEvent → DaemonState → DaemonState
  | .tick seconds, s => { s with clock := s.clock + seconds }
  | .faults fails, s => { s with fails }

/-- A call reads the clock first. -/
def stamped (op : BackupOp) : Prog Daemon (Except BackupError BackupReply) := do
  let now ← Prog.call (I := Daemon) .now
  Prog.call (I := Daemon) (.call op now)

/-- The hashes that are not there, in their order, behind those found missing so far. -/
def missingBlobs : List String → List String → Prog Daemon (Except BackupError (List String))
  | [], missing => return .ok missing
  | hash :: rest, missing => do
    match ← Prog.call (I := Daemon) (.has hash) with
    | .error e => return .error e
    | .ok true => missingBlobs rest missing
    | .ok false => missingBlobs rest (missing ++ [hash])

/-! ## Clients -/

/-- What a client is about to back up: every file of the manifest is one of its blobs. -/
structure Upload where
  storeID : String
  device : String
  parentID : Option Int
  trigger : String
  entries : List ManifestEntry
  blobs : List (String × List UInt8)
  covered : ∀ e ∈ entries, e.kind = "file" → e.hash ∈ blobs.map (·.1)

def Upload.request (u : Upload) : AppendRequest := ⟨u.storeID, u.device, u.parentID, u.trigger, some u.entries⟩

/-- Upload what is missing, up to the first that is refused. -/
def putMissing (blobs : List (String × List UInt8)) : List String → Prog Daemon (Except BackupError Unit)
  | [] => return .ok ()
  | hash :: rest =>
    match blobs.lookup hash with
    | none => putMissing blobs rest
    | some bytes => do
      match ← stamped (.putBlob hash bytes) with
      | .error e => return .error e
      | .ok _ => putMissing blobs rest

/-- Negotiate, upload, append; any error ends it. -/
def runBackup (u : Upload) : Prog Daemon Unit := do
  match ← missingBlobs (u.blobs.map (·.1)) [] with
  | .error _ => return
  | .ok missing =>
    match ← putMissing u.blobs missing with
    | .error _ => return
    | .ok _ =>
      let _ ← stamped (.appendSnapshot u.request)
      return

/-- Whoever talks to the daemon: single calls of any device, a negotiation by itself, and whole backups. A client
that loses its connection never goes on. -/
inductive DaemonThread where
  | one (op : BackupOp)
  | missing (hashes : List String)
  | backup (u : Upload)

def DaemonThread.body : DaemonThread → Prog Daemon (Option DaemonThread)
  | .one op => do
    let _ ← stamped op
    return none
  | .missing hashes => do
    let _ ← missingBlobs hashes []
    return none
  | .backup u => do
    runBackup u
    return none

def daemon : Sys Daemon DaemonState DaemonThread DaemonEvent where
  body := DaemonThread.body
  exec := DaemonState.exec
  spawns _ := []
  tick := DaemonState.tick

abbrev DaemonEntry := Entry Daemon DaemonState DaemonThread

def FreshDaemon (s : DaemonState) : Prop := NoBackups s.db

/-! ## What the daemon has promised -/

/-- The daemon said that it has the blob, or took it. -/
def Assures (hash : String) : Event Daemon → Prop
  | ⟨.has asked, reply⟩ => asked = hash ∧ (reply : Except BackupError Bool) = .ok true
  | ⟨.call (.putBlob put _) _, reply⟩ => put = hash ∧ ∃ done, (reply : Except BackupError BackupReply) = .ok done
  | _ => False

instance decidableAssures (hash : String) : ∀ ev, Decidable (Assures hash ev)
  | ⟨.now, _⟩ => inferInstanceAs (Decidable False)
  | ⟨.has asked, .ok true⟩ => decidable_of_iff (asked = hash) ⟨fun h => ⟨h, rfl⟩, And.left⟩
  | ⟨.has _, .ok false⟩ => isFalse fun ⟨_, h⟩ => nomatch h
  | ⟨.has _, .error _⟩ => isFalse fun ⟨_, h⟩ => nomatch h
  | ⟨.call (.putBlob put _) _, .ok done⟩ => decidable_of_iff (put = hash) ⟨fun h => ⟨h, done, rfl⟩, And.left⟩
  | ⟨.call (.putBlob _ _) _, .error _⟩ => isFalse fun ⟨_, _, h⟩ => nomatch h
  | ⟨.call (.appendSnapshot _) _, _⟩ => inferInstanceAs (Decidable False)
  | ⟨.call .gc _, _⟩ => inferInstanceAs (Decidable False)

/-- It did so within the grace period. -/
def Recent (t : List DaemonEntry) (clock : Int) (hash : String) : Prop :=
  ∃ en ∈ t, Assures hash (daemon.event en) ∧ clock < en.pre.clock + blobGraceSeconds

instance (t : List DaemonEntry) (clock : Int) (hash : String) : Decidable (Recent t clock hash) :=
  inferInstanceAs (Decidable (∃ en ∈ t, _ ∧ _))

/-- What was promised within the grace period is there. -/
def Protected (s : DaemonState) (t : List DaemonEntry) : Prop :=
  ∀ hash, Recent t s.clock hash → ∃ b ∈ s.db.blobs, b.hash = hash

/-- An append that a backup sends within the grace period after the first of its calls. -/
def Timely (en : DaemonEntry) (older : List DaemonEntry) : Prop :=
  ∀ en' ∈ older, en'.tid = en.tid → en.pre.clock < en'.pre.clock + blobGraceSeconds

/-- No such append is refused for a blob that is missing. -/
def NeverRefused (t : List DaemonEntry) : Prop :=
  ∀ newer en older, t = newer ++ en :: older → ∀ u req now, en.kind = .backup u → en.op = .call (.appendSnapshot req) now →
    Timely en older → ∀ hash path, daemon.event en ≠ ⟨.call (.appendSnapshot req) now, .error (.blobMissing hash path)⟩

/-! ## What a collection takes -/

section Takes

variable {db db' : Tables} {now : Int}

theorem checked_iff {req : AppendRequest} : Checked db req ↔ validateManifest (req.manifest.getD []) = .ok () ∧
    (∀ id ∈ req.parentID, ∃ s ∈ db.snapshots, s.id = id ∧ s.storeID = req.storeID) ∧
    ∀ e ∈ req.manifest.getD [], e.kind = "file" → ∃ b ∈ db.blobs, b.hash = e.hash ∧ b.size = e.size :=
  ⟨fun h => ⟨h.valid, h.parent, h.stored⟩, fun h => ⟨h.1, h.2.1, h.2.2⟩⟩

instance (db : Tables) (req : AppendRequest) : Decidable (Checked db req) := decidable_of_iff' _ checked_iff

/-- The blobs that the collection of a call takes: those that no snapshot needs after the retention and whose row
is older than the grace period. -/
def Tables.takes (db : Tables) (op : BackupOp) (now : Int) : List String :=
  match op with
  | .putBlob _ _ => []
  | .appendSnapshot req =>
    if Checked db req ∧ ¬req.Unchanged db then ((db.inserted (req.row db now)).pruned req.storeID now).collectable now else []
  | .gc => (db.prunedAll now).collectable now

def Tables.has (db : Tables) (hash : String) : Prop := ∃ b ∈ db.blobs, b.hash = hash

instance (db : Tables) (hash : String) : Decidable (db.has hash) := inferInstanceAs (Decidable (∃ b ∈ db.blobs, b.hash = hash))

theorem has_swept {hash : String} : (db.swept now).has hash ↔ db.has hash ∧ hash ∉ db.collectable now := by
  constructor
  · rintro ⟨b, hb, rfl⟩
    obtain ⟨hmem, hkept⟩ := List.mem_filter.1 hb
    exact ⟨⟨b, hmem, rfl⟩, of_decide_eq_true hkept⟩
  · rintro ⟨⟨b, hb, rfl⟩, hkept⟩
    exact ⟨b, List.mem_filter.2 ⟨hb, decide_eq_true hkept⟩, rfl⟩

theorem has_put {hash put : String} {content : List UInt8} : (db.put now put content).has hash ↔ db.has hash ∨ put = hash := by
  unfold Tables.put
  split
  · rename_i hstored
    exact ⟨.inl, fun h => h.elim id fun heq => heq ▸ hstored⟩
  · simp [Tables.has, or_and_right, exists_or]

/-- After a call a blob is there that was before and is not taken, or that the call puts there. -/
theorem has_of_does {c : BackupCall} {reply : BackupReply} {hash : String} (h : c.Does db reply db') : db'.has hash ↔
    (db.has hash ∧ hash ∉ db.takes c.op c.now) ∨ ∃ content, c.op = .putBlob hash content := by
  obtain ⟨op, now, faults⟩ := c
  cases op with
  | putBlob put content =>
    obtain ⟨_, _, rfl⟩ := h
    rw [has_put]
    simp [Tables.takes]
  | appendSnapshot req =>
    obtain ⟨hchecked, hdone⟩ := h
    by_cases hunchanged : req.Unchanged db
    · rw [if_pos hunchanged] at hdone
      rw [hdone.2]
      simp [Tables.takes, hunchanged]
    · rw [if_neg hunchanged] at hdone
      have htakes : db.takes (.appendSnapshot req) now = ((db.inserted (req.row db now)).pruned req.storeID now).collectable now :=
        if_pos ⟨hchecked, hunchanged⟩
      rw [hdone.2]
      refine has_swept.trans ?_
      rw [htakes]
      simp only [reduceCtorEq, exists_false, or_false]
      rfl
  | gc =>
    rw [h.2, has_swept, Tables.has, trims_prunedAll.blobs]
    simp [Tables.takes, Tables.has]

end Takes

/-! ## What an append is refused for -/

section Refused

variable {db : Tables} {now : Int} {E : BackupError → Prop}

/-- The collection of an append makes no errors of its own. -/
theorem fails_deleteSnapshots : ∀ {ids : List Int} {db : Tables}, (deleteSnapshots ids).Fails db E
  | [], _ => Tx.fails_pure
  | _ :: _, _ => Tx.fails_bind (Tx.fails_statement nofun) (Tx.returns_statement fun _ _ _ => fails_deleteSnapshots)

theorem fails_deleteBlobs : ∀ {hashes : List String} {db : Tables}, (deleteBlobs hashes).Fails db E
  | [], _ => Tx.fails_pure
  | _ :: _, _ => Tx.fails_bind (Tx.fails_statement nofun) (Tx.returns_statement fun _ _ _ => fails_deleteBlobs)

theorem fails_gcTx {storeID : String} : (gcTx storeID now).Fails db E := by
  refine Tx.fails_bind (Tx.fails_bind (Tx.fails_query nofun) (Tx.returns_query fun _ _ => fails_deleteSnapshots)) ?_
  refine returns_gcSnapshots.mono fun _ db' _ => ?_
  exact Tx.fails_bind (Tx.fails_query nofun) (Tx.returns_query fun _ _ =>
    Tx.fails_bind (Tx.fails_query nofun) (Tx.returns_query fun _ _ => fails_deleteBlobs))

/-- An error about a missing blob is about a file of the entries whose blob is missing. -/
def OnlyMissing (db : Tables) (entries : List ManifestEntry) (err : BackupError) : Prop :=
  ∀ hash path, err = .blobMissing hash path → ∃ e ∈ entries, e.kind = "file" ∧ e.hash = hash ∧ ¬db.has hash

theorem OnlyMissing.cons {e : ManifestEntry} {rest : List ManifestEntry} {err : BackupError} (h : OnlyMissing db rest err) :
    OnlyMissing db (e :: rest) err := by
  intro hash path heq
  obtain ⟨e', he', hrest⟩ := h hash path heq
  exact ⟨e', List.mem_cons_of_mem _ he', hrest⟩

theorem fails_checkBlobs : ∀ {entries : List ManifestEntry}, (checkBlobs entries).Fails db (OnlyMissing db entries)
  | [] => Tx.fails_pure
  | e :: rest => by
    have hrest : (checkBlobs rest).Fails db (OnlyMissing db (e :: rest)) := fails_checkBlobs.mono fun _ h => h.cons
    rw [checkBlobs]
    split
    · exact hrest
    rename_i hfile
    refine Tx.fails_bind (Tx.fails_query fun err hread => ?_) (Tx.returns_query fun size _ => ?_)
    · cases hfind : db.blobs.find? (·.hash = e.hash) with
      | some b =>
        rw [hfind] at hread
        cases hread
      | none =>
        rw [hfind] at hread
        cases hread
        rintro _ _ ⟨⟩
        refine ⟨e, List.mem_cons_self, not_not.1 hfile, rfl, fun hhas => ?_⟩
        obtain ⟨b, hb, hhash⟩ := hhas
        exact List.find?_eq_none.1 hfind b hb (decide_eq_true hhash)
    · split
      · exact Tx.fails_bind (Tx.fails_abort fun _ _ h => by cases h) Tx.returns_abort
      · exact Tx.fails_bind Tx.fails_pure (Tx.returns_pure hrest)

theorem fails_appendSnapshot {req : AppendRequest} : (appendSnapshot now req).Fails db (OnlyMissing db (req.manifest.getD [])) := by
  refine Tx.fails_bind (Tx.fails_query nofun) (Tx.returns_query fun read hread => ?_)
  refine Tx.fails_bind ?_ (returns_checkManifest.mono fun _ db₁ h => ?_)
  · unfold checkManifest
    split
    · exact Tx.fails_pure
    · exact Tx.fails_abort nofun
  obtain ⟨rfl, _⟩ := h
  refine Tx.fails_bind ?_ (returns_checkParent.mono fun _ db₂ h => ?_)
  · unfold checkParent
    split
    · exact Tx.fails_pure
    · refine Tx.fails_query fun err hread => ?_
      split at hread
      · cases hread
      · cases hread
        exact nofun
  obtain ⟨rfl, _⟩ := h
  refine Tx.fails_bind fails_checkBlobs (returns_checkBlobs.mono fun _ db₃ h => ?_)
  obtain ⟨rfl, _⟩ := h
  obtain rfl := Except.ok.inj hread
  change Tx.Fails (if req.Unchanged db₃ then _ else _) _ _
  split
  · exact Tx.fails_pure
  · refine Tx.fails_bind (Tx.fails_statement nofun) (Tx.returns_statement fun _ db₄ _ => ?_)
    exact Tx.fails_bind fails_gcTx (returns_gcTx.mono fun _ _ _ => Tx.fails_pure)

end Refused

/-! ## What a backup was promised -/

/-- All of these hashes were promised. -/
def Promised (hashes : List String) (h : Hist Daemon) : Prop := ∀ hash ∈ hashes, ∃ ev ∈ h, Assures hash ev

theorem Promised.mono {hashes : List String} {h h' : Hist Daemon} (hp : Promised hashes h) (hsuffix : h <:+ h') : Promised hashes h' :=
  fun hash hmem =>
    have ⟨ev, hev, hassures⟩ := hp hash hmem
    ⟨ev, hsuffix.subset hev, hassures⟩

/-- An append of a backup comes after the promise of all its blobs. -/
def AppendsPromised (k : DaemonThread) (h : Hist Daemon) (o : DaemonOp) : Prop :=
  ∀ u req now, k = .backup u → o = .call (.appendSnapshot req) now → req = u.request ∧ Promised (u.blobs.map (·.1)) h

section Promises

variable {k : DaemonThread} {h : Hist Daemon}

theorem appendsPromised_of_ne {o : DaemonOp} (ho : ∀ req now, o ≠ .call (.appendSnapshot req) now) : AppendsPromised k h o :=
  fun _ req now _ heq => absurd heq (ho req now)

theorem wp_stamped {op : BackupOp} (ho : ∀ h' now, h <:+ h' → AppendsPromised k h' (.call op now)) :
    wp (anyAnswer (AppendsPromised k)) (stamped op) (fun h' reply => h <:+ h' ∧ ∃ now, ⟨.call op now, reply⟩ ∈ h') h := by
  refine ⟨appendsPromised_of_ne nofun, fun now _ => ⟨ho _ now (List.suffix_cons _ _), fun reply _ => ⟨?_, now, List.mem_cons_self⟩⟩⟩
  exact (List.suffix_cons _ h).trans (List.suffix_cons _ _)

/-- What a negotiation does not find missing, it was told is there. -/
theorem wp_missingBlobs : ∀ {hashes missing : List String} {h : Hist Daemon},
    wp (anyAnswer (AppendsPromised k)) (missingBlobs hashes missing) (fun h' r => ∀ all, r = .ok all →
      missing ⊆ all ∧ ∀ hash ∈ hashes, hash ∈ all ∨ ∃ ev ∈ h', Assures hash ev) h
  | [], missing, h => by
    rintro _ ⟨⟩
    exact ⟨List.Subset.refl _, fun _ hmem => absurd hmem List.not_mem_nil⟩
  | hash :: rest, missing, h => by
    refine ⟨appendsPromised_of_ne nofun, fun reply _ => ?_⟩
    rcases reply with e | _ | _
    · exact fun _ heq => nomatch heq
    · refine wp_mono _ wp_missingBlobs fun h' r _ hr all heq => ?_
      obtain ⟨hsub, hrest⟩ := hr all heq
      refine ⟨fun _ hmem => hsub (List.mem_append_left _ hmem), List.forall_mem_cons.2 ⟨.inl ?_, hrest⟩⟩
      exact hsub (List.mem_append_right _ List.mem_cons_self)
    · refine wp_mono _ wp_missingBlobs fun h' r hsuffix hr all heq => ?_
      obtain ⟨hsub, hrest⟩ := hr all heq
      exact ⟨hsub, List.forall_mem_cons.2 ⟨.inr ⟨_, hsuffix.subset List.mem_cons_self, rfl, rfl⟩, hrest⟩⟩

theorem wp_putMissing {blobs : List (String × List UInt8)} : ∀ {hashes : List String} {h : Hist Daemon},
    wp (anyAnswer (AppendsPromised k)) (putMissing blobs hashes) (fun h' r => r = .ok () →
      ∀ hash ∈ hashes, hash ∈ blobs.map (·.1) → ∃ ev ∈ h', Assures hash ev) h
  | [], _ => fun _ _ hmem => absurd hmem List.not_mem_nil
  | hash :: rest, h => by
    rw [putMissing]
    cases hlookup : blobs.lookup hash with
    | none =>
      refine wp_mono _ wp_putMissing fun h' r _ hr heq => List.forall_mem_cons.2 ⟨fun hkey => ?_, hr heq⟩
      obtain ⟨⟨_, bytes⟩, hmem, rfl⟩ := List.mem_map.1 hkey
      simpa using List.lookup_eq_none_iff.1 hlookup _ hmem
    | some bytes =>
      refine wp_seq (wp_stamped fun _ _ _ => appendsPromised_of_ne nofun) fun h₁ reply _ hput => ?_
      obtain ⟨_, now, hmem⟩ := hput
      cases reply with
      | error e => exact fun heq => nomatch heq
      | ok done =>
        refine wp_mono _ wp_putMissing fun h' r hsuffix hr heq => List.forall_mem_cons.2 ⟨fun _ => ?_, hr heq⟩
        exact ⟨_, hsuffix.subset hmem, rfl, done, rfl⟩

theorem wp_runBackup {u : Upload} : wp (anyAnswer (AppendsPromised (.backup u))) (runBackup u) (fun _ _ => True) h := by
  refine wp_seq wp_missingBlobs fun h₁ negotiated _ hmissing => ?_
  cases negotiated with
  | error e => trivial
  | ok missing =>
    obtain ⟨_, hpromised⟩ := hmissing missing rfl
    refine wp_seq wp_putMissing fun h₂ uploaded hsuffix hput => ?_
    cases uploaded with
    | error e => trivial
    | ok done =>
      have hall : Promised (u.blobs.map (·.1)) h₂ := fun hash hmem => by
        rcases hpromised hash hmem with hasked | ⟨ev, hev, hassures⟩
        · exact hput rfl hash hasked hmem
        · exact ⟨ev, hsuffix.subset hev, hassures⟩
      refine wp_seq (wp_stamped fun h' now hsuffix' => ?_) fun _ _ _ _ => trivial
      rintro _ _ _ ⟨⟩ ⟨⟩
      exact ⟨rfl, hall.mono hsuffix'⟩

theorem wp_body (k : DaemonThread) (h : Hist Daemon) : wp (anyAnswer (AppendsPromised k)) k.body (fun _ _ => True) h := by
  cases k with
  | backup u => exact wp_seq wp_runBackup fun _ _ _ _ => trivial
  | _ => exact wp_of_only (P := fun _ => True) (fun _ _ _ _ _ _ hk => nomatch hk) (only_true _) fun _ _ _ => trivial

end Promises

def backupContract : Contract daemon where
  spec k := anyAnswer (AppendsPromised k)
  inv _ _ := True
  fin _ _ := True
  ans_exec _ _ _ := trivial
  inv_start _ := trivial
  body_ok k h _ := wp_mono _ (wp_body k h) fun _ r _ _ => by cases r <;> trivial

/-! ## Protection over runs -/

/-- A collection takes no blob that was promised within the grace period. -/
def Spares (t : List DaemonEntry) (en : DaemonEntry) : Prop :=
  ∀ op now, en.op = .call op now → ∀ hash ∈ en.pre.db.takes op now, ¬Recent t en.pre.clock hash

instance (t : List DaemonEntry) : ∀ en, Decidable (Spares t en)
  | ⟨_, _, _, .now, _⟩ => isTrue nofun
  | ⟨_, _, _, .has _, _⟩ => isTrue nofun
  | ⟨_, _, _, .call op now, s⟩ => decidable_of_iff (∀ hash ∈ s.db.takes op now, ¬Recent t s.clock hash)
    ⟨fun h _ _ heq => by
      obtain ⟨rfl, rfl⟩ := DaemonOp.call.inj heq
      exact h, fun h => h op now rfl⟩

section Protected

variable {s : DaemonState} {t : List DaemonEntry} {op : BackupOp} {now : Int}

/-- A call fails and leaves the daemon as it was, or does all it has to. -/
theorem exec_call (s : DaemonState) (op : BackupOp) (now : Int) : (∃ e, daemon.exec (.call op now) s = (.error e, s)) ∨
    ∃ reply db', daemon.exec (.call op now) s = (.ok reply, { s with db := db' }) ∧ BackupCall.Does ⟨op, now, s.faults⟩ s.db reply db' := by
  have hexec : daemon.exec (.call op now) s =
      ((BackupCall.serve ⟨op, now, s.faults⟩ s.db).1, { s with db := (BackupCall.serve ⟨op, now, s.faults⟩ s.db).2 }) := rfl
  rw [hexec]
  rcases BackupCall.serve_cases ⟨op, now, s.faults⟩ s.db with ⟨e, heq⟩ | ⟨reply, db', heq, hdoes⟩
  · rw [heq]
    exact .inl ⟨e, rfl⟩
  · rw [heq]
    exact .inr ⟨reply, db', rfl, hdoes⟩

theorem clock_exec (o : Daemon.Op) (s : DaemonState) : (daemon.exec o s).2.clock = s.clock := by
  cases o <;> rfl

theorem recent_cons {en : DaemonEntry} {hash : String} {clock : Int} (h : Recent (en :: t) clock hash) :
    Assures hash (daemon.event en) ∨ Recent t clock hash := by
  obtain ⟨en', hmem, hassures, hlt⟩ := h
  rcases List.mem_cons.1 hmem with rfl | hmem
  · exact .inl hassures
  · exact .inr ⟨en', hmem, hassures, hlt⟩

/-- What is found is there. -/
theorem has_of_found {hash : String} (h : (daemon.exec (.has hash) s).1 = (.ok true : Except BackupError Bool)) : s.db.has hash := by
  have hreturns : Tx.Returns (.query fun db => .ok (decide (∃ b ∈ db.blobs, b.hash = hash)) : Tx Tables BackupError Bool) s.db
      fun found _ => found = true → s.db.has hash :=
    Tx.returns_query fun _ hread htrue => of_decide_eq_true ((Except.ok.inj hread).trans htrue)
  rcases inTx_cases s.faults hreturns with ⟨e, heq⟩ | ⟨found, db', heq, hfound⟩
  · have hcontra : (daemon.exec (.has hash) s).1 = (.error e : Except BackupError Bool) := congrArg Prod.fst heq
    rw [hcontra] at h
    cases h
  · have hreply : (daemon.exec (.has hash) s).1 = (.ok found : Except BackupError Bool) := congrArg Prod.fst heq
    exact hfound (Except.ok.inj (hreply.symm.trans h))

theorem Protected.tick (h : Protected s t) (e : DaemonEvent) : Protected (daemon.tick e s) t := by
  cases e with
  | tick seconds =>
    rintro hash ⟨en, hmem, hassures, hlt⟩
    refine h hash ⟨en, hmem, hassures, ?_⟩
    have hle : s.clock ≤ (daemon.tick (.tick seconds) s).clock := Int.le_add_of_nonneg_right (Int.natCast_nonneg seconds)
    exact lt_of_le_of_lt hle hlt
  | faults fails => exact h

theorem assures_call {hash : String} {r : Except BackupError BackupReply} (h : Assures hash ⟨.call op now, r⟩) :
    ∃ content, op = .putBlob hash content ∧ ∃ done, r = .ok done := by
  cases op with
  | putBlob put content =>
    obtain ⟨rfl, hdone⟩ := h
    exact ⟨content, rfl, hdone⟩
  | _ => exact h.elim

/-- What was promised stays there through an operation that takes none of it. -/
theorem Protected.act {en : DaemonEntry} (h : Protected en.pre t) (hspares : Spares t en) : Protected (daemon.post en) (en :: t) := by
  intro hash hrecent
  obtain ⟨i, k, hist, o, s⟩ := en
  replace hrecent : Recent _ s.clock hash := clock_exec o s ▸ hrecent
  cases o with
  | now => exact h hash ((recent_cons hrecent).resolve_left id)
  | has asked =>
    rcases recent_cons hrecent with ⟨rfl, hfound⟩ | hrecent
    · exact has_of_found hfound
    · exact h hash hrecent
  | call op now =>
    show (daemon.exec (.call op now) s).2.db.has hash
    rcases recent_cons hrecent with hnew | hold
    · obtain ⟨content, rfl, done, hreply⟩ := assures_call (r := (daemon.exec (.call op now) s).1) hnew
      rcases exec_call s (.putBlob hash content) now with ⟨e, heq⟩ | ⟨reply, db', heq, hdoes⟩
      · rw [heq] at hreply
        cases hreply
      · rw [heq]
        exact (has_of_does hdoes).2 (.inr ⟨content, rfl⟩)
    · have hkept : s.db.has hash ∧ hash ∉ s.db.takes op now := ⟨h _ hold, fun htakes => hspares op now rfl _ htakes hold⟩
      rcases exec_call s op now with ⟨e, heq⟩ | ⟨reply, db', heq, hdoes⟩
      · rw [heq]
        exact hkept.1
      · rw [heq]
        exact (has_of_does hdoes).2 (.inl hkept)

/-- A collection that goes through and takes what was promised breaks the promise at once. -/
theorem spares_of_protected {en : DaemonEntry} {reply : BackupReply} (hop : en.op = .call op now)
    (hdone : daemon.event en = ⟨.call op now, .ok reply⟩) (h : Protected (daemon.post en) (en :: t)) : Spares t en := by
  obtain ⟨i, k, hist, o, s⟩ := en
  obtain rfl : o = .call op now := hop
  rintro op' now' heq' hash htakes ⟨en', hmem, hrecent⟩
  obtain ⟨rfl, rfl⟩ := DaemonOp.call.inj heq'
  have hstill : (daemon.exec (.call op now) s).2.db.has hash := by
    refine h hash ⟨en', List.mem_cons_of_mem _ hmem, hrecent.1, ?_⟩
    exact clock_exec (.call op now) s ▸ hrecent.2
  have hreply : (daemon.exec (.call op now) s).1 = .ok reply := eq_of_heq (Event.mk.inj hdone).2
  rcases exec_call s op now with ⟨e, heq⟩ | ⟨reply', db', heq, hdoes⟩
  · rw [heq] at hreply
    cases hreply
  · rw [heq] at hstill
    rcases (has_of_does hdoes).1 hstill with hkept | ⟨content, hput⟩
    · exact hkept.2 htakes
    · obtain rfl : op = .putBlob hash content := hput
      exact List.not_mem_nil htakes

end Protected

/-- An append of a backup whose blobs are all there is not refused for a missing one. -/
theorem not_refused {u : Upload} {s : DaemonState} {now : Int} (h : ∀ hash ∈ u.blobs.map (·.1), s.db.has hash) (hash path : String) :
    (daemon.exec (.call (.appendSnapshot u.request) now) s).1 ≠ .error (.blobMissing hash path) := by
  intro hrefused
  have hfails : (do let result ← appendSnapshot now u.request; return BackupReply.appended result : Tx _ _ _).Fails s.db
      (OnlyMissing s.db u.entries) :=
    Tx.fails_bind fails_appendSnapshot (returns_appendSnapshot.mono fun _ _ _ => Tx.fails_pure)
  rcases inTx_error hfails hrefused with ⟨k, hfault⟩ | hmissing
  · simp only [DaemonState.faults] at hfault
    split at hfault
    · cases hfault
    · cases hfault
  · obtain ⟨e, he, hfile, rfl, hgone⟩ := hmissing hash path rfl
    exact hgone (h e.hash (u.covered e he hfile))

theorem neverRefused_cons {en : DaemonEntry} {t : List DaemonEntry} (h : NeverRefused t)
    (hen : ∀ u req now, en.kind = .backup u → en.op = .call (.appendSnapshot req) now → Timely en t →
      ∀ hash path, daemon.event en ≠ ⟨.call (.appendSnapshot req) now, .error (.blobMissing hash path)⟩) :
    NeverRefused (en :: t) := by
  intro newer en' older heq
  cases newer with
  | nil =>
    obtain ⟨rfl, rfl⟩ := List.cons.inj heq
    exact hen
  | cons _ newer => exact h newer en' older (List.cons.inj heq).2

/-- A backup of the tree of one file. -/
def oneUpload : Upload := ⟨"a", "mac", none, "auto", oneFile, [(sha256Hex letter, letter)], by decide +kernel⟩

def freshDaemon : DaemonState := ⟨noBackups, 0, fun _ => false⟩

/-- Upload a blob, and back it up later; a collection comes after the negotiation. -/
def collecting (later : Nat) : List (Label DaemonThread DaemonEvent) :=
  [.spawn (.one (.putBlob (sha256Hex letter) letter)), .act 0, .act 0, .env (.tick later), .spawn (.backup oneUpload), .act 1,
    .spawn (.one .gc), .act 2, .act 2, .act 1, .act 1]

end Purdex.Backup
