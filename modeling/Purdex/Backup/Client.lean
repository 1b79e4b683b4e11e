/-
One device and the daemon it backs up to: what the device knows of its own history, the requests and replies on
their way, and the application starting anew.
-/
import Purdex.Backup.History

namespace Purdex.Backup

open Conc

/-! ## The device -/

/-- The one store there is. -/
def STORE_ID : String := "inapp:buffer"

/-- What the application knows of its history with a host. -/
structure HostBackupState where
  lastSnapshotId : Option Int
  lastManifest : Option (List ManifestEntry)
  deriving Repr, DecidableEq

def initialHostState : HostBackupState := ⟨none, none⟩

structure BackupNowOptions where
  trigger : String
  forcePost : Bool
  deriving Repr, DecidableEq

/-- What a backup posts of the tree it has built, if it is not one that was posted already. -/
def snapshotRequest (clientID : String) (current : HostBackupState) (opts : BackupNowOptions) (entries : List ManifestEntry) :
    Option AppendRequest :=
  if opts.forcePost = false ∧ some entries = current.lastManifest then none
  else some ⟨STORE_ID, clientID, current.lastSnapshotId, opts.trigger, some entries⟩

/-- Any success advances the history. -/
def converge (entries : List ManifestEntry) (res : AppendResult) : HostBackupState := ⟨some res.snapshotID, some entries⟩

/-! ## Device and daemon -/

/-- A request on its way. It is stale when it was made without knowing the head, or when a row was written since. -/
structure Post where
  req : AppendRequest
  stale : Bool
  deriving Repr, DecidableEq

inductive Phase where
  | idle
  | sent (p : Post)
  | answered (req : AppendRequest) (reply : Except BackupError BackupReply) (stale : Bool)
  deriving Repr, DecidableEq

/-- The rows of the daemon; what the application knows, and whether it has missed a row; the backup that is going on;
and the requests that nobody waits for any more. -/
structure Device where
  db : Tables
  current : HostBackupState
  detached : Bool
  phase : Phase
  adrift : List Post
  deriving Repr, DecidableEq

inductive Move where
  /-- A backup starts, with the entries of some tree. -/
  | backup (opts : BackupNowOptions) (entries : List ManifestEntry)
  /-- The request fails for the application; it may still arrive. -/
  | giveUp
  /-- The request arrives. -/
  | deliver (now : Int) (faults : Nat → Option BackupError)
  | receive
  /-- The reply is lost. -/
  | lose
  /-- A request that nobody waits for arrives. -/
  | drift (i : Nat) (now : Int) (faults : Nat → Option BackupError)
  | reload
  /-- Any other call: of another store, or an upload, or a collection. -/
  | other (c : BackupCall)

def Post.outdated (p : Post) : Post := { p with stale := true }

def Phase.outdated : Phase → Phase
  | .idle => .idle
  | .sent p => .sent p.outdated
  | .answered req reply _ => .answered req reply true

/-- Whether a row was written. -/
def wrote (reply : Except BackupError BackupReply) : Bool :=
  match reply with
  | .ok (.appended r) => r.written
  | _ => false

/-- The daemon serves a request. When it writes a row, the device does not know yet. -/
def Device.append (d : Device) (req : AppendRequest) (now : Int) (faults : Nat → Option BackupError) : Except BackupError BackupReply × Device :=
  let (reply, db) := BackupCall.serve ⟨.appendSnapshot req, now, faults⟩ d.db
  if wrote reply then (reply, { d with db, detached := true, phase := d.phase.outdated, adrift := d.adrift.map Post.outdated })
  else (reply, { d with db })

/-- The requests that are on their way when the application goes away. -/
def Phase.unanswered : Phase → List Post
  | .sent p => [p]
  | _ => []

/-- What a move does, and what the daemon answers when a request arrives. -/
def Move.act (clientID : String) : Move → Device → Option (Except BackupError BackupReply) × Device
  | .backup opts entries, d =>
    match snapshotRequest clientID d.current opts entries with
    | none => (none, d)
    | some req => (none, { d with phase := .sent ⟨req, d.detached⟩ })
  | .giveUp, d => (none, { d with phase := .idle, adrift := d.adrift ++ d.phase.unanswered })
  | .deliver now faults, d =>
    match d.phase with
    | .sent p =>
      let (reply, d) := d.append p.req now faults
      (some reply, { d with phase := .answered p.req reply false })
    | _ => (none, d)
  | .receive, d =>
    match d.phase with
    | .answered req (.ok (.appended res)) stale =>
      (none, { d with current := converge (req.manifest.getD []) res, detached := stale, phase := .idle })
    | _ => (none, { d with phase := .idle })
  | .lose, d => (none, { d with phase := .idle })
  | .drift i now faults, d =>
    match d.adrift[i]? with
    | some p =>
      let (reply, d) := { d with adrift := d.adrift.eraseIdx i }.append p.req now faults
      (some reply, d)
    | none => (none, d)
  | .reload, d =>
    (none, { d with current := initialHostState, detached := (d.db.head STORE_ID).isSome, phase := .idle, adrift := d.adrift ++ d.phase.unanswered })
  | .other c, d => (none, { d with db := (c.serve d.db).2 })

/-- A call that appends nothing to the store of the device. -/
def Foreign (c : BackupCall) : Prop := ∀ req, c.op = .appendSnapshot req → req.storeID ≠ STORE_ID

/-- A move that can happen: one backup goes on at a time, and nobody else appends to the store. -/
def Move.Enabled (d : Device) : Move → Prop
  | .backup _ _ => d.phase = .idle
  | .giveUp => ∃ p, d.phase = .sent p
  | .deliver _ _ => ∃ p, d.phase = .sent p
  | .receive => ∃ req reply stale, d.phase = .answered req reply stale
  | .lose => ∃ req reply stale, d.phase = .answered req reply stale
  | .drift i _ _ => i < d.adrift.length
  | .reload => True
  | .other c => Foreign c

/-- The request that arrives in a move. -/
def Move.arriving (d : Device) : Move → Option Post
  | .deliver _ _ => d.phase.unanswered.head?
  | .drift i _ _ => d.adrift[i]?
  | _ => none

/-- A stale request that arrives has the content of the head. -/
def Harmless (d : Device) (m : Move) : Prop := ∀ p ∈ m.arriving d, p.stale = true → p.req.Unchanged d.db

abbrev DeviceStep := Served Device Move (Option (Except BackupError BackupReply))

def NewDevice (d : Device) : Prop := NoBackups d.db ∧ d.current = initialHostState ∧ d.detached = false ∧ d.phase = .idle ∧ d.adrift = []

/-- The runs of a device by itself. -/
abbrev DeviceRuns (clientID : String) : Device → List DeviceStep → Prop :=
  Serves (Move.act clientID) NewDevice fun d m => m.Enabled d

/-- The id of the head. -/
def Tables.tip (db : Tables) : Option Int := (db.head STORE_ID).map (·.id)

/-- What arrives descends from the head, or has the content of the head. -/
def Follows (e : DeviceStep) : Prop :=
  ∀ p ∈ e.request.arriving e.pre, p.req.parentID = e.pre.db.tip ∨ p.req.Unchanged e.pre.db

/-- No snapshot of the device is a fork, and each that it posted came to the head. -/
structure Forkless (d : Device) (t : List DeviceStep) : Prop where
  stored : ∀ s ∈ d.db.snapshots, s.storeID = STORE_ID → s.isFork = false
  follows : ∀ e ∈ t, Follows e

/-! ## What a call does to the history -/

/-- A call that may have given out ids, but left the head of the store. -/
structure SameTip (db db' : Tables) : Prop where
  tip : db'.tip = db.tip
  sequence : db.sequence ≤ db'.sequence
  rows : ∀ s ∈ db'.snapshots, s.storeID = STORE_ID → s ∈ db.snapshots

theorem SameTip.refl (db : Tables) : SameTip db db := ⟨rfl, le_refl _, fun _ hmem _ => hmem⟩

/-- What comes of an append to the store of the device. -/
inductive Arrival (req : AppendRequest) (now : Int) (db : Tables) (reply : Except BackupError BackupReply) (db' : Tables) : Prop where
  | refused (err : BackupError) (hreply : reply = .error err) (hpost : db' = db)
  | kept (res : AppendResult) (hreply : reply = .ok (.appended res)) (hwritten : res.written = false)
      (htip : some res.snapshotID = db.tip) (hpost : db' = db)
  | wrote (res : AppendResult) (hreply : reply = .ok (.appended res)) (hwritten : res.written = true) (hchecked : Checked db req)
      (hchanged : ¬req.Unchanged db) (hid : res.snapshotID = db.sequence + 1) (hpost : db' = db.appended req now)

section Calls

variable {db : Tables}

theorem sameTip_serve (hs : Sound db) {c : BackupCall} (hforeign : Foreign c) : SameTip db (c.serve db).2 := by
  cases outcome_serve hs c with
  | failed err _ hpost _ =>
    rw [show (c.serve db).2 = db from hpost]
    exact .refl db
  | kept _ hheads hrows _ hsequence =>
    exact ⟨congrArg (Option.map Snapshot.id) (hheads STORE_ID), hsequence.ge, fun s hmem _ => hrows s hmem⟩
  | wrote req hop hchecked _ _ hpost _ =>
    have hother : req.storeID ≠ STORE_ID := hforeign req hop
    have hdone : (c.serve db).2 = db.appended req c.now := hpost
    rw [hdone]
    refine ⟨?_, Int.le_add_one (le_refl _), fun s hmem hstore => ?_⟩
    · rw [Tables.tip, head_appended hs hchecked, if_neg (Ne.symm hother)]
      rfl
    · rcases List.mem_append.1 (List.mem_of_mem_filter hmem) with hmem | hmem
      · exact hmem
      · obtain rfl := List.mem_singleton.1 hmem
        exact absurd hstore hother

theorem tip_of_unchanged {req : AppendRequest} (hs : Sound db) (hstore : req.storeID = STORE_ID) (hunchanged : req.Unchanged db) :
    some (db.headID req.storeID) = db.tip := by
  obtain ⟨h, hhead, _⟩ := (unchanged_iff hs).1 hunchanged
  rw [hstore] at hhead ⊢
  rw [Tables.tip, Tables.headID, Option.mem_def.1 hhead]
  rfl

theorem arrival_serve {req : AppendRequest} (now : Int) (faults : Nat → Option BackupError) (hs : Sound db) (hstore : req.storeID = STORE_ID) :
    Arrival req now db (BackupCall.serve ⟨.appendSnapshot req, now, faults⟩ db).1 (BackupCall.serve ⟨.appendSnapshot req, now, faults⟩ db).2 := by
  rcases BackupCall.serve_cases ⟨.appendSnapshot req, now, faults⟩ db with ⟨err, heq⟩ | ⟨reply, db', heq, hchecked, hdone⟩
  · exact .refused err (congrArg Prod.fst heq) (congrArg Prod.snd heq)
  · rw [heq]
    by_cases hunchanged : req.Unchanged db
    · rw [if_pos hunchanged] at hdone
      exact .kept _ (congrArg _ hdone.1) rfl (tip_of_unchanged hs hstore hunchanged) hdone.2
    · rw [if_neg hunchanged] at hdone
      exact .wrote _ (congrArg _ hdone.1) rfl hchecked hunchanged rfl hdone.2

theorem tip_appended {req : AppendRequest} (now : Int) (hs : Sound db) (hstore : req.storeID = STORE_ID) (hchecked : Checked db req) :
    (db.appended req now).tip = some (db.sequence + 1) := by
  rw [Tables.tip, head_appended hs hchecked, if_pos hstore.symm]
  rfl

end Calls

/-! ## What the device knows -/

/-- What is known of the history is the head, unless it is marked as stale. -/
structure Tracks (db : Tables) (parent : Option Int) (stale : Bool) : Prop where
  head : stale = false ↔ parent = db.tip
  given : ∀ p ∈ parent, p ≤ db.sequence

theorem Tracks.sameTip {db db' : Tables} {parent : Option Int} {stale : Bool} (h : Tracks db parent stale) (hsame : SameTip db db') :
    Tracks db' parent stale where
  head := hsame.tip ▸ h.head
  given p hp := (h.given p hp).trans hsame.sequence

/-- A row that is written leaves all behind that was known. -/
theorem Tracks.outdated {db db' : Tables} {parent : Option Int} {stale : Bool} (h : Tracks db parent stale)
    (htip : db'.tip = some (db.sequence + 1)) (hsequence : db.sequence ≤ db'.sequence) : Tracks db' parent true where
  head := by
    refine ⟨nofun, fun heq => ?_⟩
    have hle := h.given (db.sequence + 1) (heq.trans htip)
    omega
  given p hp := (h.given p hp).trans hsequence

structure Post.Tracked (db : Tables) (p : Post) : Prop where
  store : p.req.storeID = STORE_ID
  parent : Tracks db p.req.parentID p.stale

/-- What the application knows, or is about to know, of the tables. -/
structure Knows (d : Device) : Prop where
  sound : Sound d.db
  current : Tracks d.db d.current.lastSnapshotId d.detached
  unanswered : ∀ p ∈ d.phase.unanswered, p.Tracked d.db
  answered : ∀ req res stale, d.phase = .answered req (.ok (.appended res)) stale → Tracks d.db (some res.snapshotID) stale
  adrift : ∀ p ∈ d.adrift, p.Tracked d.db

section Knows

variable {clientID : String} {d : Device}

theorem Post.Tracked.sameTip {db db' : Tables} {p : Post} (h : p.Tracked db) (hsame : SameTip db db') : p.Tracked db' :=
  ⟨h.store, h.parent.sameTip hsame⟩

theorem Knows.sameTip {db' : Tables} (h : Knows d) (hs : Sound db') (hsame : SameTip d.db db') : Knows { d with db := db' } where
  sound := hs
  current := h.current.sameTip hsame
  unanswered p hp := (h.unanswered p hp).sameTip hsame
  answered req res stale hphase := (h.answered req res stale hphase).sameTip hsame
  adrift p hp := (h.adrift p hp).sameTip hsame

theorem Knows.outdated {db' : Tables} (h : Knows d) (hs : Sound db') (htip : db'.tip = some (d.db.sequence + 1))
    (hsequence : d.db.sequence ≤ db'.sequence) :
    Knows { d with db := db', detached := true, phase := d.phase.outdated, adrift := d.adrift.map Post.outdated } where
  sound := hs
  current := h.current.outdated htip hsequence
  unanswered p hp := by
    cases hphase : d.phase with
    | sent q =>
      simp only [hphase, Phase.outdated, Phase.unanswered, List.mem_singleton] at hp
      obtain ⟨hstore, hparent⟩ := h.unanswered q (by simp [hphase, Phase.unanswered])
      rw [hp]
      exact ⟨hstore, hparent.outdated htip hsequence⟩
    | _ => simp [hphase, Phase.outdated, Phase.unanswered] at hp
  answered req res stale hanswered := by
    cases hphase : d.phase with
    | answered req' reply stale' =>
      simp only [hphase, Phase.outdated, Phase.answered.injEq] at hanswered
      obtain ⟨rfl, rfl, rfl⟩ := hanswered
      exact (h.answered _ res _ hphase).outdated htip hsequence
    | _ => simp [hphase, Phase.outdated] at hanswered
  adrift p hp := by
    obtain ⟨q, hq, rfl⟩ := List.mem_map.1 hp
    exact ⟨(h.adrift q hq).store, (h.adrift q hq).parent.outdated htip hsequence⟩

/-- A request that arrives keeps what the device knows true, and its reply is true as well. -/
theorem Knows.append {req : AppendRequest} (now : Int) (faults : Nat → Option BackupError) (h : Knows d) (hstore : req.storeID = STORE_ID) :
    Knows (d.append req now faults).2 ∧
      ∀ res, (d.append req now faults).1 = .ok (.appended res) → Tracks (d.append req now faults).2.db (some res.snapshotID) false := by
  have hsound := h.sound.serve ⟨.appendSnapshot req, now, faults⟩
  have harrival := arrival_serve now faults h.sound hstore
  unfold Device.append
  generalize BackupCall.serve ⟨.appendSnapshot req, now, faults⟩ d.db = served at *
  obtain ⟨reply, db'⟩ := served
  cases harrival with
  | refused err hreply hpost =>
    obtain rfl : reply = .error err := hreply
    obtain rfl : db' = d.db := hpost
    exact ⟨h, fun res hres => nomatch hres⟩
  | kept res hreply hwritten htip hpost =>
    obtain rfl : reply = .ok (.appended res) := hreply
    obtain rfl : db' = d.db := hpost
    have hquiet : wrote (.ok (.appended res)) = false := hwritten
    simp only [hquiet, Bool.false_eq_true, if_false]
    refine ⟨h, fun res' hres => ?_⟩
    obtain rfl := BackupReply.appended.inj (Except.ok.inj hres)
    refine ⟨iff_of_true rfl htip, fun p hp => ?_⟩
    obtain ⟨head, hhead, rfl⟩ := Option.map_eq_some_iff.1 (htip.symm.trans hp)
    exact (h.sound.given head (h.sound.head_eq_some.1 hhead).1).2
  | wrote res hreply hwritten hchecked _ hid hpost =>
    obtain rfl : reply = .ok (.appended res) := hreply
    obtain rfl : db' = d.db.appended req now := hpost
    have hnoisy : wrote (.ok (.appended res)) = true := hwritten
    simp only [hnoisy, if_true]
    have htip := tip_appended now h.sound hstore hchecked
    refine ⟨h.outdated hsound htip (Int.le_add_one (le_refl _)), fun res' hres => ?_⟩
    obtain rfl := BackupReply.appended.inj (Except.ok.inj hres)
    rw [hid]
    refine ⟨iff_of_true rfl htip.symm, fun p hp => ?_⟩
    obtain rfl := Option.some.inj hp
    exact le_refl _

/-- Moving what is on its way changes nothing of what is known. -/
theorem Knows.phase {phase : Phase} {adrift : List Post} (h : Knows d)
    (hunanswered : ∀ p ∈ phase.unanswered, p.Tracked d.db)
    (hanswered : ∀ req res stale, phase = .answered req (.ok (.appended res)) stale → Tracks d.db (some res.snapshotID) stale)
    (hadrift : ∀ p ∈ adrift, p.Tracked d.db) : Knows { d with phase, adrift } :=
  ⟨h.sound, h.current, hunanswered, hanswered, hadrift⟩

theorem Knows.idle {adrift : List Post} (h : Knows d) (hadrift : ∀ p ∈ adrift, p.Tracked d.db) :
    Knows { d with phase := .idle, adrift } :=
  h.phase (fun _ hp => absurd hp List.not_mem_nil) (fun _ _ _ hcontra => nomatch hcontra) hadrift

theorem Knows.abandoned (h : Knows d) : ∀ p ∈ d.adrift ++ d.phase.unanswered, p.Tracked d.db := fun p hp =>
  (List.mem_append.1 hp).elim (h.adrift p) (h.unanswered p)

theorem tracks_initial {db : Tables} : Tracks db initialHostState.lastSnapshotId (db.head STORE_ID).isSome where
  head := by
    rw [Tables.tip]
    cases db.head STORE_ID <;> simp [initialHostState]
  given p hp := nomatch hp

theorem Knows.act {m : Move} (h : Knows d) (henabled : m.Enabled d) : Knows (m.act clientID d).2 := by
  cases m with
  | backup opts entries =>
    simp only [Move.act]
    cases hreq : snapshotRequest clientID d.current opts entries with
    | none => exact h
    | some req =>
      obtain ⟨_, rfl⟩ : _ ∧ _ = req := by simpa [snapshotRequest] using hreq
      refine h.phase (fun p hp => ?_) (fun _ _ _ hcontra => nomatch hcontra) h.adrift
      obtain rfl := List.mem_singleton.1 hp
      exact ⟨rfl, h.current⟩
  | giveUp => exact h.idle h.abandoned
  | deliver now faults =>
    obtain ⟨p, hphase⟩ := henabled
    have hstore := (h.unanswered p (by simp [hphase, Phase.unanswered])).store
    obtain ⟨hknows, hreply⟩ := h.append now faults hstore
    simp only [Move.act, hphase]
    refine hknows.phase (fun _ hp => absurd hp List.not_mem_nil) (fun req res stale hanswered => ?_) hknows.adrift
    obtain ⟨rfl, hres, rfl⟩ := Phase.answered.inj hanswered
    exact hreply res hres
  | receive =>
    obtain ⟨req, reply, stale, hphase⟩ := henabled
    simp only [Move.act, hphase]
    split
    · rename_i res stale' hanswered
      obtain ⟨rfl, rfl, rfl⟩ := Phase.answered.inj hanswered
      have hidle := h.idle h.adrift
      exact ⟨hidle.sound, h.answered _ res _ hphase, hidle.unanswered, hidle.answered, hidle.adrift⟩
    · exact h.idle h.adrift
  | lose => exact h.idle h.adrift
  | drift i now faults =>
    have hget : d.adrift[i]? = some d.adrift[i] := List.getElem?_eq_getElem henabled
    simp only [Move.act, hget]
    have hrest : Knows { d with adrift := d.adrift.eraseIdx i } :=
      ⟨h.sound, h.current, h.unanswered, h.answered, fun p hp => h.adrift p (List.mem_of_mem_eraseIdx hp)⟩
    exact (hrest.append now faults (h.adrift _ (List.getElem_mem henabled)).store).1
  | reload =>
    have hidle := h.idle h.abandoned
    exact ⟨hidle.sound, tracks_initial, hidle.unanswered, hidle.answered, hidle.adrift⟩
  | other c => exact h.sameTip (h.sound.serve c) (sameTip_serve h.sound henabled)

theorem knows_of_runs {t : List DeviceStep} (h : DeviceRuns clientID d t) : Knows d := by
  induction h with
  | init hnew =>
    obtain ⟨hempty, hcurrent, hdetached, hphase, hadrift⟩ := hnew
    have hsound := sound_empty hempty
    refine ⟨hsound, ?_, ?_, ?_, ?_⟩
    · rw [hcurrent, hdetached, hempty]
      exact tracks_initial
    · simp [hphase, Phase.unanswered]
    · simp [hphase]
    · simp [hadrift]
  | step _ henabled ih => exact ih.act henabled

/-! ## Forks -/

theorem mem_arriving_deliver {now : Int} {faults : Nat → Option BackupError} {p : Post} (hphase : d.phase = .sent p) :
    p ∈ (Move.deliver now faults).arriving d := by
  simp [Move.arriving, hphase, Phase.unanswered]

theorem Knows.arriving {m : Move} (h : Knows d) {p : Post} (hp : p ∈ m.arriving d) : p.Tracked d.db := by
  cases m with
  | deliver now faults => exact h.unanswered p (List.mem_of_mem_head? hp)
  | drift i now faults => exact h.adrift p (List.mem_of_getElem? hp)
  | _ => cases hp

/-- What arrives comes to the head just where it does no harm. -/
theorem Knows.follows_iff {e : DeviceStep} (h : Knows e.pre) : Follows e ↔ Harmless e.pre e.request := by
  constructor
  · intro hfollows p hp hstale
    refine (hfollows p hp).resolve_left fun heq => ?_
    rw [(h.arriving hp).parent.head.2 heq] at hstale
    cases hstale
  · intro hharmless p hp
    by_cases hstale : p.stale = true
    · exact .inr (hharmless p hp hstale)
    · exact .inl ((h.arriving hp).parent.head.1 (Bool.eq_false_iff.2 hstale))

/-- No snapshot of the store is a fork. -/
def Straight (db : Tables) : Prop := ∀ s ∈ db.snapshots, s.storeID = STORE_ID → s.isFork = false

theorem SameTip.straight {db db' : Tables} (h : SameTip db db') (hstraight : Straight db) : Straight db' :=
  fun s hmem hstore => hstraight s (h.rows s hmem hstore) hstore

theorem Straight.append {d : Device} {p : Post} {now : Int} {faults : Nat → Option BackupError} (h : Straight d.db) (hs : Sound d.db)
    (hp : p.Tracked d.db) (hharmless : p.stale = true → p.req.Unchanged d.db) : Straight (d.append p.req now faults).2.db := by
  have harrival := arrival_serve now faults hs hp.store
  have hdb : (d.append p.req now faults).2.db = (BackupCall.serve ⟨.appendSnapshot p.req, now, faults⟩ d.db).2 := by
    unfold Device.append
    split
    split <;> simp_all
  rw [hdb]
  cases harrival with
  | refused _ _ hpost | kept _ _ _ _ hpost =>
    rw [hpost]
    exact h
  | wrote _ _ _ hchecked hchanged _ hpost =>
    rw [hpost]
    intro s hmem hstore
    rcases List.mem_append.1 (List.mem_of_mem_filter hmem) with hmem | hmem
    · exact h s hmem hstore
    · have hfresh : p.stale = false := Bool.eq_false_iff.2 fun hstale => hchanged (hharmless hstale)
      obtain rfl := List.mem_singleton.1 hmem
      rw [isFork_row hs hchecked, hp.store]
      exact hp.parent.head.1 hfresh

theorem Straight.act {m : Move} (h : Straight d.db) (hknows : Knows d) (henabled : m.Enabled d) (hharmless : Harmless d m) :
    Straight (m.act clientID d).2.db := by
  cases m with
  | backup opts entries =>
    simp only [Move.act]
    cases snapshotRequest clientID d.current opts entries with
    | none => exact h
    | some req => exact h
  | deliver now faults =>
    obtain ⟨p, hphase⟩ := henabled
    have hp : p ∈ (Move.deliver now faults).arriving d := mem_arriving_deliver hphase
    simp only [Move.act, hphase]
    exact h.append hknows.sound (hknows.arriving hp) (hharmless p hp)
  | receive =>
    simp only [Move.act]
    split
    · exact h
    · exact h
  | drift i now faults =>
    have hget : d.adrift[i]? = some d.adrift[i] := List.getElem?_eq_getElem henabled
    have hp : d.adrift[i] ∈ (Move.drift i now faults).arriving d := hget
    simp only [Move.act, hget]
    exact Straight.append (d := { d with adrift := d.adrift.eraseIdx i }) h hknows.sound (hknows.arriving hp) (hharmless _ hp)
  | other c => exact (sameTip_serve hknows.sound henabled).straight h
  | giveUp | lose | reload => exact h

theorem straight_of_runs {t : List DeviceStep} (h : DeviceRuns clientID d t) (hharmless : ∀ e ∈ t, Harmless e.pre e.request) : Straight d.db := by
  induction h with
  | init hnew =>
    intro s hmem
    rw [hnew.1] at hmem
    exact absurd hmem List.not_mem_nil
  | step hrun henabled ih =>
    obtain ⟨hlast, hbefore⟩ := List.forall_mem_cons.1 hharmless
    exact (ih hbefore).act (knows_of_runs hrun) henabled hlast

theorem knows_of_mem {t : List DeviceStep} (h : DeviceRuns clientID d t) : ∀ e ∈ t, Knows e.pre := by
  induction h with
  | init _ => exact fun e he => absurd he List.not_mem_nil
  | step hrun _ ih => exact List.forall_mem_cons.2 ⟨knows_of_runs hrun, ih⟩

end Knows

/-- A device by itself forks nothing just where each stale request that arrives has the content of the head. -/
theorem forkless_runs {clientID : String} {d : Device} {t : List DeviceStep} (h : DeviceRuns clientID d t) :
    Forkless d t ↔ ∀ e ∈ t, Harmless e.pre e.request := by
  constructor
  · exact fun hforkless e he => (knows_of_mem h e he).follows_iff.1 (hforkless.follows e he)
  · exact fun hharmless => ⟨straight_of_runs h hharmless, fun e he => (knows_of_mem h e he).follows_iff.2 (hharmless e he)⟩

/-! ## A reply that is lost -/

def newDevice : Device := ⟨noBackups, initialHostState, false, .idle, []⟩

def auto : BackupNowOptions := ⟨"auto", false⟩

/-- A backup of a directory, whose reply is lost, and then of an empty tree. -/
def lostReply : List Move :=
  [.backup auto [⟨"a", "dir", "", 0, 0⟩], .deliver 1 fun _ => none, .lose, .backup auto [], .deliver 2 fun _ => none]

/-- A backup, its reply, and another after it. -/
def twoBackups : List Move :=
  [.backup auto [⟨"a", "dir", "", 0, 0⟩], .deliver 1 fun _ => none, .receive, .backup auto [], .deliver 2 fun _ => none]

theorem deviceRuns_lostReply : DeviceRuns "mac" (serveAll (Move.act "mac") lostReply newDevice []).1 (serveAll (Move.act "mac") lostReply newDevice []).2 :=
  Serves.all (.init ⟨rfl, rfl, rfl, rfl, rfl⟩) ⟨rfl, ⟨_, rfl⟩, ⟨_, _, _, rfl⟩, rfl, ⟨_, rfl⟩, trivial⟩

/-- The second row has no parent, because its device was never told of the first. -/
theorem not_forkless_lostReply : ¬∀ clientID d t, DeviceRuns clientID d t → Forkless d t := by
  intro hall
  have hfork : (⟨2, STORE_ID, "mac", none, true, "auto", 2, .array []⟩ : Snapshot) ∈
      (serveAll (Move.act "mac") lostReply newDevice []).1.db.snapshots := by decide
  exact absurd ((hall _ _ _ deviceRuns_lostReply).stored _ hfork rfl) (by decide)

theorem forkless_runs_twoBackups :
    Forkless (serveAll (Move.act "mac") twoBackups newDevice []).1 (serveAll (Move.act "mac") twoBackups newDevice []).2 ↔
      ∀ e ∈ (serveAll (Move.act "mac") twoBackups newDevice []).2, Harmless e.pre e.request :=
  forkless_runs (Serves.all (.init ⟨rfl, rfl, rfl, rfl, rfl⟩) ⟨rfl, ⟨_, rfl⟩, ⟨_, _, _, rfl⟩, rfl, ⟨_, rfl⟩, trivial⟩)

end Purdex.Backup
