/-
What a collection keeps, and what holds of the rows over every run of uploads, appends and collections.
-/
import Purdex.Backup.Store
import Purdex.Conc.Serial

namespace Purdex.Backup

open Conc Digest

/-! ## What is kept -/

section Kept

variable {now : Int} {snaps : List Snapshot} {keep : List Int} {p : Int}

theorem subset_climb : ∀ (fuel : Nat) (keep : List Int) (p : Int), keep ⊆ climb snaps fuel keep p
  | 0, _, _ => List.Subset.refl _
  | fuel + 1, keep, p => by
    rw [climb]
    split
    · exact List.Subset.refl _
    · exact List.Subset.trans (List.subset_cons_self p keep) (subset_climb fuel (p :: keep) _)

theorem subset_keepFold (rest : List Snapshot) (keep : List Int) : keep ⊆ rest.foldl (fun keep sn =>
    if sn.id ∈ keep then climb snaps (snaps.length + 1) keep (parentOf snaps sn.id) else keep) keep := by
  induction rest generalizing keep with
  | nil => exact List.Subset.refl _
  | cons sn rest ih =>
    rw [List.foldl_cons]
    split
    · exact List.Subset.trans (subset_climb _ _ _) (ih _)
    · exact ih _

/-- Of a descending list, a member with fewer than `n` above it is among the first `n`. -/
theorem mem_take_of_few {a : Int} : ∀ {l : List Int} {n : Nat}, l.Pairwise (· ≥ ·) → a ∈ l → (l.filter (a < ·)).length < n → a ∈ l.take n
  | m :: rest, n, hsorted, hmem, hfew => by
    obtain ⟨hge, hsorted⟩ := List.pairwise_cons.1 hsorted
    obtain ⟨k, rfl⟩ := Nat.exists_eq_succ_of_ne_zero (Nat.ne_zero_of_lt hfew)
    rw [List.take_succ_cons]
    by_cases heq : a = m
    · rw [heq]
      exact List.mem_cons_self
    · have hrest : a ∈ rest := (List.mem_cons.1 hmem).resolve_left heq
      have habove : a < m := lt_of_le_of_ne (hge a hrest) heq
      rw [List.filter_cons, if_pos (decide_eq_true habove), List.length_cons] at hfew
      exact List.mem_cons_of_mem _ (mem_take_of_few hsorted hrest (Nat.lt_of_succ_lt_succ hfew))

/-- A snapshot with few above it is among the latest. -/
theorem latest_mem_keepSet {h : Snapshot} (hmem : h ∈ snaps) (hfew : ((snaps.map (·.id)).filter (h.id < ·)).length < maxSnapshots) :
    h.id ∈ keepSet now snaps := by
  refine subset_keepFold _ _ (List.mem_append_right _ (mem_take_of_few (List.pairwise_insertionSort _ _) ?_ ?_))
  · exact (List.perm_insertionSort _ _).mem_iff.2 (List.mem_map_of_mem hmem)
  · rwa [((List.perm_insertionSort _ _).filter _).length_eq]

/-- An id whose parent, if any, is kept as well. -/
def Closed (snaps : List Snapshot) (keep : List Int) (id : Int) : Prop := parentOf snaps id = 0 ∨ parentOf snaps id ∈ keep

theorem Closed.mono {keep' : List Int} {id : Int} (h : Closed snaps keep id) (hsub : keep ⊆ keep') : Closed snaps keep' id :=
  h.imp_right fun hmem => hsub hmem

theorem parentOf_of_absent (h : p ∉ snaps.map (·.id)) : parentOf snaps p = 0 := by
  have hnone : snaps.find? (·.id = p) = none := by
    refine List.find?_eq_none.2 fun s hs heq => h ?_
    rw [← of_decide_eq_true heq]
    exact List.mem_map_of_mem hs
  rw [parentOf, hnone]
  rfl

/-- A row that is kept now is one fewer that is not. -/
theorem unkept_lt {ids keep : List Int} (hrow : p ∈ ids) (hkeep : p ∉ keep) :
    (ids.filter (· ∉ p :: keep)).length < (ids.filter (· ∉ keep)).length := by
  have hsplit : ids.filter (· ∉ p :: keep) = (ids.filter (· ∉ keep)).filter (· ≠ p) := by
    rw [List.filter_filter]
    refine List.filter_congr fun x _ => ?_
    simp only [List.mem_cons, not_or, ← Bool.decide_and, ne_eq]
  rw [hsplit]
  exact List.length_filter_lt_length_iff_exists.2 ⟨p, List.mem_filter.2 ⟨hrow, by simpa using hkeep⟩, by simp⟩

/-- With fuel for every row, a climb ends only where there is nothing above that is not kept. -/
theorem closed_climb : ∀ {fuel : Nat} {keep : List Int} {p : Int}, ((snaps.map (·.id)).filter (· ∉ keep)).length < fuel →
    (p = 0 ∨ p ∈ climb snaps fuel keep p) ∧ ∀ q ∈ climb snaps fuel keep p, q ∈ keep ∨ Closed snaps (climb snaps fuel keep p) q
  | 0, keep, p, h => absurd h (Nat.not_lt_zero _)
  | fuel + 1, keep, p, h => by
    rw [climb]
    split
    · rename_i hstop
      exact ⟨hstop, fun q hq => .inl hq⟩
    rename_i hgo
    obtain ⟨hp0, hkeep⟩ := not_or.1 hgo
    have hself : p ∈ climb snaps fuel (p :: keep) (parentOf snaps p) := subset_climb _ _ _ List.mem_cons_self
    refine ⟨.inr hself, fun q hq => ?_⟩
    by_cases hrow : p ∈ snaps.map (·.id)
    · have hfewer : ((snaps.map (·.id)).filter (· ∉ p :: keep)).length < fuel :=
        Nat.lt_of_lt_of_le (unkept_lt hrow hkeep) (Nat.le_of_lt_succ h)
      obtain ⟨hparent, hclosed⟩ := closed_climb hfewer (p := parentOf snaps p)
      rcases hclosed q hq with hq | hq
      · rcases List.mem_cons.1 hq with rfl | hq
        · exact .inr hparent
        · exact .inl hq
      · exact .inr hq
    · rw [parentOf_of_absent hrow] at hq ⊢
      have hend : climb snaps fuel (p :: keep) 0 = p :: keep := by
        cases fuel with
        | zero => rfl
        | succ fuel => rw [climb, if_pos (.inl rfl)]
      rw [hend] at hq ⊢
      rcases List.mem_cons.1 hq with rfl | hq
      · exact .inr (.inl (parentOf_of_absent hrow))
      · exact .inl hq

theorem closed_keepFold (hfuel : ∀ keep : List Int, ((snaps.map (·.id)).filter (· ∉ keep)).length < snaps.length + 1) :
    ∀ {rest : List Snapshot} {keep : List Int}, (∀ q ∈ keep, Closed snaps keep q ∨ ∃ sn ∈ rest, sn.id = q) →
      ∀ q ∈ rest.foldl (fun keep sn =>
          if sn.id ∈ keep then climb snaps (snaps.length + 1) keep (parentOf snaps sn.id) else keep) keep,
        Closed snaps (rest.foldl (fun keep sn =>
          if sn.id ∈ keep then climb snaps (snaps.length + 1) keep (parentOf snaps sn.id) else keep) keep) q
  | [], keep, h, q, hq => by
    rcases h q hq with hclosed | ⟨_, hnone, _⟩
    · exact hclosed
    · cases hnone
  | sn :: rest, keep, h, q, hq => by
    rw [List.foldl_cons] at hq ⊢
    refine closed_keepFold hfuel (fun r hr => ?_) q hq
    split at hr
    · rename_i hkept
      rw [if_pos hkept]
      obtain ⟨hparent, hclosed⟩ := closed_climb (hfuel keep) (p := parentOf snaps sn.id)
      rcases hclosed r hr with hr | hr
      · rcases h r hr with hr' | ⟨sn', hsn', rfl⟩
        · exact .inl (hr'.mono (subset_climb _ _ _))
        · rcases List.mem_cons.1 hsn' with rfl | hsn'
          · exact .inl hparent
          · exact .inr ⟨sn', hsn', rfl⟩
      · exact .inl hr
    · rename_i hdropped
      rw [if_neg hdropped]
      rcases h r hr with hr' | ⟨sn', hsn', rfl⟩
      · exact .inl hr'
      · rcases List.mem_cons.1 hsn' with rfl | hsn'
        · exact absurd hr hdropped
        · exact .inr ⟨sn', hsn', rfl⟩

/-- Whatever is kept, its ancestors are. -/
theorem closed_keepSet {q : Int} (hq : q ∈ keepSet now snaps) : Closed snaps (keepSet now snaps) q := by
  refine closed_keepFold (fun keep => ?_) (fun r hr => .inr ?_) q hq
  · exact Nat.lt_succ_of_le ((List.length_filter_le _ _).trans_eq (List.length_map _))
  · rcases List.mem_append.1 hr with hr | hr
    · obtain ⟨s, hs, rfl⟩ := List.mem_map.1 hr
      exact ⟨s, List.mem_of_mem_filter hs, rfl⟩
    · obtain ⟨s, hs, rfl⟩ := List.mem_map.1 ((List.perm_insertionSort _ _).mem_iff.1 (List.mem_of_mem_take hr))
      exact ⟨s, hs, rfl⟩

end Kept

/-! ## Calls -/

inductive BackupOp where
  | putBlob (hash : String) (content : List UInt8)
  | appendSnapshot (req : AppendRequest)
  | gc

inductive BackupReply where
  | stored
  | appended (result : AppendResult)
  | collected
  deriving Repr, DecidableEq

/-- A call of the store, when it is made, and which of its statements fail. -/
structure BackupCall where
  op : BackupOp
  now : Int
  faults : Nat → Option BackupError

/-- A statement outside of a transaction is one by itself. -/
def BackupCall.serve (c : BackupCall) (db : Tables) : Except BackupError BackupReply × Tables :=
  match c.op with
  | .putBlob hash content => inTx (do putBlob c.now hash content; return .stored) c.faults db
  | .appendSnapshot req => inTx (do let result ← appendSnapshot c.now req; return .appended result) c.faults db
  | .gc => inTx (do gc c.now; return .collected) c.faults db

abbrev BackupStep := Served Tables BackupCall (Except BackupError BackupReply)

def NoBackups (db : Tables) : Prop := db = ⟨[], [], 0⟩

abbrev BackupRuns : Tables → List BackupStep → Prop := Serves BackupCall.serve NoBackups fun _ _ => True

def Tables.put (db : Tables) (now : Int) (hash : String) (content : List UInt8) : Tables :=
  if ∃ b ∈ db.blobs, b.hash = hash then db else { db with blobs := db.blobs ++ [⟨hash, content, content.length, now⟩] }

def Tables.appended (db : Tables) (req : AppendRequest) (now : Int) : Tables :=
  ((db.inserted (req.row db now)).pruned req.storeID now).swept now

/-- What a call that succeeds answers and leaves behind. -/
def BackupCall.Does (c : BackupCall) (db : Tables) (reply : BackupReply) (db' : Tables) : Prop :=
  match c.op with
  | .putBlob hash content => reply = .stored ∧ sha256Hex content = hash ∧ db' = db.put c.now hash content
  | .appendSnapshot req => Checked db req ∧
    if req.Unchanged db
    then reply = .appended ⟨req.storeID, db.headID req.storeID, db.headID req.storeID, false, "", "", 0, false⟩ ∧ db' = db
    else reply = .appended ⟨req.storeID, (req.row db c.now).id, (req.row db c.now).id, (req.row db c.now).isFork, req.device, req.trigger,
      c.now, true⟩ ∧ db' = db.appended req c.now
  | .gc => reply = .collected ∧ db' = (db.prunedAll c.now).swept c.now

/-- A call fails and leaves the tables as they were, or does all it has to. -/
theorem BackupCall.serve_cases (c : BackupCall) (db : Tables) :
    (∃ e, c.serve db = (.error e, db)) ∨ ∃ reply db', c.serve db = (.ok reply, db') ∧ c.Does db reply db' := by
  obtain ⟨op, now, faults⟩ := c
  cases op with
  | putBlob hash content =>
    refine inTx_cases faults (Tx.returns_bind (returns_putBlob.mono fun _ db' h => Tx.returns_pure ?_))
    exact ⟨rfl, h⟩
  | appendSnapshot req =>
    refine inTx_cases faults (Tx.returns_bind (returns_appendSnapshot.mono fun result db' h => Tx.returns_pure ?_))
    obtain ⟨hchecked, hdone⟩ := h
    refine ⟨hchecked, ?_⟩
    show if req.Unchanged db then _ else _
    split
    · rename_i hunchanged
      rw [if_pos hunchanged] at hdone
      exact ⟨congrArg _ hdone.1, hdone.2⟩
    · rename_i hchanged
      rw [if_neg hchanged] at hdone
      exact ⟨congrArg _ hdone.1, hdone.2⟩
  | gc =>
    refine inTx_cases faults (Tx.returns_bind (returns_gc.mono fun _ db' h => Tx.returns_pure ?_))
    exact ⟨rfl, h⟩

/-! ## Sound tables -/

/-- An entry whose blob is stored, as long as the entry says. -/
def ManifestEntry.Backed (db : Tables) (e : ManifestEntry) : Prop :=
  e.kind = "file" → ∃ b ∈ db.blobs, b.hash = e.hash ∧ b.size = e.size

structure Sound (db : Tables) : Prop where
  ids : (db.snapshots.map (·.id)).Pairwise (· < ·)
  given : ∀ s ∈ db.snapshots, 0 < s.id ∧ s.id ≤ db.sequence
  started : 0 ≤ db.sequence
  content : ∀ b ∈ db.blobs, sha256Hex b.content = b.hash ∧ b.size = b.content.length
  valid : ∀ s ∈ db.snapshots, ∃ entries, unmarshal s.manifest = some entries ∧ Valid entries ∧ ∀ e ∈ entries, e.Backed db

section Sound

variable {db db' : Tables} {now : Int} {storeID : String}

/-- Only rows of the snapshots go. -/
structure Trims (db db' : Tables) : Prop where
  blobs : db'.blobs = db.blobs
  sequence : db'.sequence = db.sequence
  snapshots : db'.snapshots.Sublist db.snapshots

theorem Trims.refl (db : Tables) : Trims db db := ⟨rfl, rfl, .refl _⟩

theorem Trims.trans {db'' : Tables} (h : Trims db db') (h' : Trims db' db'') : Trims db db'' :=
  ⟨h'.blobs.trans h.blobs, h'.sequence.trans h.sequence, h'.snapshots.trans h.snapshots⟩

theorem trims_pruned : Trims db (db.pruned storeID now) := ⟨rfl, rfl, List.filter_sublist⟩

theorem trims_prunedFold : ∀ (stores : List String) (db : Tables),
    Trims db (stores.foldl (fun db storeID => db.pruned storeID now) db)
  | [], db => .refl db
  | _ :: rest, _ => trims_pruned.trans (trims_prunedFold rest _)

theorem trims_prunedAll : Trims db (db.prunedAll now) := trims_prunedFold _ _

theorem ManifestEntry.Backed.mono {e : ManifestEntry} (h : e.Backed db) (hblobs : ∀ x ∈ db.blobs, x.hash = e.hash → x ∈ db'.blobs) :
    e.Backed db' := fun hkind =>
  have ⟨b, hb, hhash, hsize⟩ := h hkind
  ⟨b, hblobs b hb hhash, hhash, hsize⟩

theorem Sound.trims (h : Sound db) (htrims : Trims db db') : Sound db' where
  ids := h.ids.sublist (htrims.snapshots.map _)
  given s hs := htrims.sequence ▸ h.given s (htrims.snapshots.subset hs)
  started := htrims.sequence ▸ h.started
  content b hb := h.content b (htrims.blobs ▸ hb)
  valid s hs :=
    have ⟨entries, hread, hvalid, hbacked⟩ := h.valid s (htrims.snapshots.subset hs)
    ⟨entries, hread, hvalid, fun e he => (hbacked e he).mono fun _ hb _ => htrims.blobs ▸ hb⟩

theorem isHex64_ne_empty {s : String} (h : isHex64 s = true) : s ≠ "" := by
  rintro rfl
  revert h
  decide

theorem mem_references {s : Snapshot} {entries : List ManifestEntry} {e : ManifestEntry} (hread : unmarshal s.manifest = some entries)
    (hvalid : Valid entries) (he : e ∈ entries) (hkind : e.kind = "file") : e.hash ∈ s.references := by
  rw [Snapshot.references, hread]
  refine List.mem_map.2 ⟨e, List.mem_filter.2 ⟨he, ?_⟩, rfl⟩
  rcases hvalid.kinds e he with ⟨hdir, _⟩ | ⟨_, hhash⟩
  · exact absurd (hkind.symm.trans hdir) (by decide)
  · simpa using ⟨hkind, isHex64_ne_empty hhash⟩

/-- A collection leaves what a snapshot needs. -/
theorem mem_swept {b : Blob} {s : Snapshot} (hs : s ∈ db.snapshots) (hb : b ∈ db.blobs) (hneeded : b.hash ∈ s.references) :
    b ∈ (db.swept now).blobs := by
  refine List.mem_filter.2 ⟨hb, ?_⟩
  simp only [decide_eq_true_eq]
  intro hcollectable
  obtain ⟨b', hb', heq⟩ := List.mem_map.1 hcollectable
  obtain ⟨_, htaken⟩ := List.mem_filter.1 hb'
  have hunneeded : b'.hash ∉ db.referenced := (of_decide_eq_true htaken).1
  exact hunneeded (heq ▸ List.mem_flatMap.2 ⟨s, hs, hneeded⟩)

theorem Sound.swept (h : Sound db) : Sound (db.swept now) where
  ids := h.ids
  given := h.given
  started := h.started
  content b hb := h.content b (List.mem_of_mem_filter hb)
  valid s hs :=
    have ⟨entries, hread, hvalid, hbacked⟩ := h.valid s hs
    ⟨entries, hread, hvalid, fun e he hkind => (hbacked e he).mono
      (fun _ hb hhash => mem_swept hs hb (hhash ▸ mem_references hread hvalid he hkind)) hkind⟩

theorem Sound.put {hash : String} {content : List UInt8} (h : Sound db) (hhash : sha256Hex content = hash) :
    Sound (db.put now hash content) := by
  unfold Tables.put
  split
  · exact h
  · refine ⟨h.ids, h.given, h.started, fun b hb => ?_, fun s hs => ?_⟩
    · rcases List.mem_append.1 hb with hb | hb
      · exact h.content b hb
      · obtain rfl := List.mem_singleton.1 hb
        exact ⟨hhash, rfl⟩
    · obtain ⟨entries, hread, hvalid, hbacked⟩ := h.valid s hs
      exact ⟨entries, hread, hvalid, fun e he => (hbacked e he).mono fun b hb _ => List.mem_append_left _ hb⟩

theorem Sound.inserted {req : AppendRequest} (h : Sound db) (hchecked : Checked db req) : Sound (db.inserted (req.row db now)) where
  ids := by
    show ((db.snapshots ++ [req.row db now]).map (·.id)).Pairwise (· < ·)
    rw [List.map_append, List.pairwise_append]
    refine ⟨h.ids, List.pairwise_singleton _ _, fun i hi j hj => ?_⟩
    obtain ⟨s, hs, rfl⟩ := List.mem_map.1 hi
    obtain rfl := List.mem_singleton.1 hj
    exact Int.lt_add_one_of_le (h.given s hs).2
  given s hs := by
    have hstarted := h.started
    show 0 < s.id ∧ s.id ≤ db.sequence + 1
    rcases List.mem_append.1 hs with hs | hs
    · have hgiven := h.given s hs
      omega
    · obtain rfl := List.mem_singleton.1 hs
      show 0 < db.sequence + 1 ∧ db.sequence + 1 ≤ db.sequence + 1
      omega
  started := Int.le_add_one h.started
  content := h.content
  valid s hs := by
    rcases List.mem_append.1 hs with hs | hs
    · exact h.valid s hs
    · obtain rfl := List.mem_singleton.1 hs
      exact ⟨req.manifest.getD [], unmarshal_marshal _, validateManifest_ok.1 hchecked.valid, hchecked.stored⟩

theorem Sound.appended {req : AppendRequest} (h : Sound db) (hchecked : Checked db req) : Sound (db.appended req now) :=
  ((h.inserted hchecked).trims trims_pruned).swept

theorem Sound.does {c : BackupCall} {reply : BackupReply} (h : Sound db) (hdoes : c.Does db reply db') : Sound db' := by
  obtain ⟨op, now, faults⟩ := c
  cases op with
  | putBlob hash content =>
    obtain ⟨_, hhash, rfl⟩ := hdoes
    exact h.put hhash
  | appendSnapshot req =>
    obtain ⟨hchecked, hdone⟩ := hdoes
    split at hdone
    · rw [hdone.2]
      exact h
    · rw [hdone.2]
      exact h.appended hchecked
  | gc =>
    rw [hdoes.2]
    exact (h.trims trims_prunedAll).swept

theorem Sound.serve (h : Sound db) (c : BackupCall) : Sound (c.serve db).2 := by
  rcases c.serve_cases db with ⟨e, heq⟩ | ⟨reply, db', heq, hdoes⟩
  · rw [heq]
    exact h
  · rw [heq]
    exact h.does hdoes

theorem sound_empty (h : NoBackups db) : Sound db := by
  rw [h]
  exact ⟨List.Pairwise.nil, by simp, le_refl _, by simp, by simp⟩

theorem sound_of_runs {t : List BackupStep} (h : BackupRuns db t) : Sound db := by
  induction h with
  | init hempty => exact sound_empty hempty
  | step _ _ ih => exact ih.serve _

/-- Rows are known by their ids. -/
theorem Sound.nodup (h : Sound db) : (db.snapshots.map (·.id)).Nodup := h.ids.imp ne_of_lt

/-- A prune of one store leaves the rows of the others. -/
theorem mem_pruned_of_ne (hids : (db.snapshots.map (·.id)).Nodup) {s : Snapshot} (hs : s ∈ db.snapshots) (hne : s.storeID ≠ storeID) :
    s ∈ (db.pruned storeID now).snapshots := by
  refine List.mem_filter.2 ⟨hs, ?_⟩
  simp only [decide_eq_true_eq]
  intro hsurplus
  obtain ⟨s', hs', hid⟩ := List.mem_map.1 hsurplus
  obtain ⟨hmem, hstore⟩ := List.mem_filter.1 (List.mem_of_mem_filter hs')
  rw [List.inj_on_of_nodup_map hids hmem hs hid] at hstore
  exact hne (by simpa using hstore)

end Sound

/-! ## Backups that can be restored -/

/-- Every file of every snapshot is there, and what is there is what its hash says. -/
structure Restorable (db : Tables) : Prop where
  snapshots : ∀ s ∈ db.snapshots, ∃ entries, unmarshal s.manifest = some entries ∧ validateManifest entries = .ok () ∧
    ∀ e ∈ entries, e.kind = "file" → ∃ b ∈ db.blobs, b.hash = e.hash ∧ b.content.length = e.size
  blobs : ∀ b ∈ db.blobs, sha256Hex b.content = b.hash

/-- An append keeps the snapshots of other stores with their blobs, and a pass over all stores keeps the blobs
of each snapshot that is left. -/
def SparesOthers (e : BackupStep) : Prop :=
  match e.request.op with
  | .putBlob _ _ => True
  | .appendSnapshot req => ∀ s ∈ e.pre.snapshots, s.storeID ≠ req.storeID → s ∈ (e.request.serve e.pre).2.snapshots ∧
    ∀ b ∈ e.pre.blobs, b.hash ∈ s.references → b ∈ (e.request.serve e.pre).2.blobs
  | .gc => ∀ s ∈ (e.request.serve e.pre).2.snapshots, ∀ b ∈ e.pre.blobs, b.hash ∈ s.references → b ∈ (e.request.serve e.pre).2.blobs

theorem Sound.restorable {db : Tables} (h : Sound db) : Restorable db := by
  refine ⟨fun s hs => ?_, fun b hb => (h.content b hb).1⟩
  obtain ⟨entries, hread, hvalid, hbacked⟩ := h.valid s hs
  refine ⟨entries, hread, validateManifest_ok.2 hvalid, fun e he hkind => ?_⟩
  obtain ⟨b, hb, hhash, hsize⟩ := hbacked e he hkind
  exact ⟨b, hb, hhash, (h.content b hb).2.symm.trans hsize⟩

theorem sparesOthers_serve {e : BackupStep} (h : Sound e.pre) : SparesOthers e := by
  obtain ⟨⟨op, now, faults⟩, pre, reply⟩ := e
  rcases BackupCall.serve_cases ⟨op, now, faults⟩ pre with ⟨err, heq⟩ | ⟨reply', db', heq, hdoes⟩
  · cases op with
    | putBlob hash content => trivial
    | appendSnapshot req =>
      intro s hs _
      rw [heq]
      exact ⟨hs, fun b hb _ => hb⟩
    | gc =>
      intro s hs b hb _
      rw [heq]
      exact hb
  · cases op with
    | putBlob hash content => trivial
    | appendSnapshot req =>
      intro s hs hne
      rw [heq]
      obtain ⟨hchecked, hdone⟩ := hdoes
      split at hdone
      · rw [hdone.2]
        exact ⟨hs, fun b hb _ => hb⟩
      · rw [hdone.2]
        have hkept : s ∈ ((pre.inserted (req.row pre now)).pruned req.storeID now).snapshots :=
          mem_pruned_of_ne (h.inserted hchecked).nodup (List.mem_append_left _ hs) hne
        exact ⟨hkept, fun b hb hneeded => mem_swept hkept hb hneeded⟩
    | gc =>
      intro s hs b hb hneeded
      rw [heq] at hs ⊢
      rw [hdoes.2] at hs ⊢
      have hblobs : b ∈ (pre.prunedAll now).blobs := by
        rw [trims_prunedAll.blobs]
        exact hb
      exact mem_swept hs hblobs hneeded

/-- Backups stay restorable over every run. -/
theorem restorable_runs {db : Tables} {t : List BackupStep} (h : BackupRuns db t) : Restorable db ∧ ∀ e ∈ t, SparesOthers e := by
  refine ⟨(sound_of_runs h).restorable, ?_⟩
  induction h with
  | init _ => exact fun e he => absurd he List.not_mem_nil
  | step hrun _ ih => exact List.forall_mem_cons.2 ⟨sparesOthers_serve (sound_of_runs hrun), ih⟩

/-- A call none of whose statements fails. -/
def backup (op : BackupOp) (now : Int) : BackupCall := ⟨op, now, fun _ => none⟩

def noBackups : Tables := ⟨[], [], 0⟩

def letter : List UInt8 := [0x61]

/-- The tree of one file. -/
def oneFile : List ManifestEntry := [⟨"a.txt", "file", sha256Hex letter, 1, 1⟩]

def firstBackup (storeID : String) : AppendRequest := ⟨storeID, "mac", none, "auto", some oneFile⟩

/-- Two stores that share a blob, and a pass over both. -/
def twoStores : List BackupCall :=
  [backup (.putBlob (sha256Hex letter) letter) 0, backup (.appendSnapshot (firstBackup "a")) 1, backup (.appendSnapshot (firstBackup "b")) 2,
    backup .gc 9000]

theorem restorable_runs_twoStores : Restorable (serveAll BackupCall.serve twoStores noBackups []).1 ∧
    ∀ e ∈ (serveAll BackupCall.serve twoStores noBackups []).2, SparesOthers e :=
  restorable_runs (Serves.all (.init rfl) (allOk_true _ twoStores _))

end Purdex.Backup
