/-
The main line of a store: its head, which snapshots are forks of it, and what an append of the content
that is at the head already does.
-/
import Purdex.Backup.Runs

namespace Purdex.Backup

open Conc

/-! ## Heads -/

section Head

variable {db : Tables} {now : Int} {storeID S : String} {h : Snapshot}

theorem head_eq_some (hids : (db.snapshots.map (·.id)).Nodup) : db.head S = some h ↔
    h ∈ db.snapshots ∧ h.storeID = S ∧ ∀ s ∈ db.snapshots, s.storeID = S → s.id ≤ h.id := by
  have hmem : ∀ {s : Snapshot}, s ∈ db.ofStore S ↔ s ∈ db.snapshots ∧ s.storeID = S := by simp [Tables.ofStore]
  constructor
  · intro hhead
    obtain ⟨hstored, hstore⟩ := hmem.1 (List.argmax_mem (f := (·.id)) hhead)
    exact ⟨hstored, hstore, fun s hs' hS => List.le_of_mem_argmax (f := (·.id)) (hmem.2 ⟨hs', hS⟩) hhead⟩
  · rintro ⟨hstored, hstore, hgreatest⟩
    cases hhead : db.head S with
    | none =>
      have hempty := List.argmax_eq_none.1 hhead
      rw [List.eq_nil_iff_forall_not_mem] at hempty
      exact absurd (hmem.2 ⟨hstored, hstore⟩) (hempty h)
    | some m =>
      obtain ⟨hm, hmS⟩ := hmem.1 (List.argmax_mem (f := (·.id)) hhead)
      have hle : h.id ≤ m.id := List.le_of_mem_argmax (f := (·.id)) (hmem.2 ⟨hstored, hstore⟩) hhead
      rw [List.inj_on_of_nodup_map hids hm hstored (le_antisymm (hgreatest m hm hmS) hle)]

theorem Sound.head_eq_some (hs : Sound db) : db.head S = some h ↔
    h ∈ db.snapshots ∧ h.storeID = S ∧ ∀ s ∈ db.snapshots, s.storeID = S → s.id ≤ h.id :=
  Backup.head_eq_some hs.nodup

theorem head_eq_none : db.head S = none ↔ ∀ s ∈ db.snapshots, s.storeID ≠ S := by
  rw [Tables.head, List.argmax_eq_none, Tables.ofStore, List.filter_eq_nil_iff]
  simp

theorem head_congr {db' : Tables} (heq : db'.snapshots = db.snapshots) : db'.head S = db.head S := by
  rw [Tables.head, Tables.head, Tables.ofStore, Tables.ofStore, heq]

/-- A snapshot outlives a prune when its store has few above it. -/
theorem mem_pruned_of_few (hids : (db.snapshots.map (·.id)).Nodup) (hmem : h ∈ db.snapshots)
    (hfew : (((db.ofStore h.storeID).map (·.id)).filter (h.id < ·)).length < maxSnapshots) : h ∈ (db.pruned storeID now).snapshots := by
  by_cases hown : h.storeID = storeID
  · refine List.mem_filter.2 ⟨hmem, ?_⟩
    simp only [decide_eq_true_eq]
    intro hsurplus
    obtain ⟨s, hsmem, hid⟩ := List.mem_map.1 hsurplus
    refine of_decide_eq_true (List.mem_filter.1 hsmem).2 ?_
    rw [hid, ← hown]
    exact latest_mem_keepSet (List.mem_filter.2 ⟨hmem, decide_eq_true rfl⟩) hfew
  · exact mem_pruned_of_ne hids hmem hown

theorem none_above_head (hgreatest : ∀ s ∈ db.snapshots, s.storeID = h.storeID → s.id ≤ h.id) :
    ((db.ofStore h.storeID).map (·.id)).filter (h.id < ·) = [] := by
  simp only [List.filter_eq_nil_iff, List.mem_map, Tables.ofStore, List.mem_filter, decide_eq_true_eq]
  rintro _ ⟨s, ⟨hsmem, hstore⟩, rfl⟩
  exact not_lt.2 (hgreatest s hsmem hstore)

/-- A head outlives a prune, of its own store and of others. -/
theorem mem_pruned_head (hids : (db.snapshots.map (·.id)).Nodup) (hhead : db.head S = some h) : h ∈ (db.pruned storeID now).snapshots := by
  obtain ⟨hmem, rfl, hgreatest⟩ := (head_eq_some hids).1 hhead
  refine mem_pruned_of_few hids hmem ?_
  rw [none_above_head hgreatest]
  decide

/-- The head that an append replaces is the second of the latest. -/
theorem mem_appended_head {req : AppendRequest} (hs : Sound db) (hchecked : Checked db req) (hhead : db.head S = some h) :
    h ∈ (db.appended req now).snapshots := by
  obtain ⟨hmem, rfl, hgreatest⟩ := hs.head_eq_some.1 hhead
  refine mem_pruned_of_few (hs.inserted hchecked).nodup (List.mem_append_left _ hmem) ?_
  have hsplit : (db.inserted (req.row db now)).ofStore h.storeID =
      db.ofStore h.storeID ++ [req.row db now].filter (·.storeID = h.storeID) := List.filter_append _ _
  rw [hsplit, List.map_append, List.filter_append, none_above_head hgreatest, List.nil_append]
  refine Nat.lt_of_le_of_lt (List.length_filter_le _ _) ?_
  rw [List.length_map]
  refine Nat.lt_of_le_of_lt (List.length_filter_le _ _) ?_
  show 1 < 100
  decide

theorem head_pruned (hids : (db.snapshots.map (·.id)).Nodup) : (db.pruned storeID now).head S = db.head S := by
  cases hhead : db.head S with
  | none => exact head_eq_none.2 fun s hmem => head_eq_none.1 hhead s (List.mem_of_mem_filter hmem)
  | some h =>
    obtain ⟨_, hstore, hgreatest⟩ := (head_eq_some hids).1 hhead
    exact (head_eq_some (hids.sublist (trims_pruned.snapshots.map _))).2
      ⟨mem_pruned_head hids hhead, hstore, fun s hmem => hgreatest s (List.mem_of_mem_filter hmem)⟩

theorem head_prunedFold : ∀ (stores : List String) {db : Tables}, Sound db →
    (stores.foldl (fun db storeID => db.pruned storeID now) db).head S = db.head S
  | [], _, _ => rfl
  | _ :: rest, _, hs => (head_prunedFold rest (hs.trims trims_pruned)).trans (head_pruned hs.nodup)

theorem head_collected (hs : Sound db) : ((db.prunedAll now).swept now).head S = db.head S :=
  (head_congr rfl).trans (head_prunedFold _ hs)

theorem head_put {hash : String} {content : List UInt8} : (db.put now hash content).head S = db.head S := by
  unfold Tables.put
  split
  · rfl
  · exact head_congr rfl

/-- A row that is written becomes the head of its store. -/
theorem head_appended {req : AppendRequest} (hs : Sound db) (hchecked : Checked db req) :
    (db.appended req now).head S = if S = req.storeID then some (req.row db now) else db.head S := by
  have hinserted : Sound (db.inserted (req.row db now)) := hs.inserted hchecked
  refine (head_congr rfl).trans ((head_pruned hinserted.nodup).trans ?_)
  split
  · rename_i hown
    subst hown
    refine hinserted.head_eq_some.2 ⟨List.mem_append_right _ List.mem_cons_self, rfl, fun s hmem _ => ?_⟩
    rcases List.mem_append.1 hmem with hmem | hmem
    · exact (hs.given s hmem).2.trans (Int.le_add_one (le_refl _))
    · exact (congrArg Snapshot.id (List.mem_singleton.1 hmem)).le
  · rename_i hother
    rw [Tables.head, Tables.head, Tables.ofStore, Tables.ofStore]
    show List.argmax _ (List.filter _ (db.snapshots ++ [req.row db now])) = _
    rw [List.filter_append, List.filter_singleton]
    simp [AppendRequest.row, Ne.symm hother]

theorem headID_ne_zero (hs : Sound db) : db.headID S ≠ 0 ↔ ∃ h, db.head S = some h := by
  unfold Tables.headID
  cases hhead : db.head S with
  | none => simp
  | some h =>
    have hpositive := (hs.given h (hs.head_eq_some.1 hhead).1).1
    simp only [Option.map_some, Option.getD_some, Option.some.injEq, exists_eq', iff_true]
    omega

end Head

/-! ## What was written -/

/-- The row that a step wrote, by its request and its answer. -/
def written (e : BackupStep) : Option Snapshot :=
  match e.request.op, e.reply with
  | .appendSnapshot req, .ok (.appended r) =>
    if r.written then some ⟨r.snapshotID, req.storeID, req.device, req.parentID, r.isFork, req.trigger, r.createdAt, marshal req.manifest⟩
    else none
  | _, _ => none

/-- A call, and what it did to the tables. -/
inductive Outcome (e : BackupStep) : Prop where
  | failed (err : BackupError) (hreply : e.reply = .error err) (hpost : (e.request.serve e.pre).2 = e.pre) (hnone : written e = none)
  | kept (hnone : written e = none) (hheads : ∀ S, ((e.request.serve e.pre).2).head S = e.pre.head S)
      (hrows : ∀ s ∈ ((e.request.serve e.pre).2).snapshots, s ∈ e.pre.snapshots) (hreply : ∀ err, e.reply ≠ .error err)
      (hsequence : ((e.request.serve e.pre).2).sequence = e.pre.sequence)
  | wrote (req : AppendRequest) (hop : e.request.op = .appendSnapshot req) (hchecked : Checked e.pre req) (hchanged : ¬req.Unchanged e.pre)
      (hrow : written e = some (req.row e.pre e.request.now)) (hpost : (e.request.serve e.pre).2 = e.pre.appended req e.request.now)
      (hreply : ∀ err, e.reply ≠ .error err)

theorem outcome_serve {db : Tables} (hs : Sound db) (c : BackupCall) : Outcome ⟨c, db, (c.serve db).1⟩ := by
  rcases c.serve_cases db with ⟨err, heq⟩ | ⟨reply, db', heq, hdoes⟩
  · refine .failed err (congrArg Prod.fst heq) (congrArg Prod.snd heq) ?_
    show written ⟨c, db, (c.serve db).1⟩ = none
    rw [heq]
    obtain ⟨op, now, faults⟩ := c
    cases op <;> rfl
  · have hpost : (c.serve db).2 = db' := congrArg Prod.snd heq
    have hreply : (c.serve db).1 = .ok reply := congrArg Prod.fst heq
    have hok : ∀ err, (c.serve db).1 ≠ .error err := by
      rw [hreply]
      exact fun err hcontra => nomatch hcontra
    obtain ⟨op, now, faults⟩ := c
    cases op with
    | putBlob hash content =>
      obtain ⟨rfl, _, rfl⟩ := hdoes
      refine .kept ?_ (fun S => ?_) (fun s hmem => ?_) hok ?_
      · rfl
      · exact (congrArg (·.head S) hpost).trans head_put
      · have hsnapshots : (db.put now hash content).snapshots = db.snapshots := by
          unfold Tables.put
          split <;> rfl
        exact hsnapshots ▸ (congrArg Tables.snapshots hpost) ▸ hmem
      · refine (congrArg Tables.sequence hpost).trans ?_
        show (db.put now hash content).sequence = db.sequence
        unfold Tables.put
        split <;> rfl
    | appendSnapshot req =>
      obtain ⟨hchecked, hdone⟩ := hdoes
      split at hdone
      · rename_i hunchanged
        obtain ⟨rfl, rfl⟩ := hdone
        refine .kept ?_ (fun S => congrArg (·.head S) hpost) (fun s hmem => (congrArg Tables.snapshots hpost) ▸ hmem) hok
          (congrArg Tables.sequence hpost)
        show written ⟨⟨.appendSnapshot req, now, faults⟩, db', (BackupCall.serve ⟨.appendSnapshot req, now, faults⟩ db').1⟩ = none
        rw [hreply]
        rfl
      · rename_i hchanged
        obtain ⟨rfl, rfl⟩ := hdone
        refine .wrote req rfl hchecked hchanged ?_ hpost hok
        show written ⟨⟨.appendSnapshot req, now, faults⟩, db, (BackupCall.serve ⟨.appendSnapshot req, now, faults⟩ db).1⟩ = _
        rw [hreply]
        rfl
    | gc =>
      obtain ⟨rfl, rfl⟩ := hdoes
      refine .kept ?_ (fun S => (congrArg (·.head S) hpost).trans (head_collected hs)) (fun s hmem => ?_) hok ?_
      · rfl
      · have hmem' : s ∈ ((db.prunedAll now).swept now).snapshots := (congrArg Tables.snapshots hpost) ▸ hmem
        exact trims_prunedAll.snapshots.subset hmem'
      · exact (congrArg Tables.sequence hpost).trans trims_prunedAll.sequence

/-! ## The main line -/

/-- A step leaves the head of every store in place, and one that fails leaves everything. -/
structure StepKeeps (e : BackupStep) : Prop where
  heads : ∀ S h, e.pre.head S = some h → h ∈ ((e.request.serve e.pre).2).snapshots
  failed : ∀ err, e.reply = .error err → (e.request.serve e.pre).2 = e.pre

/-- A row is no fork just where its parent is what was the head of its store when it was written. -/
def MarksForks (e : BackupStep) : Prop :=
  ∀ row ∈ written e, (row.isFork = false ↔ row.parentID = (e.pre.head row.storeID).map (·.id)) ∧
    ((e.request.serve e.pre).2).head row.storeID = some row

/-- The history of every store, as the steps wrote it, newest first. -/
structure MainLine (db : Tables) (t : List BackupStep) : Prop where
  stored : ∀ s ∈ db.snapshots, s ∈ t.filterMap written
  increasing : (t.filterMap written).Pairwise fun newer older => older.id < newer.id
  forks : ∀ e ∈ t, MarksForks e
  unshared : (t.filterMap written).Pairwise fun a b => a.storeID = b.storeID → a.isFork = false → b.isFork = false → a.parentID ≠ b.parentID
  steps : ∀ e ∈ t, StepKeeps e

/-- The rows that were written so far lie below the heads. -/
structure Below (db : Tables) (rows : List Snapshot) : Prop where
  given : ∀ row ∈ rows, row.id ≤ db.sequence
  heads : ∀ row ∈ rows, ∃ h, db.head row.storeID = some h ∧ row.id ≤ h.id
  parents : ∀ row ∈ rows, row.isFork = false → ∀ p ∈ row.parentID, p < row.id

section MainLine

variable {db : Tables} {t : List BackupStep} {now : Int}

theorem isFork_row {req : AppendRequest} (hs : Sound db) (hchecked : Checked db req) :
    (req.row db now).isFork = false ↔ req.parentID = (db.head req.storeID).map (·.id) := by
  show decide (req.parentID.getD 0 ≠ db.headID req.storeID) = false ↔ _
  rw [decide_eq_false_iff_not, not_not, Tables.headID]
  have hpositive : ∀ p ∈ req.parentID, 0 < p := fun p hp =>
    have ⟨s, hmem, hid, _⟩ := hchecked.parent p hp
    hid ▸ (hs.given s hmem).1
  have hhead : ∀ h, db.head req.storeID = some h → 0 < h.id := fun h hhead => (hs.given h (hs.head_eq_some.1 hhead).1).1
  cases hparent : req.parentID with
  | none =>
    cases hstore : db.head req.storeID with
    | none => simp
    | some h =>
      have := hhead h hstore
      simp only [Option.getD_none, Option.map_some, Option.getD_some]
      exact ⟨fun heq => by omega, nofun⟩
  | some p =>
    have hp := hpositive p hparent
    cases hstore : db.head req.storeID with
    | none =>
      simp only [Option.getD_some, Option.map_none, Option.getD_none]
      exact ⟨fun heq => by omega, nofun⟩
    | some h => simp

theorem Below.kept {db' : Tables} {rows : List Snapshot} (h : Below db rows) (hheads : ∀ S, db'.head S = db.head S)
    (hsequence : db'.sequence = db.sequence) : Below db' rows where
  given row hrow := hsequence ▸ h.given row hrow
  heads row hrow := hheads row.storeID ▸ h.heads row hrow
  parents := h.parents

theorem Below.appended {req : AppendRequest} {rows : List Snapshot} (h : Below db rows) (hs : Sound db) (hchecked : Checked db req) :
    Below (db.appended req now) (req.row db now :: rows) where
  given row hrow := by
    show row.id ≤ db.sequence + 1
    rcases List.mem_cons.1 hrow with rfl | hrow
    · exact le_refl _
    · exact (h.given row hrow).trans (Int.le_add_one (le_refl _))
  heads row hrow := by
    rw [head_appended hs hchecked]
    rcases List.mem_cons.1 hrow with rfl | hrow
    · exact ⟨_, if_pos rfl, le_refl _⟩
    · by_cases hown : row.storeID = req.storeID
      · exact ⟨_, if_pos hown, (h.given row hrow).trans (Int.le_add_one (le_refl _))⟩
      · rw [if_neg hown]
        exact h.heads row hrow
  parents row hrow hfork p hp := by
    rcases List.mem_cons.1 hrow with rfl | hrow
    · obtain ⟨s, hmem, hid, _⟩ := hchecked.parent p hp
      exact hid ▸ Int.lt_add_one_of_le (hs.given s hmem).2
    · exact h.parents row hrow hfork p hp

/-- The parent of a new row of the main line is no parent of one before it. -/
theorem Below.fresh_parent {req : AppendRequest} {rows : List Snapshot} (h : Below db rows) (hs : Sound db) (hchecked : Checked db req)
    (hmain : (req.row db now).isFork = false) {row : Snapshot} (hrow : row ∈ rows) (hstore : req.storeID = row.storeID)
    (hfork : row.isFork = false) : req.parentID ≠ row.parentID := by
  intro hsame
  obtain ⟨head, hhead, hle⟩ := h.heads row hrow
  rw [← hstore] at hhead
  have hparent : req.parentID = some head.id := by
    rw [(isFork_row hs hchecked).1 hmain, hhead]
    rfl
  have hlt := h.parents row hrow hfork head.id (hsame ▸ hparent)
  omega

theorem stepKeeps_of_outcome {e : BackupStep} (hs : Sound e.pre) (hsound : Sound (e.request.serve e.pre).2) (h : Outcome e) :
    StepKeeps e := by
  cases h with
  | failed err _ hpost _ =>
    refine ⟨fun S h hhead => ?_, fun _ _ => hpost⟩
    rw [hpost]
    exact (hs.head_eq_some.1 hhead).1
  | kept _ hheads _ hreply _ =>
    refine ⟨fun S h hhead => ?_, fun err herr => absurd herr (hreply err)⟩
    exact (hsound.head_eq_some.1 ((hheads S).trans hhead)).1
  | wrote req _ hchecked _ _ hpost hreply =>
    refine ⟨fun S h hhead => ?_, fun err herr => absurd herr (hreply err)⟩
    rw [hpost]
    exact mem_appended_head hs hchecked hhead

theorem MainLine.init (hempty : NoBackups db) : MainLine db [] where
  stored s hs := by
    rw [hempty] at hs
    exact absurd hs List.not_mem_nil
  increasing := List.Pairwise.nil
  forks e he := absurd he List.not_mem_nil
  unshared := List.Pairwise.nil
  steps e he := absurd he List.not_mem_nil

/-- A call that writes no row leaves the history as it is. -/
theorem MainLine.quiet {e : BackupStep} (h : MainLine db t) (hnone : written e = none) (hkeeps : StepKeeps e)
    (hrows : ∀ s ∈ (e.request.serve e.pre).2.snapshots, s ∈ db.snapshots) : MainLine (e.request.serve e.pre).2 (e :: t) := by
  have hwritten : (e :: t).filterMap written = t.filterMap written := List.filterMap_cons_none hnone
  refine ⟨fun s hs => ?_, ?_, List.forall_mem_cons.2 ⟨fun row hrow => ?_, h.forks⟩, ?_, List.forall_mem_cons.2 ⟨hkeeps, h.steps⟩⟩
  · rw [hwritten]
    exact h.stored s (hrows s hs)
  · rw [hwritten]
    exact h.increasing
  · rw [hnone] at hrow
    cases hrow
  · rw [hwritten]
    exact h.unshared

/-- A row that is written continues the main line of its store, or forks off it. -/
theorem MainLine.wrote {c : BackupCall} {req : AppendRequest} {reply : Except BackupError BackupReply} (h : MainLine db t)
    (hbelow : Below db (t.filterMap written)) (hs : Sound db) (hchecked : Checked db req)
    (hrow : written ⟨c, db, reply⟩ = some (req.row db c.now)) (hpost : (c.serve db).2 = db.appended req c.now)
    (hkeeps : StepKeeps ⟨c, db, reply⟩) : MainLine (c.serve db).2 (⟨c, db, reply⟩ :: t) := by
  have hwritten : (⟨c, db, reply⟩ :: t : List BackupStep).filterMap written = req.row db c.now :: t.filterMap written :=
    List.filterMap_cons_some hrow
  refine ⟨fun s hsmem => ?_, ?_, List.forall_mem_cons.2 ⟨fun row hmem => ?_, h.forks⟩, ?_, List.forall_mem_cons.2 ⟨hkeeps, h.steps⟩⟩
  · rw [hwritten]
    rw [hpost] at hsmem
    rcases List.mem_append.1 (List.mem_of_mem_filter hsmem) with hsmem | hsmem
    · exact List.mem_cons_of_mem _ (h.stored s hsmem)
    · exact List.mem_singleton.1 hsmem ▸ List.mem_cons_self
  · rw [hwritten]
    exact List.pairwise_cons.2 ⟨fun row hmem => Int.lt_add_one_of_le (hbelow.given row hmem), h.increasing⟩
  · obtain rfl := Option.some.inj (hrow.symm.trans hmem)
    refine ⟨isFork_row hs hchecked, ?_⟩
    show ((c.serve db).2).head req.storeID = _
    rw [hpost, head_appended hs hchecked, if_pos rfl]
  · rw [hwritten]
    refine List.pairwise_cons.2 ⟨fun row hmem hstore hmain hfork => ?_, h.unshared⟩
    exact hbelow.fresh_parent hs hchecked hmain hmem hstore hfork

theorem mainLine_below {t : List BackupStep} (h : BackupRuns db t) : MainLine db t ∧ Below db (t.filterMap written) := by
  induction h with
  | init hempty => exact ⟨.init hempty, fun _ hrow => absurd hrow List.not_mem_nil, fun _ hrow => absurd hrow List.not_mem_nil,
      fun _ hrow => absurd hrow List.not_mem_nil⟩
  | @step db t c hrun _ ih =>
    have hs := sound_of_runs hrun
    have hout := outcome_serve hs c
    have hkeeps : StepKeeps ⟨c, db, (c.serve db).1⟩ := stepKeeps_of_outcome hs (hs.serve c) hout
    obtain ⟨hline, hbelow⟩ := ih
    cases hout with
    | failed err _ hpost hnone =>
      refine ⟨hline.quiet hnone hkeeps fun s hmem => (congrArg Tables.snapshots hpost) ▸ hmem, ?_⟩
      rw [List.filterMap_cons_none hnone]
      exact hbelow.kept (fun S => congrArg (·.head S) hpost) (congrArg Tables.sequence hpost)
    | kept hnone hheads hrows _ hsequence =>
      refine ⟨hline.quiet hnone hkeeps hrows, ?_⟩
      rw [List.filterMap_cons_none hnone]
      exact hbelow.kept hheads hsequence
    | wrote req _ hchecked _ hrow hpost _ =>
      refine ⟨hline.wrote hbelow hs hchecked hrow hpost hkeeps, ?_⟩
      rw [List.filterMap_cons_some hrow]
      exact hpost ▸ hbelow.appended hs hchecked

end MainLine

/-! ## Content that is there already -/

/-- The content of the request is that of the head of its store. -/
def AppendRequest.SameContent (req : AppendRequest) (db : Tables) : Prop :=
  ∃ head ∈ db.head req.storeID, unmarshal head.manifest = some (req.manifest.getD [])

/-- An append of what is at the head already writes nothing and returns the head. -/
def ReturnsHead (e : BackupStep) (req : AppendRequest) (r : AppendResult) : Prop :=
  req.SameContent e.pre → r.written = false ∧ r.snapshotID = e.pre.headID req.storeID ∧ (e.request.serve e.pre).2 = e.pre

/-- Not one manifest that is absent or `null` and one that is an empty array. -/
def SameForm (req : AppendRequest) (db : Tables) : Prop :=
  ∀ head ∈ db.head req.storeID, ¬(req.manifest = none ∧ head.manifest = .array []) ∧ ¬(req.manifest = some [] ∧ head.manifest = .null)

section SameContent

variable {db : Tables} {req : AppendRequest}

theorem unchanged_iff (hs : Sound db) : req.Unchanged db ↔ ∃ head ∈ db.head req.storeID, marshal req.manifest = head.manifest := by
  unfold AppendRequest.Unchanged
  rw [headID_ne_zero hs, Tables.headManifest]
  cases db.head req.storeID <;> simp

/-- The same entries are the same text but for the two ways to write none. -/
theorem marshal_eq_iff {manifest : Option (List ManifestEntry)} {text : ManifestText} (h : unmarshal text = some (manifest.getD [])) :
    marshal manifest = text ↔ ¬(manifest = none ∧ text = .array []) ∧ ¬(manifest = some [] ∧ text = .null) := by
  cases text with
  | null =>
    cases manifest with
    | none => simp [marshal]
    | some entries =>
      obtain rfl : [] = entries := Option.some.inj h
      simp [marshal]
  | array stored =>
    cases manifest with
    | none =>
      obtain rfl : stored = [] := Option.some.inj h
      simp [marshal]
    | some entries =>
      obtain rfl : stored = entries := Option.some.inj h
      simp [marshal]
  | unreadable text => cases h

theorem sameContent_of_not_sameForm (h : ¬SameForm req db) : req.SameContent db := by
  by_contra hdiffers
  refine h fun head hhead => ⟨fun ⟨hreq, htext⟩ => hdiffers ⟨head, hhead, ?_⟩, fun ⟨hreq, htext⟩ => hdiffers ⟨head, hhead, ?_⟩⟩
  · rw [hreq, htext]
    rfl
  · rw [hreq, htext]
    rfl

/-- Content that is at the head is found there just when it is written in the same way. -/
theorem unchanged_iff_sameForm (hs : Sound db) (hsame : req.SameContent db) : req.Unchanged db ↔ SameForm req db := by
  obtain ⟨head, hhead, hread⟩ := hsame
  rw [unchanged_iff hs]
  constructor
  · rintro ⟨head', hhead', htext⟩ other hother
    obtain rfl := Option.some.inj (hhead.symm.trans hhead')
    obtain rfl := Option.some.inj (hhead.symm.trans hother)
    exact (marshal_eq_iff hread).1 htext
  · exact fun hform => ⟨head, hhead, (marshal_eq_iff hread).2 (hform head hhead)⟩

theorem returnsHead_iff {e : BackupStep} {r : AppendResult} (hs : Sound e.pre) (hop : e.request.op = .appendSnapshot req)
    (hserved : (e.request.serve e.pre).1 = .ok (.appended r)) : ReturnsHead e req r ↔ SameForm req e.pre := by
  have hdone : if req.Unchanged e.pre
      then r = ⟨req.storeID, e.pre.headID req.storeID, e.pre.headID req.storeID, false, "", "", 0, false⟩ ∧
        (e.request.serve e.pre).2 = e.pre
      else r.written = true := by
    rcases e.request.serve_cases e.pre with ⟨err, heq⟩ | ⟨reply, db', heq, hdoes⟩
    · rw [heq] at hserved
      cases hserved
    · rw [heq] at hserved
      obtain rfl := Except.ok.inj hserved
      unfold BackupCall.Does at hdoes
      rw [hop] at hdoes
      obtain ⟨_, hdone⟩ := hdoes
      by_cases hunchanged : req.Unchanged e.pre
      · rw [if_pos hunchanged] at hdone ⊢
        rw [heq]
        exact ⟨BackupReply.appended.inj hdone.1, hdone.2⟩
      · rw [if_neg hunchanged] at hdone ⊢
        rw [BackupReply.appended.inj hdone.1]
  by_cases hsame : req.SameContent e.pre
  · rw [← unchanged_iff_sameForm hs hsame]
    by_cases hunchanged : req.Unchanged e.pre
    · rw [if_pos hunchanged] at hdone
      refine iff_of_true (fun _ => ⟨?_, ?_, hdone.2⟩) hunchanged
      · rw [hdone.1]
      · rw [hdone.1]
    · rw [if_neg hunchanged] at hdone
      refine iff_of_false (fun hreturns => ?_) hunchanged
      rw [(hreturns hsame).1] at hdone
      cases hdone
  · exact iff_of_true (fun hcontra => absurd hcontra hsame) (not_not.1 fun hform => hsame (sameContent_of_not_sameForm hform))

end SameContent

/-- Over every run the stores have one main line each, and an append of the head's content returns the head just
where both are written in the same way. -/
theorem mainLine_runs {db : Tables} {t : List BackupStep} (h : BackupRuns db t) : MainLine db t ∧
    ∀ e ∈ t, ∀ req r, e.request.op = .appendSnapshot req → e.reply = .ok (.appended r) →
      (ReturnsHead e req r ↔ SameForm req e.pre) := by
  refine ⟨(mainLine_below h).1, ?_⟩
  induction h with
  | init _ => exact fun e he => absurd he List.not_mem_nil
  | step hrun _ ih =>
    exact List.forall_mem_cons.2 ⟨fun req r hop hreply => returnsHead_iff (sound_of_runs hrun) hop hreply, ih⟩

/-- A backup of an empty tree without a manifest, and one with an empty manifest. -/
def emptyTwice : List BackupCall :=
  [backup (.appendSnapshot ⟨"a", "mac", none, "auto", none⟩) 0, backup (.appendSnapshot ⟨"a", "mac", some 1, "auto", some []⟩) 1]

/-- The second backup is of what the first one stored, and it is a row of its own. -/
theorem not_returnsHead_emptyTwice : ¬∀ db t, BackupRuns db t → MainLine db t ∧
    ∀ e ∈ t, ∀ req r, e.request.op = .appendSnapshot req → e.reply = .ok (.appended r) → ReturnsHead e req r := by
  intro hall
  have hrun : BackupRuns (serveAll BackupCall.serve emptyTwice noBackups []).1 (serveAll BackupCall.serve emptyTwice noBackups []).2 :=
    Serves.all (.init rfl) (allOk_true _ emptyTwice _)
  have hreturns := (hall _ _ hrun).2 _ List.mem_cons_self _ ⟨"a", 2, 2, false, "mac", "auto", 1, true⟩ rfl (by decide)
  have hsame : AppendRequest.SameContent ⟨"a", "mac", some 1, "auto", some []⟩
      ((backup (.appendSnapshot ⟨"a", "mac", none, "auto", none⟩) 0).serve noBackups).2 :=
    ⟨⟨1, "a", "mac", none, false, "auto", 0, .null⟩, by decide, rfl⟩
  exact absurd (hreturns hsame).1 (by decide)

theorem mainLine_runs_emptyTwice : MainLine (serveAll BackupCall.serve emptyTwice noBackups []).1 (serveAll BackupCall.serve emptyTwice noBackups []).2 ∧
    ∀ e ∈ (serveAll BackupCall.serve emptyTwice noBackups []).2, ∀ req r, e.request.op = .appendSnapshot req →
      e.reply = .ok (.appended r) → (ReturnsHead e req r ↔ SameForm req e.pre) :=
  mainLine_runs (Serves.all (.init rfl) (allOk_true _ emptyTwice _))

end Purdex.Backup
