/-
What a collection keeps of a store: the least set of its snapshots with the latest, the recent, and the parent of each one in it.
-/
import Purdex.Backup.Grace
import Purdex.Backup.History
import Mathlib

namespace Purdex.Backup

open Conc

/-! ## What is to be kept -/

/-- One of the latest hundred. -/
def Latest (snaps : List Snapshot) (s : Snapshot) : Prop := (snaps.filter (s.id < ·.id)).length < maxSnapshots

/-- No older than ninety days. -/
def Young (now : Int) (s : Snapshot) : Prop := now - s.createdAt ≤ maxAgeDays * 86400

/-- The latest, the recent, and the parents that are there. -/
structure Retains (now : Int) (snaps : List Snapshot) (S : Set Snapshot) : Prop where
  latest : ∀ s ∈ snaps, Latest snaps s → s ∈ S
  recent : ∀ s ∈ snaps, Young now s → s ∈ S
  parents : ∀ s ∈ S, ∀ parent ∈ snaps, s.parentID = some parent.id → parent ∈ S

/-- A clock reading, in seconds. -/
def Reads (now : Int) : Prop := 0 ≤ now ∧ now < 2 ^ 63

/-! ## The walk -/

section Walk

variable {now : Int} {snaps : List Snapshot} {s parent : Snapshot}

/-- The walk has stopped by itself where it has a turn for every row and one more. -/
theorem climb_enough : ∀ {fuel : Nat} {keep : List Int} {p : Int}, ((snaps.map (·.id)).filter (· ∉ keep)).length < fuel →
    climb snaps (fuel + 1) keep p = climb snaps fuel keep p
  | 0, _, _, h => absurd h (Nat.not_lt_zero _)
  | fuel + 1, keep, p, h => by
    have hturn : ∀ n, climb snaps (n + 1) keep p = if p = 0 ∨ p ∈ keep then keep else climb snaps n (p :: keep) (parentOf snaps p) :=
      fun _ => rfl
    rw [hturn, hturn]
    split
    · rfl
    rename_i hgo
    obtain ⟨-, hkeep⟩ := not_or.1 hgo
    by_cases hrow : p ∈ snaps.map (·.id)
    · exact climb_enough (Nat.lt_of_lt_of_le (unkept_lt hrow hkeep) (Nat.le_of_lt_succ h))
    · have hstop : ∀ n, climb snaps n (p :: keep) 0 = p :: keep := fun n => by
        cases n with
        | zero => rfl
        | succ n => rw [climb, if_pos (.inl rfl)]
      rw [parentOf_of_absent hrow, hstop, hstop]

theorem climb_of_le {fuel : Nat} (h : snaps.length + 1 ≤ fuel) (keep : List Int) (p : Int) :
    climb snaps fuel keep p = climb snaps (snaps.length + 1) keep p := by
  induction fuel, h using Nat.le_induction with
  | base => rfl
  | succ n hn ih =>
    rw [← ih]
    refine climb_enough (Nat.lt_of_le_of_lt (List.length_filter_le _ _) ?_)
    rw [List.length_map]
    exact hn

/-- What holds of the ids that are kept, and of the parent of an id it holds of, holds of all that is kept then. -/
theorem climb_within {P : Int → Prop} (hP : ∀ q, P q → parentOf snaps q ≠ 0 → P (parentOf snaps q)) :
    ∀ (fuel : Nat) {keep : List Int} {p : Int}, (∀ q ∈ keep, P q) → (p ≠ 0 → P p) → ∀ q ∈ climb snaps fuel keep p, P q
  | 0, _, _, hkeep, _ => hkeep
  | fuel + 1, keep, p, hkeep, hp => by
    rw [climb]
    split
    · exact hkeep
    · rename_i hgo
      have hhere := hp (not_or.1 hgo).1
      exact climb_within hP fuel (List.forall_mem_cons.2 ⟨hhere, hkeep⟩) (hP p hhere)

theorem keepFold_within {P : Int → Prop} (hP : ∀ q, P q → parentOf snaps q ≠ 0 → P (parentOf snaps q)) (rest : List Snapshot)
    {keep : List Int} (hkeep : ∀ q ∈ keep, P q) : ∀ q ∈ rest.foldl (fun keep sn =>
      if sn.id ∈ keep then climb snaps (snaps.length + 1) keep (parentOf snaps sn.id) else keep) keep, P q := by
  induction rest generalizing keep with
  | nil => exact hkeep
  | cons sn rest ih =>
    rw [List.foldl_cons]
    split
    · rename_i hsn
      exact ih (climb_within hP _ hkeep (hP _ (hkeep _ hsn)))
    · exact ih hkeep

/-- Of a descending list, a member of the first `n` has fewer than `n` above it. -/
theorem few_of_mem_take {a : Int} : ∀ {l : List Int} {n : Nat}, l.Pairwise (· ≥ ·) → a ∈ l.take n → (l.filter (a < ·)).length < n
  | _, 0, _, h => by
    rw [List.take_zero] at h
    cases h
  | m :: rest, n + 1, hsorted, h => by
    obtain ⟨hge, hsorted⟩ := List.pairwise_cons.1 hsorted
    rw [List.take_succ_cons] at h
    rcases List.mem_cons.1 h with rfl | h
    · have hnone : (a :: rest).filter (a < ·) = [] := by
        rw [List.filter_eq_nil_iff]
        intro b hb
        rw [decide_eq_true_iff, not_lt]
        rcases List.mem_cons.1 hb with rfl | hb
        · exact le_refl _
        · exact hge b hb
      rw [hnone]
      exact Nat.succ_pos n
    · have hrest := few_of_mem_take hsorted h
      rw [List.filter_cons]
      split
      · exact Nat.succ_lt_succ hrest
      · exact hrest.trans (Nat.lt_succ_self n)
  | [], _ + 1, _, h => by
    rw [List.take_nil] at h
    cases h

/-! ## What is kept -/

theorem threshold_of_reads (hnow : Reads now) : int64 (now - maxAgeDays * 86400) = now - maxAgeDays * 86400 := by
  obtain ⟨hlow, hhigh⟩ := hnow
  have hdays : maxAgeDays * 86400 = 7776000 := rfl
  rw [int64, hdays]
  apply Int.bmod_eq_of_le <;> omega

theorem parentOf_eq (hids : (snaps.map (·.id)).Nodup) (hs : s ∈ snaps) : parentOf snaps s.id = s.parentID.getD 0 := by
  have hfind : snaps.find? (·.id = s.id) = some s := by
    have hsome : (snaps.find? (·.id = s.id)).isSome := List.find?_isSome.2 ⟨s, hs, by simp⟩
    obtain ⟨other, hother⟩ := Option.isSome_iff_exists.1 hsome
    have hid : other.id = s.id := by simpa using List.find?_some hother
    rw [hother, List.inj_on_of_nodup_map hids (List.mem_of_find?_eq_some hother) hs hid]
  rw [parentOf, hfind]
  rfl

theorem latest_iff (hs : s ∈ snaps) : Latest snaps s ↔ s.id ∈ ((snaps.map (·.id)).insertionSort (· ≥ ·)).take maxSnapshots := by
  have hcount : (((snaps.map (·.id)).insertionSort (· ≥ ·)).filter (s.id < ·)).length = (snaps.filter (s.id < ·.id)).length := by
    rw [((List.perm_insertionSort _ _).filter _).length_eq, List.filter_map, List.length_map]
    rfl
  rw [Latest, ← hcount]
  constructor
  · exact mem_take_of_few (List.pairwise_insertionSort _ _) ((List.perm_insertionSort _ _).mem_iff.2 (List.mem_map_of_mem hs))
  · exact few_of_mem_take (List.pairwise_insertionSort _ _)

/-- The snapshots whose ids are kept. -/
def kept (now : Int) (snaps : List Snapshot) : Set Snapshot := {s | s ∈ snaps ∧ s.id ∈ keepSet now snaps}

theorem retains_kept (hids : (snaps.map (·.id)).Nodup) (hpos : ∀ s ∈ snaps, 0 < s.id) (hnow : Reads now) : Retains now snaps (kept now snaps) where
  latest s hs hlatest := ⟨hs, subset_keepFold _ _ (List.mem_append_right _ ((latest_iff hs).1 hlatest))⟩
  recent s hs hrecent := by
    refine ⟨hs, subset_keepFold _ _ (List.mem_append_left _ (List.mem_map_of_mem (List.mem_filter.2 ⟨hs, ?_⟩)))⟩
    rw [threshold_of_reads hnow, decide_eq_true_iff]
    unfold Young at hrecent
    omega
  parents s hs parent hparent hlink := by
    refine ⟨hparent, ?_⟩
    have hclosed := closed_keepSet hs.2
    rw [Closed, parentOf_eq hids hs.1, hlink, Option.getD_some] at hclosed
    exact hclosed.resolve_left (ne_of_gt (hpos parent hparent))

/-- And nothing is kept but what has to be. -/
theorem kept_subset (hids : (snaps.map (·.id)).Nodup) (hnow : Reads now) {S : Set Snapshot} (hS : Retains now snaps S) : kept now snaps ⊆ S := by
  have hwithin : ∀ q ∈ keepSet now snaps, ∀ s ∈ snaps, s.id = q → s ∈ S := by
    refine keepFold_within ?_ snaps ?_
    · intro q hq hne parent hparent hid
      by_cases hrow : q ∈ snaps.map (·.id)
      · obtain ⟨s, hs, rfl⟩ := List.mem_map.1 hrow
        rw [parentOf_eq hids hs] at hne hid
        cases hlink : s.parentID with
        | none =>
          rw [hlink] at hne
          exact absurd rfl hne
        | some p =>
          rw [hlink, Option.getD_some] at hid
          exact hS.parents s (hq s hs rfl) parent hparent (hlink.trans (congrArg some hid.symm))
      · exact absurd (parentOf_of_absent hrow) hne
    · intro q hq s hs hid
      subst hid
      rcases List.mem_append.1 hq with haged | hlatest
      · obtain ⟨other, hother, hsame⟩ := List.mem_map.1 haged
        obtain ⟨hmem, hage⟩ := List.mem_filter.1 hother
        obtain rfl := List.inj_on_of_nodup_map hids hmem hs hsame
        rw [threshold_of_reads hnow, decide_eq_true_iff] at hage
        refine hS.recent other hs ?_
        unfold Young
        omega
      · exact hS.latest s hs ((latest_iff hs).2 hlatest)
  exact fun s hs => hwithin s.id hs.2 s hs.1 rfl

theorem isLeast_kept (hids : (snaps.map (·.id)).Nodup) (hpos : ∀ s ∈ snaps, 0 < s.id) (hnow : Reads now) :
    IsLeast {S | Retains now snaps S} (kept now snaps) :=
  ⟨retains_kept hids hpos hnow, fun _ hS => kept_subset hids hnow hS⟩

/-- Of what is kept nothing is surplus. -/
theorem kept_again {snaps' : List Snapshot} (hsub : snaps'.Sublist snaps) (hmem : ∀ s, s ∈ snaps' ↔ s ∈ kept now snaps)
    (hids : (snaps.map (·.id)).Nodup) (hpos : ∀ s ∈ snaps, 0 < s.id) (hnow : Reads now) (hs : s ∈ snaps') : s.id ∈ keepSet now snaps' := by
  have hkept := retains_kept hids hpos hnow
  have hagain := retains_kept (hids.sublist (hsub.map _)) (fun s hs => hpos s (hsub.subset hs)) hnow
  -- what has to be kept of what was kept had to be kept of all
  have hretains : Retains now snaps (kept now snaps' ∩ kept now snaps) := by
    refine ⟨fun s hs hlatest => ?_, fun s hs hrecent => ?_, fun s hs parent hparent hlink => ?_⟩
    · have hin := hkept.latest s hs hlatest
      refine ⟨hagain.latest s ((hmem s).2 hin) ?_, hin⟩
      exact Nat.lt_of_le_of_lt ((hsub.filter _).length_le) hlatest
    · have hin := hkept.recent s hs hrecent
      exact ⟨hagain.recent s ((hmem s).2 hin) hrecent, hin⟩
    · have hin := hkept.parents s hs.2 parent hparent hlink
      exact ⟨hagain.parents s hs.1 parent ((hmem parent).2 hin) hlink, hin⟩
  exact (kept_subset hids hnow hretains ((hmem s).1 hs)).1.2

end Walk

/-! ## A collection of the snapshots of a store -/

/-- The store has the least of its snapshots that is retained, the other stores have all of theirs, and a second collection takes none. -/
structure Retention (storeID : String) (now : Int) (db db' : Tables) : Prop where
  least : IsLeast {S | Retains now (db.ofStore storeID) S} {s | s ∈ db'.ofStore storeID}
  rest : db' = { db with snapshots := db'.snapshots } ∧ db'.snapshots.Sublist db.snapshots ∧
    ∀ s ∈ db.snapshots, s.storeID ≠ storeID → s ∈ db'.snapshots
  parents : ∀ s ∈ db'.ofStore storeID, ∀ parent ∈ db.ofStore storeID, s.parentID = some parent.id → parent ∈ db'.ofStore storeID
  heads : ∀ S, db'.head S = db.head S
  again : (gcSnapshots storeID now).run db' = .ok ((), db')

section Collection

variable {storeID : String} {now : Int} {db : Tables} (hids : (db.snapshots.map (·.id)).Nodup) (hpos : ∀ s ∈ db.snapshots, 0 < s.id)
  (hnow : Reads now)

theorem run_gcSnapshots (db : Tables) : (gcSnapshots storeID now).run db = .ok ((), db.pruned storeID now) := by
  have hfails : (gcSnapshots storeID now).Fails db fun _ => False :=
    Tx.fails_bind (Tx.fails_query nofun) (Tx.returns_query fun _ _ => fails_deleteSnapshots)
  cases hrun : gcSnapshots storeID now (fun _ => none) 0 db with
  | error e =>
    rcases hfails _ _ e hrun with ⟨k, hfault⟩ | hfalse
    · cases hfault
    · exact absurd hfalse id
  | ok r =>
    obtain ⟨u, n, db'⟩ := r
    rw [Tx.run, hrun, returns_gcSnapshots _ _ _ _ _ hrun]
    rfl

include hids in
theorem ids_ofStore : ((db.ofStore storeID).map (·.id)).Nodup := hids.sublist (List.filter_sublist.map _)

theorem mem_pruned {s : Snapshot} : s ∈ (db.pruned storeID now).ofStore storeID ↔ s ∈ kept now (db.ofStore storeID) := by
  have hrow : s ∈ db.ofStore storeID ↔ s ∈ db.snapshots ∧ s.storeID = storeID := by simp [Tables.ofStore]
  have hsurplus : s ∈ db.ofStore storeID → (s.id ∈ surplus now (db.ofStore storeID) ↔ s.id ∉ keepSet now (db.ofStore storeID)) := fun hs => by
    constructor
    · intro h
      obtain ⟨other, hother, hid⟩ := List.mem_map.1 h
      have hdropped := of_decide_eq_true (List.mem_filter.1 hother).2
      rwa [hid] at hdropped
    · exact fun h => List.mem_map_of_mem (List.mem_filter.2 ⟨hs, decide_eq_true h⟩)
  constructor
  · intro h
    obtain ⟨hpruned, hstore⟩ := List.mem_filter.1 h
    obtain ⟨hs, hkept⟩ := List.mem_filter.1 hpruned
    have hmem := hrow.2 ⟨hs, of_decide_eq_true hstore⟩
    exact ⟨hmem, not_not.1 fun hdropped => of_decide_eq_true hkept ((hsurplus hmem).2 hdropped)⟩
  · rintro ⟨hmem, hkept⟩
    obtain ⟨hs, hstore⟩ := hrow.1 hmem
    exact List.mem_filter.2 ⟨List.mem_filter.2 ⟨hs, decide_eq_true fun h => (hsurplus hmem).1 h hkept⟩, decide_eq_true hstore⟩

include hids hpos hnow in
theorem pruned_pruned : (db.pruned storeID now).pruned storeID now = db.pruned storeID now := by
  have hnone : surplus now ((db.pruned storeID now).ofStore storeID) = [] := by
    rw [surplus, List.map_eq_nil_iff, List.filter_eq_nil_iff]
    intro s hs
    have hkept : s.id ∈ keepSet now ((db.pruned storeID now).ofStore storeID) := kept_again (trims_pruned.snapshots.filter _) (fun s => mem_pruned) (ids_ofStore hids)
      (fun s hs => hpos s (List.mem_of_mem_filter hs)) hnow hs
    simp [hkept]
  rw [Tables.pruned, hnone]
  simp

include hids hpos hnow in
/-- Every collection of the snapshots of a store ends, and keeps what has to be kept of them. -/
theorem gcSnapshots_retains :
    (∀ fuel, (db.ofStore storeID).length + 1 ≤ fuel → ∀ keep p,
      climb (db.ofStore storeID) fuel keep p = climb (db.ofStore storeID) ((db.ofStore storeID).length + 1) keep p) ∧
    (∃ db', (gcSnapshots storeID now).run db = .ok ((), db') ∧ Retention storeID now db db') ∧
      (gcSnapshots storeID now).Returns db fun _ db' => Retention storeID now db db' := by
  have hset : {s | s ∈ (db.pruned storeID now).ofStore storeID} = kept now (db.ofStore storeID) := Set.ext fun s => mem_pruned
  have hleast : IsLeast {S | Retains now (db.ofStore storeID) S} (kept now (db.ofStore storeID)) :=
    isLeast_kept (ids_ofStore hids) (fun s hs => hpos s (List.mem_of_mem_filter hs)) hnow
  rw [← hset] at hleast
  have hretention : Retention storeID now db (db.pruned storeID now) := by
    refine ⟨hleast, ⟨rfl, trims_pruned.snapshots, fun s hs hne => mem_pruned_of_ne hids hs hne⟩, hleast.1.parents,
      fun S => head_pruned hids, ?_⟩
    rw [run_gcSnapshots, pruned_pruned hids hpos hnow]
  refine ⟨fun fuel hfuel => climb_of_le hfuel, ⟨_, run_gcSnapshots db, hretention⟩, returns_gcSnapshots.mono fun _ db' h => ?_⟩
  rw [h]
  exact hretention

end Collection

/-- Two old snapshots, one on the other. -/
def forked : Tables where
  blobs := []
  snapshots := [⟨1, "s", "d", none, false, "t", 1, .null⟩, ⟨2, "s", "d", some 1, false, "t", 2, .null⟩]
  sequence := 2

theorem forked_retained : ∃ db', (gcSnapshots "s" 4000000000).run forked = .ok ((), db') ∧ Retention "s" 4000000000 forked db' :=
  (gcSnapshots_retains (by decide) (by decide) ⟨by decide, by decide⟩).2.1

end Purdex.Backup
