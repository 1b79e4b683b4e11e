/-
The local store of snapshots over IndexedDB, which the tabs share: a snapshot is written, and then what the rows give to evict is
deleted, in transactions of their own. A row that enough others are ahead of is evicted by the call that made it.
-/
import Purdex.Conc.Stages
import Purdex.Sync.Compaction
import Mathlib.Data.String.Basic

namespace Purdex.Sync

/-! ## What a row is evicted for -/

/-- It comes before the other one in a sort: newer, or as new and listed first. -/
abbrev Ahead (m' m : SnapshotMetadata) : Prop := Keyset.Ahead SnapshotMetadata.timestamp SnapshotMetadata.id m' m

def isRegularPreOp (m : SnapshotMetadata) : Bool := isPreOp m ∧ m.isSessionPristine = false

/-- Nobody of its bucket is ahead of it. -/
def Leads (now : Nat) (rows : List SnapshotMetadata) (m : SnapshotMetadata) : Prop :=
  ∀ m' ∈ rows, isPreOp m' = false → SameBucket now m' m → ¬ Ahead m' m

/-- Five of its kind are ahead of it, or one of its bucket, or the first of twelve later months. -/
def Crowded (now : Nat) (rows : List SnapshotMetadata) (m : SnapshotMetadata) : Prop :=
  (isRegularPreOp m = true ∧ ∃ ahead : List SnapshotMetadata, ahead.Nodup ∧ ahead.length = preOpMax ∧
    ∀ m' ∈ ahead, m' ∈ rows ∧ isRegularPreOp m' = true ∧ Ahead m' m) ∨
  (isPreOp m = false ∧ ¬ Leads now rows m) ∨
  (isPreOp m = false ∧ tierOf now m = .monthly ∧ ∃ ahead : List SnapshotMetadata, ahead.Nodup ∧ ahead.length = monthlyMax ∧
    ∀ m' ∈ ahead, m' ∈ rows ∧ isPreOp m' = false ∧ tierOf now m' = .monthly ∧ Leads now rows m' ∧ m.timestamp < m'.timestamp)

section Crowding

variable {now : Nat} {rows l : List SnapshotMetadata} {m m' : SnapshotMetadata}

theorem ahead_asymm (h : Ahead m' m) (h' : Ahead m m') : False := by
  rcases h with h | ⟨heq, h⟩ <;> rcases h' with h' | ⟨heq', h'⟩
  · exact lt_asymm h h'
  · exact h.ne heq'.symm
  · exact h'.ne heq.symm
  · exact lt_asymm h h'

theorem ahead_of_head (h : l.Pairwise fun a b => a.id < b.id) (hhead : (newestFirst l).head? = some m') (hm : m ∈ l) : m = m' ∨ Ahead m' m := by
  obtain ⟨rest, hrest⟩ := List.head?_eq_some_iff.1 hhead
  have hsorted := Keyset.ahead_sort SnapshotMetadata.timestamp h
  rw [show Keyset.sort SnapshotMetadata.timestamp l = m' :: rest from hrest] at hsorted
  have hmem : m ∈ m' :: rest := hrest ▸ mem_newestFirst.2 hm
  exact (List.mem_cons.1 hmem).imp id ((List.pairwise_cons.1 hsorted).1 m)

theorem leads_of_head (hsorted : rows.Pairwise fun a b => a.id < b.id) (hhead : (newestFirst (bucketIn now (timeTier rows) m)).head? = some m) :
    Leads now rows m := by
  intro m' hm' htime hsame hahead
  have hmem : m' ∈ bucketIn now (timeTier rows) m := mem_bucketIn.2 ⟨mem_timeTier.2 ⟨hm', htime⟩, hsame⟩
  rcases ahead_of_head ((hsorted.filter _).filter _) hhead hmem with rfl | hbehind
  · exact ahead_asymm hahead hahead
  · exact ahead_asymm hahead hbehind

theorem isRegularPreOp_iff : isRegularPreOp m = true ↔ isPreOp m = true ∧ m.isSessionPristine = false := by
  rw [isRegularPreOp, decide_eq_true_eq]

/-- What is not crowded out is kept. -/
theorem kept_of_not_crowded (hsorted : rows.Pairwise fun a b => a.id < b.id) (hm : m ∈ rows) (h : ¬ Crowded now rows m) : m ∈ keptOf now rows := by
  have hnodup : rows.Nodup := hsorted.imp fun hlt => ne_of_apply_ne SnapshotMetadata.id hlt.ne
  cases hpre : isPreOp m with
  | true =>
    cases hflag : m.isSessionPristine with
    | true => exact mem_keptOf.2 (.inl (mem_pristinePreOp.2 ⟨hm, hpre, hflag⟩))
    | false =>
      have hreg : m ∈ regularPreOp rows := mem_regularPreOp.2 ⟨hm, hpre, hflag⟩
      rw [mem_kept_regular hreg]
      by_contra hnot
      have hdrop : m ∈ (newestFirst (regularPreOp rows)).drop preOpMax := by
        have hmem := mem_newestFirst.2 hreg
        rw [← List.take_append_drop preOpMax (newestFirst (regularPreOp rows))] at hmem
        exact (List.mem_append.1 hmem).resolve_left hnot
      obtain ⟨hlength, hahead⟩ := Keyset.ahead_of_drop ((hsorted.filter _).filter _) hdrop
      refine h (.inl ⟨isRegularPreOp_iff.2 ⟨hpre, hflag⟩, _, ?_, hlength, fun m' hm' => ?_⟩)
      · exact ((newestFirst_perm _).nodup_iff.2 ((hnodup.filter _).filter _)).sublist (List.take_sublist _ _)
      · obtain ⟨hin, hbefore⟩ := hahead m' hm'
        obtain ⟨hrow, hkind⟩ := mem_regularPreOp.1 hin
        exact ⟨hrow, isRegularPreOp_iff.2 hkind, hbefore⟩
  | false =>
    have htime : m ∈ timeTier rows := mem_timeTier.2 ⟨hm, hpre⟩
    have hhead : (newestFirst (bucketIn now (timeTier rows) m)).head? = some m := by
      obtain ⟨r, hr, -, -, -⟩ := exists_head now htime
      obtain ⟨hrin, -⟩ := newest_of_head hr
      obtain ⟨hrt, hsame⟩ := mem_bucketIn.1 hrin
      obtain ⟨hrow, hrpre⟩ := mem_timeTier.1 hrt
      rcases ahead_of_head ((hsorted.filter _).filter _) hr (mem_bucketIn.2 ⟨htime, bucketKey_iff.1 rfl⟩) with rfl | hahead
      · exact hr
      · exact absurd (.inr (.inl ⟨hpre, fun hleads => hleads r hrow hrpre hsame hahead⟩)) h
    rw [mem_kept_time htime]
    by_cases hmonthly : tierOf now m = .monthly
    · right
      by_contra hnot
      have hrep : m ∈ monthlyRepresentatives now rows := mem_representatives.2 (mem_heads.2 ⟨decide_eq_true hmonthly, hhead⟩)
      have hnodupReps : (monthlyRepresentatives now rows).Nodup := (newestFirst_perm _).nodup_iff.2 (nodup_heads _)
      rw [← List.take_append_drop monthlyMax (monthlyRepresentatives now rows)] at hrep hnodupReps
      have hdrop := (List.mem_append.1 hrep).resolve_left hnot
      have hlength : ((monthlyRepresentatives now rows).take monthlyMax).length = monthlyMax := by
        have hpos := List.length_pos_of_mem hdrop
        rw [List.length_drop] at hpos
        rw [List.length_take]
        omega
      refine h (.inr (.inr ⟨hpre, hmonthly, _, (List.nodup_append.1 hnodupReps).1, hlength, fun m' hm' => ?_⟩))
      have hm'rep := mem_representatives.1 (List.mem_of_mem_take hm')
      obtain ⟨hm'month, hm'head⟩ := mem_heads.1 hm'rep
      obtain ⟨hm'row, hm'pre⟩ := mem_timeTier.1 (newest_of_heads hm'rep).1
      have htier := of_decide_eq_true hm'month
      refine ⟨hm'row, hm'pre, htier, leads_of_head hsorted hm'head, lt_of_le_of_ne (take_newestFirst hm' hdrop) fun heq => ?_⟩
      -- of one time they would be of one month
      have hsame : SameBucket now m m' := by
        refine ⟨hmonthly.trans htier.symm, ?_⟩
        rw [hmonthly, heq]
        exact ⟨rfl, rfl⟩
      obtain rfl := heads_unique (mem_heads_all hhead) (mem_heads_all hm'head) hsame
      exact hnot hm'
    · exact .inl (mem_heads.2 ⟨decide_eq_true hmonthly, hhead⟩)

end Crowding

/-! ## The store and its calls -/

/-- The rows in the order of their ids, as `getAll` lists them; and, to speak of runs, whether a rotation has gone through, the ids that
there have been, and what the calls returned with the rows of that moment. A row's bundle goes where the row goes. -/
structure Snapshots where
  rows : List SnapshotMetadata
  rotated : Bool
  drawn : List String
  answers : List (String × List SnapshotMetadata)

def putRow (m : SnapshotMetadata) (rows : List SnapshotMetadata) : List SnapshotMetadata :=
  rows.filter (fun r => r.id < m.id) ++ m :: rows.filter fun r => m.id < r.id

def deleteRows (ids : List String) (rows : List SnapshotMetadata) : List SnapshotMetadata := rows.filter fun r => r.id ∉ ids

def demoted (m : SnapshotMetadata) : SnapshotMetadata := { m with isSessionPristine := false }

inductive SnapshotCall where
  | createSnapshot (trigger : SnapshotTrigger) (isSessionPristine : Bool)
  | rotateSessionPristine (trigger : SnapshotTrigger)
  | compact
  | demoteSessionPristine (exceptId : Option String)

/-- How far a call is: a compaction has listed the rows when it holds what is to be evicted. -/
inductive CallAt where
  | start
  | put (m : SnapshotMetadata)
  | fallback (m : SnapshotMetadata) (evicted : Option (List String))
  | retry (m : SnapshotMetadata)
  | rotate (m : SnapshotMetadata)
  | compact (m : Option SnapshotMetadata) (evicted : Option (List String))
  | demote (targets : List SnapshotMetadata)
  | ended

inductive Fault where
  | none
  | quota
  | other
  deriving DecidableEq

/-- What the clock, the random bytes and the database give a turn. -/
structure StoreLuck where
  id : String
  now : Nat
  fault : Fault

inductive Removal where
  | deleteLocal (id : String)
  | clear

def Snapshots.put (m : SnapshotMetadata) (s : Snapshots) : Snapshots := { s with rows := putRow m s.rows }

def Snapshots.delete (ids : List String) (s : Snapshots) : Snapshots := { s with rows := deleteRows ids s.rows }

/-- The new row is written in the transaction that takes the flag from the others. -/
def Snapshots.rotate (m : SnapshotMetadata) (s : Snapshots) : Snapshots :=
  { s with rows := putRow m (s.rows.map fun r => if r.isSessionPristine then demoted r else r), rotated := true }

def Snapshots.answer : Option SnapshotMetadata → Snapshots → Snapshots
  | some m, s => { s with answers := (m.id, s.rows) :: s.answers }
  | none, s => s

def SnapshotCall.begin (luck : StoreLuck) (s : Snapshots) : SnapshotCall → CallAt × Snapshots
  | .createSnapshot trigger flag => (.put ⟨luck.id, luck.now, trigger, flag⟩, { s with drawn := luck.id :: s.drawn })
  | .rotateSessionPristine trigger => (.rotate ⟨luck.id, luck.now, trigger, true⟩, { s with drawn := luck.id :: s.drawn })
  | .compact => (.compact none none, s)
  | .demoteSessionPristine exceptId => (.demote (s.rows.filter fun r => r.isSessionPristine ∧ some r.id ≠ exceptId), s)

/-- A turn up to the next time that a call waits. A failure ends it without a result, but for a first `put` that is out of quota. -/
def CallAt.next (call : SnapshotCall) (luck : StoreLuck) (s : Snapshots) : CallAt → Option (CallAt × Snapshots)
  | .start => some (call.begin luck s)
  | .put m => some (match luck.fault with
    | .none => (.compact (some m) none, s.put m)
    | .quota => (.fallback m none, s)
    | .other => (.ended, s))
  | .fallback m none => some (if luck.fault = .none then (.fallback m (some (computeCompaction s.rows luck.now).evicted), s) else (.ended, s))
  | .fallback m (some evicted) => some (if luck.fault = .none then (.retry m, s.delete evicted) else (.ended, s))
  | .retry m => some (if luck.fault = .none then (.compact (some m) none, s.put m) else (.ended, s))
  | .rotate m => some (if luck.fault = .none then (.compact (some m) none, s.rotate m) else (.ended, s))
  | .compact m none => some (if luck.fault = .none then (.compact m (some (computeCompaction s.rows luck.now).evicted), s) else (.ended, s))
  | .compact m (some evicted) => some (if luck.fault = .none then (.ended, (s.delete evicted).answer m) else (.ended, s))
  | .demote targets => some (if luck.fault = .none then (.ended, targets.foldl (fun s r => s.put (demoted r)) s) else (.ended, s))
  | .ended => none

/-- The calls of all the tabs, which take turns, and what the user removes. -/
def snapshotStore : Conc.Stages Snapshots (SnapshotCall × CallAt) StoreLuck Removal where
  act _ luck t s := (t.2.next t.1 luck s).map fun (at', s') => ((t.1, at'), s')
  tick
    | .deleteLocal id, s => s.delete [id]
    | .clear, s => { s with rows := [] }

abbrev Tabs := Conc.Staged Snapshots (SnapshotCall × CallAt)

abbrev StoreMove := Conc.Move (SnapshotCall × CallAt) StoreLuck Removal

/-- Whatever was stored before. -/
structure StoreBegins (w : Tabs) : Prop where
  sorted : w.shared.rows.Pairwise fun a b => a.id < b.id
  rotated : w.shared.rotated = false
  drawn : w.shared.drawn = w.shared.rows.map (·.id)
  answers : w.shared.answers = []
  threads : w.threads = []

/-- A call begins at its start, and no id is drawn twice. -/
structure FreshMove (w : Tabs) (mv : StoreMove) : Prop where
  start : ∀ t, mv = .start t → t.2 = .start
  drawn : ∀ i luck t, mv = .turn i luck → w.threads[i]? = some t → t.2 = .start → luck.id ∉ w.shared.drawn

/-- Every id was there when it was returned, and after a rotation just one row has the flag. -/
structure Survives (s : Snapshots) : Prop where
  there : ∀ a ∈ s.answers, a.1 ∈ a.2.map (·.id)
  one : s.rotated = true → ∃ f ∈ s.rows, f.isSessionPristine = true ∧ ∀ r ∈ s.rows, r.isSessionPristine = true → r = f

/-! ## Moves that spare the rows of the calls -/

/-- The row that a call has written and is yet to return. -/
def CallAt.held : CallAt → Option String
  | .compact (some m) _ => some m.id
  | _ => none

/-- A row of a call that has not returned, or the one with the flag after a rotation. -/
def Guarded (w : Tabs) (r : SnapshotMetadata) : Prop :=
  (w.shared.rotated = true ∧ r.isSessionPristine = true) ∨ ∃ t ∈ w.threads, t.2.held = some r.id

/-- It is about to write, to list or to take flags. -/
def CallAt.writes : CallAt → Option SnapshotMetadata
  | .put m => some m
  | .retry m => some m
  | _ => none

def CallAt.lists : CallAt → Bool
  | .fallback _ none => true
  | .compact _ none => true
  | _ => false

/-- No guarded row is crowded out in a list that a compaction takes, or removed; and after a rotation no other row is given the flag, and
the one that has it keeps it. -/
structure Spares (w : Tabs) (mv : StoreMove) : Prop where
  fresh : FreshMove w mv
  list : ∀ i luck t, mv = .turn i luck → w.threads[i]? = some t → t.2.lists = true → luck.fault = .none →
    ∀ r ∈ w.shared.rows, Guarded w r → ¬ Crowded luck.now w.shared.rows r
  flag : ∀ i luck t m, mv = .turn i luck → w.threads[i]? = some t → t.2.writes = some m → luck.fault = .none → w.shared.rotated = true →
    m.isSessionPristine = false
  demote : ∀ i luck t targets, mv = .turn i luck → w.threads[i]? = some t → t.2 = .demote targets → luck.fault = .none → w.shared.rotated = true →
    ∀ r ∈ w.shared.rows, r.isSessionPristine = true → r.id ∉ targets.map (·.id)
  delete : ∀ id, mv = .outside (.deleteLocal id) → ∀ r ∈ w.shared.rows, Guarded w r → r.id ≠ id
  clear : mv = .outside .clear → ∀ r ∈ w.shared.rows, ¬ Guarded w r

/-! ## Rows -/

section Rows

variable {rows : List SnapshotMetadata} {m r : SnapshotMetadata} {ids : List String} {s : Snapshots}

theorem mem_putRow : r ∈ putRow m rows ↔ r = m ∨ r ∈ rows ∧ r.id ≠ m.id := by
  simp only [putRow, List.mem_append, List.mem_cons, List.mem_filter, decide_eq_true_eq]
  rw [ne_iff_lt_or_gt]
  tauto

theorem mem_deleteRows : r ∈ deleteRows ids rows ↔ r ∈ rows ∧ r.id ∉ ids := by
  rw [deleteRows, List.mem_filter, decide_eq_true_eq]

theorem sorted_putRow (m : SnapshotMetadata) (h : rows.Pairwise fun a b => a.id < b.id) : (putRow m rows).Pairwise fun a b => a.id < b.id := by
  rw [putRow, List.pairwise_append, List.pairwise_cons]
  refine ⟨h.filter _, ⟨fun b hb => ?_, h.filter _⟩, fun a ha b hb => ?_⟩
  · exact of_decide_eq_true (List.mem_filter.1 hb).2
  · have hlt : a.id < m.id := of_decide_eq_true (List.mem_filter.1 ha).2
    rcases List.mem_cons.1 hb with rfl | hb
    · exact hlt
    · exact hlt.trans (of_decide_eq_true (List.mem_filter.1 hb).2)

/-- Nobody else has its id. -/
theorem row_eq_of_id (h : rows.Pairwise fun a b => a.id < b.id) (hm : m ∈ rows) (hr : r ∈ rows) (hid : m.id = r.id) : m = r := by
  have hnodup : (rows.map (·.id)).Nodup := List.pairwise_map.2 (h.imp fun hlt => hlt.ne)
  exact List.inj_on_of_nodup_map hnodup hm hr hid

/-- The ids of a list of evicted ones are those of rows that are not kept. -/
theorem row_of_evicted {now : Nat} {id : String} (hsorted : rows.Pairwise fun a b => a.id < b.id) (h : id ∈ (computeCompaction rows now).evicted) :
    ∃ r ∈ rows, r.id = id ∧ Crowded now rows r := by
  have hids : (rows.map (·.id)).Nodup := List.pairwise_map.2 (hsorted.imp fun hlt => hlt.ne)
  obtain ⟨r, hr, rfl⟩ := List.mem_map.1 h
  have hmem : r ∈ rows := (parts_perm now rows).mem_iff.1 (List.mem_append_right _ hr)
  refine ⟨r, hmem, rfl, ?_⟩
  by_contra hnot
  have hnodup := (parts_perm now rows).nodup_iff.2 (List.Nodup.of_map _ hids)
  exact (List.nodup_append.1 hnodup).2.2 r (kept_of_not_crowded hsorted hmem hnot) r hr rfl

/-- Fewer than `n` others are ahead of one of the first `n`. -/
theorem length_lt_of_take {n : Nat} {front ahead : List SnapshotMetadata} (hm : m ∈ front.take n) (hnodup : ahead.Nodup) (hnot : m ∉ ahead)
    (hin : ahead ⊆ front.take n) : ahead.length < n := by
  have hle := length_le_of_subset (front.take n) (List.nodup_cons.2 ⟨hnot, hnodup⟩) (List.cons_subset.2 ⟨hm, hin⟩)
  have htake := List.length_take_le n front
  rw [List.length_cons] at hle
  omega

theorem not_kept_of_crowded {now : Nat} (hsorted : rows.Pairwise fun a b => a.id < b.id) (hm : m ∈ rows) (h : Crowded now rows m) :
    m ∉ keptOf now rows := by
  have hsplit : ∀ {n : Nat} {l : List SnapshotMetadata} {x : SnapshotMetadata}, x ∈ l → x ∉ l.drop n → x ∈ l.take n := fun {n l x} hx hnot => by
    rw [← List.take_append_drop n l] at hx
    exact (List.mem_append.1 hx).resolve_right hnot
  intro hkept
  rcases h with ⟨hkind, ahead, hnodup, hlength, hahead⟩ | ⟨hpre, hbehind⟩ | ⟨hpre, hmonthly, ahead, hnodup, hlength, hahead⟩
  · have hregular := mem_regularPreOp.2 ⟨hm, isRegularPreOp_iff.1 hkind⟩
    have hfirst := (mem_kept_regular hregular).1 hkept
    have hlt := length_lt_of_take hfirst hnodup (fun hself => ahead_asymm (hahead m hself).2.2 (hahead m hself).2.2) fun m' hm' => by
      obtain ⟨hrow, hkind', hbefore⟩ := hahead m' hm'
      refine hsplit (mem_newestFirst.2 (mem_regularPreOp.2 ⟨hrow, isRegularPreOp_iff.1 hkind'⟩)) fun hdrop => ?_
      exact ahead_asymm hbefore ((Keyset.ahead_of_drop ((hsorted.filter _).filter _) hdrop).2 m hfirst).2
    omega
  · exact hbehind (leads_of_head hsorted (head_of_kept (mem_timeTier.2 ⟨hm, hpre⟩) hkept))
  · have hfirst := monthly_kept (mem_timeTier.2 ⟨hm, hpre⟩) hkept hmonthly
    have hlt := length_lt_of_take hfirst hnodup (fun hself => (hahead m hself).2.2.2.2.ne rfl) fun m' hm' => by
      obtain ⟨hrow, hpre', htier, hleads, hlater⟩ := hahead m' hm'
      have htime : m' ∈ timeTier rows := mem_timeTier.2 ⟨hrow, hpre'⟩
      -- who leads its bucket is its newest
      obtain ⟨r, hr, -, -, -⟩ := exists_head now htime
      obtain ⟨hrin, hsame⟩ := mem_bucketIn.1 (newest_of_head hr).1
      obtain rfl : m' = r := (ahead_of_head ((hsorted.filter _).filter _) hr (mem_bucketIn.2 ⟨htime, bucketKey_iff.1 rfl⟩)).resolve_right
        (hleads r (mem_timeTier.1 hrin).1 (mem_timeTier.1 hrin).2 hsame)
      refine hsplit (mem_representatives.2 (mem_heads.2 ⟨decide_eq_true htier, hr⟩)) fun hdrop => ?_
      exact absurd (take_newestFirst hfirst hdrop) (not_le.2 hlater)
    omega

/-- A compaction of the rows of the store evicts just those that are crowded out. -/
theorem evicted_iff_crowded {now : Nat} {id : String} (hsorted : rows.Pairwise fun a b => a.id < b.id) :
    id ∈ (computeCompaction rows now).evicted ↔ ∃ r ∈ rows, r.id = id ∧ Crowded now rows r := by
  refine ⟨row_of_evicted hsorted, ?_⟩
  rintro ⟨r, hr, rfl, hcrowded⟩
  refine List.mem_map_of_mem ?_
  have hpart := (parts_perm now rows).mem_iff.2 hr
  exact (List.mem_append.1 hpart).resolve_left (not_kept_of_crowded hsorted hr hcrowded)

theorem evicted_iff_two : "snap_a0" ∈ (computeCompaction [⟨"snap_a0", 1000, .auto, false⟩, ⟨"snap_a1", 2000, .auto, false⟩] 3000).evicted ↔
    ∃ r ∈ [⟨"snap_a0", 1000, .auto, false⟩, ⟨"snap_a1", 2000, .auto, false⟩], r.id = "snap_a0" ∧
      Crowded 3000 [⟨"snap_a0", 1000, .auto, false⟩, ⟨"snap_a1", 2000, .auto, false⟩] r :=
  evicted_iff_crowded (by decide)

/-- What the writes of a demotion leave. -/
structure Demotes (targets : List SnapshotMetadata) (s s' : Snapshots) : Prop where
  rotated : s'.rotated = s.rotated
  drawn : s'.drawn = s.drawn
  answers : s'.answers = s.answers
  sorted : s.rows.Pairwise (fun a b => a.id < b.id) → s'.rows.Pairwise fun a b => a.id < b.id
  come : ∀ r ∈ s'.rows, r ∈ s.rows ∨ ∃ t ∈ targets, r = demoted t
  stay : ∀ r ∈ s.rows, r.id ∉ targets.map (·.id) → r ∈ s'.rows
  ids : ∀ r ∈ s.rows, ∃ r' ∈ s'.rows, r'.id = r.id

theorem demotes_foldl : ∀ (targets : List SnapshotMetadata) (s : Snapshots), Demotes targets s (targets.foldl (fun s r => s.put (demoted r)) s)
  | [], s => ⟨rfl, rfl, rfl, id, fun _ => .inl, fun _ hr _ => hr, fun r hr => ⟨r, hr, rfl⟩⟩
  | t :: targets, s => by
    have hrest := demotes_foldl targets (s.put (demoted t))
    rw [List.foldl_cons]
    refine ⟨hrest.rotated, hrest.drawn, hrest.answers, fun h => hrest.sorted (sorted_putRow _ h), fun r hr => ?_, fun r hr hnot => ?_, fun r hr => ?_⟩
    · rcases hrest.come r hr with hr | ⟨t', ht', rfl⟩
      · rcases mem_putRow.1 hr with rfl | ⟨hr, -⟩
        · exact .inr ⟨t, List.mem_cons_self, rfl⟩
        · exact .inl hr
      · exact .inr ⟨t', List.mem_cons_of_mem _ ht', rfl⟩
    · rw [List.map_cons, List.mem_cons, not_or] at hnot
      exact hrest.stay r (mem_putRow.2 (.inr ⟨hr, hnot.1⟩)) hnot.2
    · by_cases heq : r.id = t.id
      · obtain ⟨r', hr', hid⟩ := hrest.ids (demoted t) (mem_putRow.2 (.inl rfl))
        exact ⟨r', hr', hid.trans heq.symm⟩
      · exact hrest.ids r (mem_putRow.2 (.inr ⟨hr, heq⟩))

end Rows

/-! ## Every call is spared -/

/-- The id of the row that a call is to write, or has written. -/
def CallAt.unput : CallAt → Option String
  | .put m | .fallback m _ | .retry m | .rotate m => some m.id
  | _ => none

def CallAt.evicting : CallAt → List String
  | .fallback _ (some evicted) | .compact _ (some evicted) => evicted
  | _ => []

def CallAt.targets : CallAt → List String
  | .demote targets => targets.map (·.id)
  | _ => []

def CallAt.mine (a : CallAt) : Option String := a.unput.or a.held

structure StoreInv (w : Tabs) : Prop where
  sorted : w.shared.rows.Pairwise fun a b => a.id < b.id
  rows : ∀ r ∈ w.shared.rows, r.id ∈ w.shared.drawn
  mine : ∀ t ∈ w.threads, ∀ id, t.2.mine = some id → id ∈ w.shared.drawn
  pending : ∀ t ∈ w.threads, ∀ id, id ∈ t.2.evicting ∨ id ∈ t.2.targets → id ∈ w.shared.drawn
  apart : ∀ (i j : Nat) t u id, w.threads[i]? = some t → w.threads[j]? = some u → t.2.mine = some id → u.2.mine = some id → i = j
  spared : ∀ t ∈ w.threads, ∀ id, t.2.mine = some id → ∀ u ∈ w.threads, id ∉ u.2.evicting
  unput : ∀ t ∈ w.threads, ∀ id, t.2.unput = some id → (∀ r ∈ w.shared.rows, r.id ≠ id) ∧ ∀ u ∈ w.threads, id ∉ u.2.targets
  held : ∀ t ∈ w.threads, ∀ id, t.2.held = some id → ∃ r ∈ w.shared.rows, r.id = id
  rotating : ∀ t ∈ w.threads, ∀ m, t.2 = .rotate m → m.isSessionPristine = true
  there : ∀ a ∈ w.shared.answers, a.1 ∈ a.2.map (·.id)
  one : w.shared.rotated = true → ∃ f ∈ w.shared.rows, f.isSessionPristine = true ∧ (∀ r ∈ w.shared.rows, r.isSessionPristine = true → r = f) ∧
    ∀ u ∈ w.threads, f.id ∉ u.2.evicting

section Turns

variable {w : Tabs} {i : Nat} {call : SnapshotCall} {a a' : CallAt} {s' : Snapshots} {luck : StoreLuck}

theorem mine_of_unput {id : String} (h : a.unput = some id) : a.mine = some id := by
  rw [CallAt.mine, h, Option.some_or]

theorem mine_of_held {id : String} (h : a.held = some id) : a.mine = some id := by
  cases a <;> first | cases h | exact h

theorem targets_of_unput {id : String} (h : a.unput = some id) : a.targets = [] := by
  cases a <;> first | rfl | cases h

theorem unput_or_held {id : String} (h : a.mine = some id) : a.unput = some id ∨ a.held = some id := by
  unfold CallAt.mine at h
  cases hu : a.unput with
  | some id' => exact .inl (by rwa [hu, Option.some_or] at h)
  | none => exact .inr (by rwa [hu, Option.none_or] at h)

/-- What a turn may do: a row comes from the call or from the rows of a demotion, and what it lists for eviction is not guarded. -/
structure Turned (w : Tabs) (i : Nat) (a a' : CallAt) (s' : Snapshots) : Prop where
  sorted : s'.rows.Pairwise fun a b => a.id < b.id
  drawn : ∀ id ∈ w.shared.drawn, id ∈ s'.drawn
  rows : ∀ r ∈ s'.rows, (∃ r' ∈ w.shared.rows, r'.id = r.id) ∨ a.unput = some r.id ∨ r.id ∈ a.targets
  mine : ∀ id, a'.mine = some id → a.mine = some id ∨ id ∉ w.shared.drawn ∧ id ∈ s'.drawn
  unput : ∀ id, a'.unput = some id → (a.unput = some id ∨ id ∉ w.shared.drawn) ∧ ∀ r ∈ s'.rows, r ∈ w.shared.rows
  held : ∀ id, a'.held = some id → ∃ r ∈ s'.rows, r.id = id
  others : ∀ (j : Nat) u id, j ≠ i → w.threads[j]? = some u → u.2.held = some id → ∃ r ∈ s'.rows, r.id = id
  evicting : ∀ id ∈ a'.evicting, ∃ r ∈ w.shared.rows, r.id = id ∧ ¬ Guarded w r
  targets : ∀ id ∈ a'.targets, ∃ r ∈ w.shared.rows, r.id = id
  rotating : ∀ m, a' = .rotate m → m.isSessionPristine = true
  there : ∀ b ∈ s'.answers, b.1 ∈ b.2.map (·.id)
  one : s'.rotated = true → ∃ f ∈ s'.rows, f.isSessionPristine = true ∧ (∀ r ∈ s'.rows, r.isSessionPristine = true → r = f) ∧
    (a.mine = some f.id ∧ a'.evicting = [] ∨ w.shared.rotated = true ∧ f ∈ w.shared.rows)

theorem not_mine_of_unguarded (hinv : StoreInv w) {r : SnapshotMetadata} (hr : r ∈ w.shared.rows) (hnot : ¬ Guarded w r) :
    ∀ t ∈ w.threads, t.2.mine ≠ some r.id := by
  intro t ht hmine
  rcases unput_or_held hmine with hu | hh
  · exact (hinv.unput t ht _ hu).1 r hr rfl
  · exact hnot (.inr ⟨t, ht, hh⟩)

theorem Turned.storeInv (h : Turned w i a a' s') (hinv : StoreInv w) (hget : w.threads[i]? = some (call, a)) :
    StoreInv ⟨s', w.threads.set i (call, a')⟩ := by
  have hself : (call, a) ∈ w.threads := List.mem_of_getElem? hget
  have hmem : ∀ {t}, t ∈ w.threads.set i (call, a') → t = (call, a') ∨ ∃ j, j ≠ i ∧ w.threads[j]? = some t := fun ht => by
    obtain ⟨j, hj⟩ := List.mem_iff_getElem?.1 ht
    rw [Conc.getElem?_set_of_some hget] at hj
    split at hj
    · exact .inl (Option.some.inj hj).symm
    · rename_i hij
      exact .inr ⟨j, Ne.symm hij, hj⟩
  -- what is drawn anew is nobody's, and in no list
  have hfresh : ∀ id, id ∉ w.shared.drawn → (∀ r ∈ w.shared.rows, r.id ≠ id) ∧ ∀ u ∈ w.threads, u.2.mine ≠ some id ∧ id ∉ u.2.evicting ∧ id ∉ u.2.targets :=
    fun id hid => ⟨fun r hr heq => hid (heq ▸ hinv.rows r hr), fun u hu => ⟨fun hm => hid (hinv.mine u hu id hm), fun he => hid (hinv.pending u hu id (.inl he)),
      fun ht => hid (hinv.pending u hu id (.inr ht))⟩⟩
  have hevicted : ∀ id ∈ a'.evicting, ∀ t ∈ w.threads, t.2.mine ≠ some id := fun id hid => by
    obtain ⟨r, hr, rfl, hnot⟩ := h.evicting id hid
    exact not_mine_of_unguarded hinv hr hnot
  have hspared : ∀ t ∈ w.threads, ∀ id, t.2.mine = some id → ∀ u ∈ w.threads.set i (call, a'), id ∉ u.2.evicting := fun t ht id hid u hu he => by
    rcases hmem hu with rfl | ⟨k, -, hu⟩
    · exact hevicted id he t ht hid
    · exact hinv.spared t ht id hid u (List.mem_of_getElem? hu) he
  refine ⟨h.sorted, fun r hr => ?_, fun t ht id hid => ?_, fun t ht id hid => ?_, fun j k t u id hj hk htid huid => ?_, fun t ht id hid => ?_,
    fun t ht id hid => ?_, fun t ht id hid => ?_, fun t ht m hrot => ?_, h.there, fun hrotated => ?_⟩
  · rcases h.rows r hr with ⟨r', hr', heq⟩ | hu | htarget
    · exact h.drawn _ (heq ▸ hinv.rows r' hr')
    · exact h.drawn _ (hinv.mine _ hself _ (mine_of_unput hu))
    · exact h.drawn _ (hinv.pending _ hself _ (.inr htarget))
  · rcases hmem ht with rfl | ⟨j, -, ht⟩
    · rcases h.mine id hid with hold | ⟨-, hnew⟩
      · exact h.drawn _ (hinv.mine _ hself _ hold)
      · exact hnew
    · exact h.drawn _ (hinv.mine t (List.mem_of_getElem? ht) id hid)
  · rcases hmem ht with rfl | ⟨j, -, ht⟩
    · rcases hid with he | htarget
      · obtain ⟨r, hr, rfl, -⟩ := h.evicting id he
        exact h.drawn _ (hinv.rows r hr)
      · obtain ⟨r, hr, rfl⟩ := h.targets id htarget
        exact h.drawn _ (hinv.rows r hr)
    · exact h.drawn _ (hinv.pending t (List.mem_of_getElem? ht) id hid)
  · rw [Conc.getElem?_set_of_some hget] at hj hk
    split at hj <;> split at hk
    · omega
    · rename_i hij hik
      obtain rfl := Option.some.inj hj
      rcases h.mine id htid with hold | ⟨hnew, -⟩
      · exact hij ▸ hinv.apart i k _ u id hget hk hold huid
      · exact absurd huid ((hfresh id hnew).2 u (List.mem_of_getElem? hk)).1
    · rename_i hij hik
      obtain rfl := Option.some.inj hk
      rcases h.mine id huid with hold | ⟨hnew, -⟩
      · exact hik ▸ hinv.apart j i t _ id hj hget htid hold
      · exact absurd htid ((hfresh id hnew).2 t (List.mem_of_getElem? hj)).1
    · exact hinv.apart j k t u id hj hk htid huid
  · rcases hmem ht with rfl | ⟨j, -, ht⟩
    · rcases h.mine id hid with hold | ⟨hnew, -⟩
      · exact hspared _ hself id hold
      · intro u hu he
        rcases hmem hu with rfl | ⟨k, -, hu⟩
        · obtain ⟨r, hr, rfl, -⟩ := h.evicting id he
          exact (hfresh _ hnew).1 r hr rfl
        · exact ((hfresh id hnew).2 u (List.mem_of_getElem? hu)).2.1 he
    · exact hspared t (List.mem_of_getElem? ht) id hid
  · rcases hmem ht with rfl | ⟨j, hji, ht⟩
    · obtain ⟨hold, hsub⟩ := h.unput id hid
      have hnone : (∀ r ∈ w.shared.rows, r.id ≠ id) ∧ ∀ u ∈ w.threads, id ∉ u.2.targets := by
        rcases hold with hold | hnew
        · exact hinv.unput _ hself id hold
        · exact ⟨(hfresh id hnew).1, fun u hu => ((hfresh id hnew).2 u hu).2.2⟩
      refine ⟨fun r hr => hnone.1 r (hsub r hr), fun u hu => ?_⟩
      rcases hmem hu with rfl | ⟨k, -, hu⟩
      · rw [targets_of_unput hid]
        exact List.not_mem_nil
      · exact hnone.2 u (List.mem_of_getElem? hu)
    · obtain ⟨hnone, htargets⟩ := hinv.unput t (List.mem_of_getElem? ht) id hid
      refine ⟨fun r hr heq => ?_, fun u hu htarget => ?_⟩
      · rcases h.rows r hr with ⟨r', hr', hid'⟩ | hu | htarget
        · exact hnone r' hr' (hid'.trans heq)
        · exact hji (hinv.apart i j _ t id hget ht (heq ▸ mine_of_unput hu) (mine_of_unput hid)).symm
        · exact htargets _ hself (heq ▸ htarget)
      · rcases hmem hu with rfl | ⟨k, -, hu⟩
        · obtain ⟨r, hr, heq⟩ := h.targets id htarget
          exact hnone r hr heq
        · exact htargets u (List.mem_of_getElem? hu) htarget
  · rcases hmem ht with rfl | ⟨j, hji, ht⟩
    · exact h.held id hid
    · exact h.others j t id hji ht hid
  · rcases hmem ht with rfl | ⟨j, -, ht⟩
    · exact h.rotating m hrot
    · exact hinv.rotating t (List.mem_of_getElem? ht) m hrot
  · obtain ⟨f, hf, hflag, hunique, hfrom⟩ := h.one hrotated
    refine ⟨f, hf, hflag, hunique, fun u hu he => ?_⟩
    rcases hfrom with ⟨hmine, hnil⟩ | ⟨hrotated', hf'⟩
    · rcases hmem hu with rfl | ⟨k, -, hu⟩
      · rw [hnil] at he
        cases he
      · exact hinv.spared _ hself _ hmine u (List.mem_of_getElem? hu) he
    · rcases hmem hu with rfl | ⟨k, -, hu⟩
      · obtain ⟨r, hr, hid, hnot⟩ := h.evicting _ he
        obtain rfl := row_eq_of_id hinv.sorted hr hf' hid
        exact hnot (.inl ⟨hrotated', hflag⟩)
      · obtain ⟨f', hf'', -, hunique', hout⟩ := hinv.one hrotated'
        obtain rfl := hunique' f hf' hflag
        exact hout u (List.mem_of_getElem? hu) he

/-- A turn that writes nothing: it goes on, fails, or takes a list. -/
theorem turned_same (hinv : StoreInv w) (hself : (call, a) ∈ w.threads) (hunput : ∀ id, a'.unput = some id → a.unput = some id)
    (hheld : ∀ id, a'.held = some id → a.held = some id) (hevicting : ∀ id ∈ a'.evicting, ∃ r ∈ w.shared.rows, r.id = id ∧ ¬ Guarded w r)
    (htargets : ∀ id ∈ a'.targets, ∃ r ∈ w.shared.rows, r.id = id) (hrotating : ∀ m, a' ≠ .rotate m) : Turned w i a a' w.shared where
  sorted := hinv.sorted
  drawn _ hid := hid
  rows r hr := .inl ⟨r, hr, rfl⟩
  mine id hid := by
    rcases unput_or_held hid with hu | hh
    · exact .inl (mine_of_unput (hunput id hu))
    · exact .inl (mine_of_held (hheld id hh))
  unput id hid := ⟨.inl (hunput id hid), fun _ hr => hr⟩
  held id hid := hinv.held _ hself id (hheld id hid)
  others j u id _ hu hid := hinv.held u (List.mem_of_getElem? hu) id hid
  evicting := hevicting
  targets := htargets
  rotating m hrot := absurd hrot (hrotating m)
  there := hinv.there
  one hrotated := by
    obtain ⟨f, hf, hflag, hunique, -⟩ := hinv.one hrotated
    exact ⟨f, hf, hflag, hunique, .inr ⟨hrotated, hf⟩⟩

theorem turned_draw (hinv : StoreInv w) {id : String} (hnew : id ∉ w.shared.drawn) (ha' : a'.unput = some id) (hheld : a'.held = none)
    (hevicting : a'.evicting = []) (hrotating : ∀ m, a' = .rotate m → m.isSessionPristine = true) : Turned w i .start a' { w.shared with drawn := id :: w.shared.drawn } where
  sorted := hinv.sorted
  drawn _ hid := List.mem_cons_of_mem _ hid
  rows r hr := .inl ⟨r, hr, rfl⟩
  mine id' hid := by
    obtain rfl := Option.some.inj ((mine_of_unput ha').symm.trans hid)
    exact .inr ⟨hnew, List.mem_cons_self⟩
  unput id' hid := by
    obtain rfl := Option.some.inj (ha'.symm.trans hid)
    exact ⟨.inr hnew, fun _ hr => hr⟩
  held id' hid := by
    rw [hheld] at hid
    cases hid
  others j u id' _ hu hid := hinv.held u (List.mem_of_getElem? hu) id' hid
  evicting id' hid := by
    rw [hevicting] at hid
    cases hid
  targets id' hid := by
    rw [targets_of_unput ha'] at hid
    cases hid
  rotating := hrotating
  there := hinv.there
  one hrotated := by
    obtain ⟨f, hf, hflag, hunique, -⟩ := hinv.one hrotated
    exact ⟨f, hf, hflag, hunique, .inr ⟨hrotated, hf⟩⟩

theorem turned_put {m : SnapshotMetadata} (hinv : StoreInv w) (hself : (call, a) ∈ w.threads) (ha : a.unput = some m.id)
    (hflag : w.shared.rotated = true → m.isSessionPristine = false) : Turned w i a (.compact (some m) none) (w.shared.put m) where
  sorted := sorted_putRow m hinv.sorted
  drawn _ hid := hid
  rows r hr := by
    rcases mem_putRow.1 hr with rfl | ⟨hr, -⟩
    · exact .inr (.inl ha)
    · exact .inl ⟨r, hr, rfl⟩
  mine id hid := by
    obtain rfl := Option.some.inj hid
    exact .inl (mine_of_unput ha)
  unput id hid := by cases hid
  held id hid := by
    obtain rfl := Option.some.inj hid
    exact ⟨m, mem_putRow.2 (.inl rfl), rfl⟩
  others j u id _ hu hid := by
    obtain ⟨r, hr, rfl⟩ := hinv.held u (List.mem_of_getElem? hu) id hid
    exact ⟨r, mem_putRow.2 (.inr ⟨hr, (hinv.unput _ hself _ ha).1 r hr⟩), rfl⟩
  evicting id hid := by cases hid
  targets id hid := by cases hid
  rotating m hrot := by cases hrot
  there := hinv.there
  one hrotated := by
    obtain ⟨f, hf, hflagged, hunique, -⟩ := hinv.one hrotated
    refine ⟨f, mem_putRow.2 (.inr ⟨hf, (hinv.unput _ hself _ ha).1 f hf⟩), hflagged, fun r hr hrflag => ?_, .inr ⟨hrotated, hf⟩⟩
    rcases mem_putRow.1 hr with rfl | ⟨hr, -⟩
    · exact absurd (hrflag.symm.trans (hflag hrotated)) Bool.noConfusion
    · exact hunique r hr hrflag

theorem turned_rotate {m : SnapshotMetadata} (hinv : StoreInv w) (hself : (call, a) ∈ w.threads) (ha : a.unput = some m.id)
    (hflag : m.isSessionPristine = true) : Turned w i a (.compact (some m) none) (w.shared.rotate m) := by
  have hids : ∀ r : SnapshotMetadata, (if r.isSessionPristine then demoted r else r).id = r.id := fun r => by split <;> rfl
  have hmem : ∀ {r}, r ∈ (w.shared.rotate m).rows ↔ r = m ∨ (∃ r' ∈ w.shared.rows, (if r'.isSessionPristine then demoted r' else r') = r) ∧ r.id ≠ m.id :=
    fun {r} => mem_putRow.trans (or_congr_right (and_congr_left fun _ => List.mem_map))
  constructor
  · refine sorted_putRow m (List.pairwise_map.2 (hinv.sorted.imp fun {r r'} hlt => ?_))
    rw [hids, hids]
    exact hlt
  · exact fun _ hid => hid
  · intro r hr
    rcases hmem.1 hr with rfl | ⟨⟨r', hr', rfl⟩, -⟩
    · exact .inr (.inl ha)
    · exact .inl ⟨r', hr', (hids r').symm⟩
  · intro id hid
    obtain rfl := Option.some.inj hid
    exact .inl (mine_of_unput ha)
  · intro id hid
    cases hid
  · intro id hid
    obtain rfl := Option.some.inj hid
    exact ⟨m, hmem.2 (.inl rfl), rfl⟩
  · intro j u id _ hu hid
    obtain ⟨r, hr, rfl⟩ := hinv.held u (List.mem_of_getElem? hu) id hid
    refine ⟨_, hmem.2 (.inr ⟨⟨r, hr, rfl⟩, ?_⟩), hids r⟩
    rw [hids]
    exact (hinv.unput _ hself _ ha).1 r hr
  · intro id hid
    cases hid
  · intro id hid
    cases hid
  · intro m hrot
    cases hrot
  · exact hinv.there
  · intro _
    refine ⟨m, hmem.2 (.inl rfl), hflag, fun r hr hrflag => ?_, .inl ⟨mine_of_unput ha, rfl⟩⟩
    rcases hmem.1 hr with rfl | ⟨⟨r', -, rfl⟩, -⟩
    · rfl
    · exfalso
      split at hrflag
      · cases hrflag
      · rename_i hnot
        exact hnot hrflag

/-- What is deleted is no call's and not the one with the flag. -/
theorem turned_delete (hinv : StoreInv w) (hself : (call, a) ∈ w.threads) (hrows : s'.rows = deleteRows a.evicting w.shared.rows)
    (hdrawn : s'.drawn = w.shared.drawn) (hrotated : s'.rotated = w.shared.rotated) (hthere : ∀ b ∈ s'.answers, b.1 ∈ b.2.map (·.id))
    (hunput : ∀ id, a'.unput = some id → a.unput = some id) (hheld : a'.held = none) (hevicting : a'.evicting = []) (htargets : a'.targets = [])
    (hrotating : ∀ m, a' ≠ .rotate m) : Turned w i a a' s' where
  sorted := by
    rw [hrows]
    exact hinv.sorted.filter _
  drawn _ hid := hdrawn ▸ hid
  rows r hr := by
    rw [hrows] at hr
    exact .inl ⟨r, (mem_deleteRows.1 hr).1, rfl⟩
  mine id hid := by
    rcases unput_or_held hid with hu | hh
    · exact .inl (mine_of_unput (hunput id hu))
    · rw [hheld] at hh
      cases hh
  unput id hid := by
    refine ⟨.inl (hunput id hid), fun r hr => ?_⟩
    rw [hrows] at hr
    exact (mem_deleteRows.1 hr).1
  held id hid := by
    rw [hheld] at hid
    cases hid
  others j u id _ hu hid := by
    obtain ⟨r, hr, rfl⟩ := hinv.held u (List.mem_of_getElem? hu) id hid
    rw [hrows]
    exact ⟨r, mem_deleteRows.2 ⟨hr, hinv.spared u (List.mem_of_getElem? hu) _ (mine_of_held hid) _ hself⟩, rfl⟩
  evicting id hid := by
    rw [hevicting] at hid
    cases hid
  targets id hid := by
    rw [htargets] at hid
    cases hid
  rotating m hrot := absurd hrot (hrotating m)
  there := hthere
  one hrot := by
    rw [hrotated] at hrot
    obtain ⟨f, hf, hflag, hunique, hout⟩ := hinv.one hrot
    rw [hrows]
    exact ⟨f, mem_deleteRows.2 ⟨hf, hout _ hself⟩, hflag, fun r hr => hunique r (mem_deleteRows.1 hr).1, .inr ⟨hrot, hf⟩⟩

theorem turned_demote {targets : List SnapshotMetadata} (hinv : StoreInv w)
    (hdemotes : Demotes targets w.shared s')
    (hspares : w.shared.rotated = true → ∀ r ∈ w.shared.rows, r.isSessionPristine = true → r.id ∉ targets.map (·.id)) :
    Turned w i (.demote targets) .ended s' where
  sorted := hdemotes.sorted hinv.sorted
  drawn _ hid := hdemotes.drawn ▸ hid
  rows r hr := by
    rcases hdemotes.come r hr with hr | ⟨t, ht, rfl⟩
    · exact .inl ⟨r, hr, rfl⟩
    · exact .inr (.inr (List.mem_map.2 ⟨t, ht, rfl⟩))
  mine id hid := by cases hid
  unput id hid := by cases hid
  held id hid := by cases hid
  others j u id _ hu hid := by
    obtain ⟨r, hr, rfl⟩ := hinv.held u (List.mem_of_getElem? hu) id hid
    exact hdemotes.ids r hr
  evicting id hid := by cases hid
  targets id hid := by cases hid
  rotating m hrot := by cases hrot
  there := hdemotes.answers ▸ hinv.there
  one hrot := by
    rw [hdemotes.rotated] at hrot
    obtain ⟨f, hf, hflag, hunique, -⟩ := hinv.one hrot
    refine ⟨f, hdemotes.stay f hf (hspares hrot f hf hflag), hflag, fun r hr hrflag => ?_, .inr ⟨hrot, hf⟩⟩
    rcases hdemotes.come r hr with hr | ⟨t, -, rfl⟩
    · exact hunique r hr hrflag
    · cases hrflag

/-- What a list gives to evict is not guarded. -/
theorem unguarded_of_evicted (hinv : StoreInv w) {now : Nat} (h : ∀ r ∈ w.shared.rows, Guarded w r → ¬ Crowded now w.shared.rows r) :
    ∀ id ∈ (computeCompaction w.shared.rows now).evicted, ∃ r ∈ w.shared.rows, r.id = id ∧ ¬ Guarded w r := by
  intro id hid
  obtain ⟨r, hr, heq, hcrowded⟩ := row_of_evicted hinv.sorted hid
  exact ⟨r, hr, heq, fun hguarded => h r hr hguarded hcrowded⟩

/-- Every turn, step by step of the calls. -/
theorem turned_next (hinv : StoreInv w) (hget : w.threads[i]? = some (call, a)) (hspares : Spares w (.turn i luck))
    (h : a.next call luck w.shared = some (a', s')) : Turned w i a a' s' := by
  have hself : (call, a) ∈ w.threads := List.mem_of_getElem? hget
  have hlist : ∀ evicted, a.lists = true → luck.fault = .none → (computeCompaction w.shared.rows luck.now).evicted = evicted →
      ∀ id ∈ evicted, ∃ r ∈ w.shared.rows, r.id = id ∧ ¬ Guarded w r := by
    rintro _ hlists hfault rfl
    exact unguarded_of_evicted hinv (hspares.list i luck _ rfl hget hlists hfault)
  -- a call that has failed has no row, and lists nothing
  have hover : Turned w i a .ended w.shared :=
    turned_same hinv hself (fun _ hid => by cases hid) (fun _ hid => by cases hid) (fun _ hid => by cases hid)
      (fun _ hid => by cases hid) fun _ hrot => by cases hrot
  cases a with
  | start =>
    obtain ⟨rfl, rfl⟩ := Prod.mk.inj (Option.some.inj h)
    have hnew := hspares.fresh.drawn i luck _ rfl hget rfl
    cases call with
    | createSnapshot trigger flag => exact turned_draw hinv hnew rfl rfl rfl fun _ hrot => by cases hrot
    | rotateSessionPristine trigger =>
      refine turned_draw hinv hnew rfl rfl rfl fun m hrot => ?_
      cases hrot
      rfl
    | compact =>
      exact turned_same hinv hself (fun _ hid => by cases hid) (fun _ hid => by cases hid) (fun _ hid => by cases hid) (fun _ hid => by cases hid)
        fun _ hrot => by cases hrot
    | demoteSessionPristine exceptId =>
      refine turned_same hinv hself (fun _ hid => by cases hid) (fun _ hid => by cases hid) (fun _ hid => by cases hid) (fun id hid => ?_)
        fun _ hrot => by cases hrot
      obtain ⟨r, hr, rfl⟩ := List.mem_map.1 hid
      exact ⟨r, (List.mem_filter.1 hr).1, rfl⟩
  | put m =>
    simp only [CallAt.next, Option.some.injEq] at h
    cases hfault : luck.fault with
    | none =>
      obtain ⟨rfl, rfl⟩ := Prod.mk.inj (hfault ▸ h)
      exact turned_put hinv hself rfl fun hrotated => hspares.flag i luck _ m rfl hget rfl hfault hrotated
    | quota =>
      obtain ⟨rfl, rfl⟩ := Prod.mk.inj (hfault ▸ h)
      exact turned_same hinv hself (fun _ hid => hid) (fun _ hid => hid) (fun _ hid => by cases hid) (fun _ hid => by cases hid) fun _ hrot => by cases hrot
    | other =>
      obtain ⟨rfl, rfl⟩ := Prod.mk.inj (hfault ▸ h)
      exact hover
  | fallback m evicted =>
    cases evicted with
    | none =>
      simp only [CallAt.next, Option.some.injEq] at h
      split at h
      · rename_i hfault
        obtain ⟨rfl, rfl⟩ := Prod.mk.inj h
        exact turned_same hinv hself (fun _ hid => hid) (fun _ hid => hid) (hlist _ rfl hfault rfl) (fun _ hid => by cases hid) fun _ hrot => by cases hrot
      · obtain ⟨rfl, rfl⟩ := Prod.mk.inj h
        exact hover
    | some evicted =>
      simp only [CallAt.next, Option.some.injEq] at h
      split at h
      · obtain ⟨rfl, rfl⟩ := Prod.mk.inj h
        exact turned_delete hinv hself rfl rfl rfl hinv.there (fun _ hid => hid) rfl rfl rfl fun _ hrot => by cases hrot
      · obtain ⟨rfl, rfl⟩ := Prod.mk.inj h
        exact hover
  | retry m =>
    simp only [CallAt.next, Option.some.injEq] at h
    split at h
    · rename_i hfault
      obtain ⟨rfl, rfl⟩ := Prod.mk.inj h
      exact turned_put hinv hself rfl fun hrotated => hspares.flag i luck _ m rfl hget rfl hfault hrotated
    · obtain ⟨rfl, rfl⟩ := Prod.mk.inj h
      exact hover
  | rotate m =>
    simp only [CallAt.next, Option.some.injEq] at h
    split at h
    · obtain ⟨rfl, rfl⟩ := Prod.mk.inj h
      exact turned_rotate hinv hself rfl (hinv.rotating _ hself m rfl)
    · obtain ⟨rfl, rfl⟩ := Prod.mk.inj h
      exact hover
  | compact m evicted =>
    cases evicted with
    | none =>
      simp only [CallAt.next, Option.some.injEq] at h
      split at h
      · rename_i hfault
        obtain ⟨rfl, rfl⟩ := Prod.mk.inj h
        refine turned_same hinv hself (fun _ hid => ?_) (fun _ hid => ?_) ?_ (fun _ hid => by cases hid) fun _ hrot => by cases hrot
        · cases hid
        · cases m <;> exact hid
        · exact hlist _ rfl hfault rfl
      · obtain ⟨rfl, rfl⟩ := Prod.mk.inj h
        exact hover
    | some evicted =>
      simp only [CallAt.next, Option.some.injEq] at h
      split at h
      · obtain ⟨rfl, rfl⟩ := Prod.mk.inj h
        cases m with
        | none => exact turned_delete hinv hself rfl rfl rfl hinv.there (fun _ hid => by cases hid) rfl rfl rfl fun _ hrot => by cases hrot
        | some m =>
          refine turned_delete hinv hself rfl rfl rfl (fun b hb => ?_) (fun _ hid => by cases hid) rfl rfl rfl fun _ hrot => by cases hrot
          -- its own row is not in the list that it deletes
          rcases List.mem_cons.1 hb with rfl | hb
          · obtain ⟨r, hr, hid⟩ := hinv.held _ hself m.id rfl
            exact List.mem_map.2 ⟨r, mem_deleteRows.2 ⟨hr, hid ▸ hinv.spared _ hself m.id rfl _ hself⟩, hid⟩
          · exact hinv.there b hb
      · obtain ⟨rfl, rfl⟩ := Prod.mk.inj h
        exact hover
  | demote targets =>
    simp only [CallAt.next, Option.some.injEq] at h
    split at h
    · rename_i hfault
      obtain ⟨rfl, rfl⟩ := Prod.mk.inj h
      exact turned_demote hinv (demotes_foldl targets w.shared) fun hrotated => hspares.demote i luck _ targets rfl hget rfl hfault hrotated
    · obtain ⟨rfl, rfl⟩ := Prod.mk.inj h
      exact hover
  | ended => cases h

end Turns

/-! ## Runs -/

section Runs

variable {w w' : Tabs} {mv : StoreMove} {tr : List (Conc.Moved Snapshots (SnapshotCall × CallAt) StoreLuck Removal)}

theorem storeInv_begins (h : StoreBegins w) : StoreInv w := by
  have hthreads := h.threads
  refine ⟨h.sorted, fun r hr => ?_, ?_, ?_, ?_, ?_, ?_, ?_, ?_, ?_, fun hrotated => ?_⟩
  · rw [h.drawn]
    exact List.mem_map_of_mem hr
  all_goals try simp [hthreads]
  · simp [h.answers]
  · rw [h.rotated] at hrotated
    cases hrotated

/-- A call that begins has no row yet. -/
theorem storeInv_start (hinv : StoreInv w) {t : SnapshotCall × CallAt} (ht : t.2 = .start) : StoreInv ⟨w.shared, w.threads ++ [t]⟩ := by
  obtain ⟨call, a⟩ := t
  obtain rfl : a = .start := ht
  have hmem : ∀ {u}, u ∈ w.threads ++ [(call, CallAt.start)] → u ∈ w.threads ∨ u = (call, CallAt.start) := fun hu =>
    (List.mem_append.1 hu).imp id List.mem_singleton.1
  have hout : ∀ id, ∀ u ∈ w.threads ++ [(call, CallAt.start)], (∀ u ∈ w.threads, id ∉ u.2.evicting) → id ∉ u.2.evicting := fun id u hu hnone => by
    rcases hmem hu with hu | rfl
    · exact hnone u hu
    · exact List.not_mem_nil
  refine ⟨hinv.sorted, hinv.rows, fun u hu id hid => ?_, fun u hu id hid => ?_, fun i j u v id hi hj hu hv => ?_, fun u hu id hid v hv => ?_,
    fun u hu id hid => ?_, fun u hu id hid => ?_, fun u hu m hrot => ?_, hinv.there, fun hrotated => ?_⟩
  · rcases hmem hu with hu | rfl
    · exact hinv.mine u hu id hid
    · cases hid
  · rcases hmem hu with hu | rfl
    · exact hinv.pending u hu id hid
    · rcases hid with hid | hid <;> cases hid
  · rcases Conc.of_getElem?_append hi with hi | ⟨-, rfl⟩
    · rcases Conc.of_getElem?_append hj with hj | ⟨-, rfl⟩
      · exact hinv.apart i j u v id hi hj hu hv
      · cases hv
    · cases hu
  · rcases hmem hu with hu | rfl
    · exact hout id v hv (hinv.spared u hu id hid)
    · cases hid
  · rcases hmem hu with hu | rfl
    · obtain ⟨hnone, htargets⟩ := hinv.unput u hu id hid
      refine ⟨hnone, fun v hv => ?_⟩
      rcases hmem hv with hv | rfl
      · exact htargets v hv
      · exact List.not_mem_nil
    · cases hid
  · rcases hmem hu with hu | rfl
    · exact hinv.held u hu id hid
    · cases hid
  · rcases hmem hu with hu | rfl
    · exact hinv.rotating u hu m hrot
    · cases hrot
  · obtain ⟨f, hf, hflag, hunique, hnone⟩ := hinv.one hrotated
    exact ⟨f, hf, hflag, hunique, fun u hu => hout f.id u hu hnone⟩

/-- What is removed is no call's and not the one with the flag. -/
theorem storeInv_removal (hinv : StoreInv w) {rows : List SnapshotMetadata} (hsub : rows.Sublist w.shared.rows)
    (hguarded : ∀ r ∈ w.shared.rows, Guarded w r → r ∈ rows) : StoreInv ⟨{ w.shared with rows }, w.threads⟩ where
  sorted := hinv.sorted.sublist hsub
  rows r hr := hinv.rows r (hsub.subset hr)
  mine := hinv.mine
  pending := hinv.pending
  apart := hinv.apart
  spared := hinv.spared
  unput t ht id hid := by
    obtain ⟨hnone, htargets⟩ := hinv.unput t ht id hid
    exact ⟨fun r hr => hnone r (hsub.subset hr), htargets⟩
  held t ht id hid := by
    obtain ⟨r, hr, rfl⟩ := hinv.held t ht id hid
    exact ⟨r, hguarded r hr (.inr ⟨t, ht, hid⟩), rfl⟩
  rotating := hinv.rotating
  there := hinv.there
  one hrotated := by
    obtain ⟨f, hf, hflag, hunique, hnone⟩ := hinv.one hrotated
    exact ⟨f, hguarded f hf (.inl ⟨hrotated, hflag⟩), hflag, fun r hr => hunique r (hsub.subset hr), hnone⟩

theorem storeInv_runs (hr : snapshotStore.Runs StoreBegins Spares w tr) : StoreInv w := by
  refine hr.invariant (P := fun w _ => StoreInv w) (fun _ => storeInv_begins) fun w w' tr mv _ hinv hspares hstep => ?_
  rcases Conc.Stages.step_cases hstep with ⟨t, rfl, rfl⟩ | ⟨i, luck, t, t', s', rfl, hget, hact, rfl⟩ | ⟨o, rfl, rfl⟩
  · exact storeInv_start hinv (hspares.fresh.start t rfl)
  · obtain ⟨⟨a', s''⟩, hnext, heq⟩ := Option.map_eq_some_iff.1 hact
    obtain ⟨rfl, rfl⟩ := Prod.mk.inj heq
    exact (turned_next hinv hget hspares hnext).storeInv hinv hget
  · cases o with
    | deleteLocal id =>
      refine storeInv_removal hinv List.filter_sublist fun r hr hguarded => mem_deleteRows.2 ⟨hr, fun hid => ?_⟩
      exact hspares.delete id rfl r hr hguarded (List.mem_singleton.1 hid)
    | clear => exact storeInv_removal hinv (List.nil_sublist _) fun r hr hguarded => absurd hguarded (hspares.clear rfl r hr)

/-- In every run of moves that spare the rows of the calls, each call returns an id that is there, and there is one row with the flag from
the first rotation on. -/
theorem survives_of_runs (hr : snapshotStore.Runs StoreBegins Spares w tr) : Survives w.shared := by
  have hinv := storeInv_runs hr
  refine ⟨hinv.there, fun hrotated => ?_⟩
  obtain ⟨f, hf, hflag, hunique, -⟩ := hinv.one hrotated
  exact ⟨f, hf, hflag, hunique⟩

theorem freshMove_start {call : SnapshotCall} : FreshMove w (.start (call, .start)) :=
  ⟨fun _ ht => by cases ht; rfl, fun _ _ _ hmove => by cases hmove⟩

theorem freshMove_turn {i : Nat} {luck : StoreLuck} (h : luck.id ∉ w.shared.drawn ∨ ∀ t ∈ w.threads, t.2 ≠ .start) : FreshMove w (.turn i luck) := by
  refine ⟨fun _ hmove => (by cases hmove), fun _ _ t hmove hget hstart => ?_⟩
  cases hmove
  exact h.resolve_right fun hnone => hnone t (List.mem_of_getElem? hget) hstart

/-- Among few rows, all from before operations, nothing is crowded out. -/
theorem spares_of_few {i : Nat} {luck : StoreLuck} (hfresh : FreshMove w (.turn i luck)) (hpre : ∀ r ∈ w.shared.rows, isPreOp r = true)
    (hfew : w.shared.rows.length < preOpMax) (hcalm : w.shared.rotated = true → ∀ t ∈ w.threads, t.2.writes = none ∧ t.2.targets = []) :
    Spares w (.turn i luck) where
  fresh := hfresh
  list _ luck _ _ _ _ _ r hr _ := by
    rintro (⟨-, ahead, hnodup, hlength, hall⟩ | ⟨hnot, -⟩ | ⟨hnot, -⟩)
    · have hle := length_le_of_subset w.shared.rows hnodup fun m' hm' => (hall m' hm').1
      omega
    · exact absurd ((hpre r hr).symm.trans hnot) Bool.noConfusion
    · exact absurd ((hpre r hr).symm.trans hnot) Bool.noConfusion
  flag _ _ t m _ hget hwrites _ hrotated := by
    rw [(hcalm hrotated t (List.mem_of_getElem? hget)).1] at hwrites
    cases hwrites
  demote _ _ t targets _ hget hdemote _ hrotated r _ _ := by
    have htargets := (hcalm hrotated t (List.mem_of_getElem? hget)).2
    rw [hdemote] at htargets
    rw [show targets.map (·.id) = [] from htargets]
    exact List.not_mem_nil
  delete _ hmove := by cases hmove
  clear hmove := by cases hmove

theorem spares_start {call : SnapshotCall} : Spares w (.start (call, .start)) where
  fresh := freshMove_start
  list _ _ _ hmove := by cases hmove
  flag _ _ _ _ hmove := by cases hmove
  demote _ _ _ _ hmove := by cases hmove
  delete _ hmove := by cases hmove
  clear hmove := by cases hmove

def oneStored : Tabs := ⟨⟨[⟨"snap_a0", 1000, .preImport, false⟩], false, ["snap_a0"], []⟩, []⟩

/-- The pristine snapshot of a launch is rotated in, beside one from before an import. -/
theorem survives_rotation : ∃ w tr, snapshotStore.Runs StoreBegins Spares w tr ∧ w.shared.answers.map (·.1) = ["snap_b1"] ∧ w.shared.rotated = true ∧
    Survives w.shared := by
  have h0 : snapshotStore.Runs StoreBegins Spares oneStored [] := .init ⟨by decide, rfl, rfl, rfl, rfl⟩
  have h1 := h0.step spares_start (rfl : snapshotStore.step (.start (.rotateSessionPristine .preRestore, .start)) _ = some _)
  have h2 := h1.step (spares_of_few (freshMove_turn (.inl (by decide))) (by decide) (by decide) nofun)
    (rfl : snapshotStore.step (.turn 0 ⟨"snap_b1", 2000, .none⟩) _ = some _)
  have h3 := h2.step (spares_of_few (freshMove_turn (.inl (by decide))) (by decide) (by decide) nofun)
    (rfl : snapshotStore.step (.turn 0 ⟨"", 2000, .none⟩) _ = some _)
  have h4 := h3.step (spares_of_few (freshMove_turn (.inl (by decide))) (by decide) (by decide)
    fun _ t ht => by cases List.mem_singleton.1 ht; exact ⟨rfl, rfl⟩) (rfl : snapshotStore.step (.turn 0 ⟨"", 2000, .none⟩) _ = some _)
  have h5 := h4.step (spares_of_few (freshMove_turn (.inl (by decide))) (by decide) (by decide)
    fun _ t ht => by cases List.mem_singleton.1 ht; exact ⟨rfl, rfl⟩) (rfl : snapshotStore.step (.turn 0 ⟨"", 2000, .none⟩) _ = some _)
  exact ⟨_, _, h5, by decide, rfl, survives_of_runs h5⟩

def clockWasAhead : Tabs where
  shared := ⟨["snap_01", "snap_02", "snap_03", "snap_04", "snap_05"].map fun id => ⟨id, 2000, .preImport, false⟩, false,
    ["snap_01", "snap_02", "snap_03", "snap_04", "snap_05"], []⟩
  threads := []

/-- Five snapshots were stored while the clock was ahead: one made before an import by the right clock is deleted by the call that returns it. -/
theorem evicted_at_once : ∃ w tr, snapshotStore.Runs StoreBegins FreshMove w tr ∧ ¬ Survives w.shared := by
  have h0 : snapshotStore.Runs StoreBegins FreshMove clockWasAhead [] := .init ⟨by decide, rfl, rfl, rfl, rfl⟩
  have h1 := h0.step freshMove_start (rfl : snapshotStore.step (.start (.createSnapshot .preImport false, .start)) _ = some _)
  have h2 := h1.step (freshMove_turn (.inl (by decide))) (rfl : snapshotStore.step (.turn 0 ⟨"snap_f0", 1000, .none⟩) _ = some _)
  have h3 := h2.step (freshMove_turn (.inl (by decide))) (rfl : snapshotStore.step (.turn 0 ⟨"", 1000, .none⟩) _ = some _)
  have h4 := h3.step (freshMove_turn (.inl (by decide))) (rfl : snapshotStore.step (.turn 0 ⟨"", 1000, .none⟩) _ = some _)
  have h5 := h4.step (freshMove_turn (.inl (by decide))) (rfl : snapshotStore.step (.turn 0 ⟨"", 1000, .none⟩) _ = some _)
  refine ⟨_, _, h5, fun h => ?_⟩
  exact absurd (h.there ("snap_f0", clockWasAhead.shared.rows) (by decide)) (by decide)

end Runs

end Purdex.Sync
