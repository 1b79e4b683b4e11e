/-
The bundle of a group as a register: what its members pull is what was pushed last, and its history
is what was pushed before, as long as the pushes are stored in full and pruning can tell them apart.
-/
import Mathlib.Data.List.Perm.Subperm
import Purdex.Sync.Members

namespace Purdex.Sync

open Conc

/-! ## The latest of a list -/

section Latest

variable {α : Type} {key : α → Int} {old new sorted : List α} {k : Nat}

/-- The first `k` of a list from the latest to the earliest are those later than all the others. -/
theorem mem_take_latest (hperm : sorted.Perm (old ++ new)) (hsorted : sorted.Pairwise fun a b => key b ≤ key a)
    (hnodup : (old ++ new).Nodup) (hlt : ∀ a ∈ old, ∀ b ∈ new, key a < key b) (hlen : new.length = k) (a : α) :
    a ∈ sorted.take k ↔ a ∈ new := by
  have hnd : sorted.Nodup := hperm.nodup_iff.2 hnodup
  have hnew : new.Nodup := (List.nodup_append.1 hnodup).2.1
  have htake : (sorted.take k).Nodup := hnd.sublist (List.take_sublist k sorted)
  have hlength : (sorted.take k).length = k := by
    rw [List.length_take, hperm.length_eq, List.length_append]
    omega
  -- one of the later elements among the rest would leave room for only `k - 1` of them
  have hsub : new ⊆ sorted.take k := by
    intro b hb
    by_contra hnot
    have hdrop : b ∈ sorted.drop k := by
      have hmem : b ∈ sorted.take k ++ sorted.drop k := by
        rw [List.take_append_drop]
        exact hperm.mem_iff.2 (List.mem_append_right _ hb)
      exact (List.mem_append.1 hmem).resolve_left hnot
    have htakenew : b :: sorted.take k ⊆ new := by
      intro c hc
      rcases List.mem_cons.1 hc with rfl | hc
      · exact hb
      · have hle : key b ≤ key c := by
          rw [← List.take_append_drop k sorted, List.pairwise_append] at hsorted
          exact hsorted.2.2 c hc b hdrop
        rcases List.mem_append.1 (hperm.mem_iff.1 (List.mem_of_mem_take hc)) with hold | hnew
        · exact absurd (hlt c hold b hb) (not_lt.2 hle)
        · exact hnew
    have hcount := (List.Nodup.subperm (List.nodup_cons.2 ⟨hnot, htake⟩) htakenew).length_le
    simp only [List.length_cons, hlength, hlen] at hcount
    omega
  have hperm' := (List.Nodup.subperm hnew hsub).perm_of_length_le (by rw [hlength, hlen])
  exact hperm'.mem_iff.symm

end Latest

/-! ## Pruning -/

section Prune

variable {β : Type}

/-- The history of a group, the oldest row first. -/
def DB.groupRows (db : DB β) (groupID : String) : List (HistoryRow β) :=
  db.history.filter fun row => row.groupID = groupID

/-- How many rows are too many. -/
def surplus (n : Nat) : Nat := n - DB.keptEntries

/-- The rows beyond the limit were all written before the second of the first one within it. -/
def Apart (stamps : List Int) : Prop :=
  ∀ a ∈ stamps.take (surplus stamps.length), ∀ b ∈ stamps.drop (surplus stamps.length), a < b

theorem groupRows_ids (db : DB β) (groupID : String) : (db.groupRows groupID).Pairwise (·.id < ·.id) :=
  db.historyIDs.filter _

theorem groupRows_nodup (db : DB β) (groupID : String) : (db.groupRows groupID).Nodup :=
  (groupRows_ids db groupID).imp fun h heq => absurd (congrArg HistoryRow.id heq) (Nat.ne_of_lt h)

theorem eq_of_id {rows : List (HistoryRow β)} (h : rows.Pairwise (·.id < ·.id)) {a b : HistoryRow β} (ha : a ∈ rows)
    (hb : b ∈ rows) (hid : a.id = b.id) : a = b :=
  List.inj_on_of_nodup_map (f := HistoryRow.id) (List.pairwise_map.2 (h.imp Nat.ne_of_lt)) ha hb hid

instance : Std.Total fun a b : HistoryRow β => b.timestamp ≤ a.timestamp where
  total a b := le_total b.timestamp a.timestamp

instance : IsTrans (HistoryRow β) fun a b => b.timestamp ≤ a.timestamp where
  trans _ _ _ hab hbc := le_trans hbc hab

/-- The kept rows are the last ones, in whatever order rows of one second come up. -/
theorem mem_keptIDs {rows shuffled : List (HistoryRow β)} (hids : rows.Pairwise (·.id < ·.id)) (hperm : shuffled.Perm rows)
    (hapart : Apart (rows.map (·.timestamp))) {row : HistoryRow β} (hrow : row ∈ rows) :
    row.id ∈ DB.keptIDs shuffled ↔ row ∈ rows.drop (surplus rows.length) := by
  have hsplit : rows.take (surplus rows.length) ++ rows.drop (surplus rows.length) = rows := List.take_append_drop _ _
  have hnodup : rows.Nodup := hids.imp fun h heq => absurd (congrArg HistoryRow.id heq) (Nat.ne_of_lt h)
  have hsorted := (List.perm_insertionSort (fun a b : HistoryRow β => b.timestamp ≤ a.timestamp) shuffled).trans hperm
  have hmem : row.id ∈ DB.keptIDs shuffled ↔
      row ∈ (shuffled.insertionSort fun a b => b.timestamp ≤ a.timestamp).take DB.keptEntries := by
    rw [DB.keptIDs, List.mem_map]
    constructor
    · rintro ⟨r, hr, hid⟩
      rw [← eq_of_id hids (hsorted.mem_iff.1 (List.mem_of_mem_take hr)) hrow hid]
      exact hr
    · exact fun h => ⟨row, h, rfl⟩
  rw [hmem]
  by_cases hle : rows.length ≤ DB.keptEntries
  · rw [surplus, Nat.sub_eq_zero_of_le hle, List.drop_zero, List.take_of_length_le (hsorted.length_eq.trans_le hle)]
    exact hsorted.mem_iff
  · have hperm' := hsplit.symm ▸ hsorted
    have hlt : ∀ a ∈ rows.take (surplus rows.length), ∀ b ∈ rows.drop (surplus rows.length), a.timestamp < b.timestamp := by
      intro a ha b hb
      refine hapart _ ?_ _ ?_
      · rw [List.length_map, ← List.map_take]
        exact List.mem_map_of_mem ha
      · rw [List.length_map, ← List.map_drop]
        exact List.mem_map_of_mem hb
    have hlen : (rows.drop (surplus rows.length)).length = DB.keptEntries := by
      rw [List.length_drop, surplus]
      omega
    exact mem_take_latest hperm' (List.pairwise_insertionSort _ shuffled) (hsplit.symm ▸ hnodup) hlt hlen row

theorem filter_eq_drop {α : Type} {rows : List α} (hnodup : rows.Nodup) {n : Nat} {p : α → Bool}
    (hp : ∀ a ∈ rows, p a = true ↔ a ∈ rows.drop n) : rows.filter p = rows.drop n := by
  have hsplit : rows.take n ++ rows.drop n = rows := List.take_append_drop n rows
  have hdisjoint := (List.nodup_append.1 (hsplit.symm ▸ hnodup)).2.2
  have hold : (rows.take n).filter p = [] := by
    refine List.filter_eq_nil_iff.2 fun a ha h => ?_
    exact hdisjoint a ha a ((hp a (List.mem_of_mem_take ha)).1 h) rfl
  have hnew : (rows.drop n).filter p = rows.drop n :=
    List.filter_eq_self.2 fun a ha => (hp a (List.mem_of_mem_drop ha)).2 ha
  calc rows.filter p = (rows.take n ++ rows.drop n).filter p := by rw [hsplit]
    _ = rows.drop n := by rw [List.filter_append, hold, hnew, List.nil_append]

theorem groupRows_pruneHistory (db : DB β) (groupID : String) {order : List (HistoryRow β) → List (HistoryRow β)}
    (horder : ∀ rows, (order rows).Perm rows) (hapart : Apart ((db.groupRows groupID).map (·.timestamp))) :
    (db.pruneHistory order groupID).groupRows groupID =
      (db.groupRows groupID).drop (surplus (db.groupRows groupID).length) := by
  have hfilter : (db.pruneHistory order groupID).groupRows groupID =
      (db.groupRows groupID).filter fun row => row.id ∈ DB.keptIDs (order (db.groupRows groupID)) := by
    simp only [DB.groupRows, DB.pruneHistory, List.filter_filter]
    refine List.filter_congr fun row _ => ?_
    by_cases h : row.groupID = groupID
    · simp only [h, decide_true, ne_eq, not_true_eq_false, decide_false, Bool.false_or, Bool.and_true]
      rfl
    · simp [h]
  rw [hfilter]
  refine filter_eq_drop (groupRows_nodup db groupID) fun row hrow => ?_
  rw [decide_eq_true_eq]
  exact mem_keptIDs (groupRows_ids db groupID) (horder _) hapart hrow

end Prune

/-! ## One push -/

section Push

variable {β : Type}

/-- The bundle of a group, if it has a row. -/
def DB.bundleOf (db : DB β) (groupID : String) : Option β :=
  (db.canonical.find? fun row => row.groupID = groupID).map (·.bundle)

/-- A member of the group and of no other. -/
def InGroup (groupID : String) (db : DB β) (clientID : String) : Prop :=
  ∀ g, (g, clientID) ∈ db.members ↔ some groupID = some g

theorem bundleOf_upsertCanonical (db : DB β) (row : CanonicalRow β) :
    (db.upsertCanonical row).bundleOf row.groupID = some row.bundle := by
  unfold DB.bundleOf DB.upsertCanonical
  split
  · rename_i h
    obtain ⟨r, hr, hkey⟩ := h
    have hrow : row ∈ db.canonical.map fun r => if r.groupID = row.groupID then row else r :=
      List.mem_map.2 ⟨r, hr, if_pos hkey⟩
    cases hfind : (db.canonical.map fun r => if r.groupID = row.groupID then row else r).find?
        fun r => r.groupID = row.groupID with
    | none => exact absurd (List.find?_eq_none.1 hfind row hrow) (by simp)
    | some found =>
      obtain ⟨r', _, rfl⟩ := List.mem_map.1 (List.mem_of_find?_eq_some hfind)
      have hfound := List.find?_some hfind
      by_cases hr' : r'.groupID = row.groupID
      · simp [hr']
      · simp [hr'] at hfound
  · rename_i h
    have hnone : (db.canonical.find? fun r => r.groupID = row.groupID) = none := by
      simpa using fun r hr heq => h ⟨r, hr, heq⟩
    simp [List.find?_append, hnone]

@[simp] theorem upsertCanonical_history (db : DB β) (row : CanonicalRow β) :
    (db.upsertCanonical row).history = db.history := by
  unfold DB.upsertCanonical
  split <;> rfl

@[simp] theorem upsertCanonical_tick (db : DB β) (row : CanonicalRow β) :
    (db.upsertCanonical row).tick = db.tick := by
  unfold DB.upsertCanonical
  split <;> rfl

theorem groupRows_insertHistory (db : DB β) (groupID clientID device : String) (bundle : β) (now : Int) :
    (db.insertHistory groupID clientID device bundle now).groupRows groupID =
      db.groupRows groupID ++ [⟨db.nextID, groupID, clientID, device, bundle, now⟩] := by
  simp [DB.groupRows, DB.insertHistory]

/-- What a push did, by the failures of its statements: nothing; the bundle alone; or all of it. -/
inductive Pushed (env : Env β) (groupID clientID : String) (bundle : β) (db : DB β) : Except Err Unit × DB β → Prop where
  | refused {err : Err} {db' : DB β} : db'.canonical = db.canonical → db'.history = db.history →
      Pushed env groupID clientID bundle db (.error err, db')
  | torn {err : Err} {db' : DB β} : env.fails db.tick = false → env.fails (db.tick + 2) = false →
      env.fails (db.tick + 5) = false → env.fails (db.tick + 6) = true → db'.bundleOf groupID = some bundle →
      Pushed env groupID clientID bundle db (.error err, db')
  | stored {db' : DB β} (row : HistoryRow β) : env.fails db.tick = false → env.fails (db.tick + 2) = false →
      env.fails (db.tick + 5) = false → db'.bundleOf groupID = some bundle → row.clientID = clientID →
      row.bundle = bundle → row.timestamp = env.clock (db.tick + 3) →
      (env.fails (db.tick + 7) = true → db'.groupRows groupID = db.groupRows groupID ++ [row]) →
      (env.fails (db.tick + 7) = false → Apart ((db.groupRows groupID ++ [row]).map (·.timestamp)) →
        db'.groupRows groupID =
          (db.groupRows groupID ++ [row]).drop (surplus (db.groupRows groupID ++ [row]).length)) →
      Pushed env groupID clientID bundle db (.ok (), db')

/-- The three statements that store a bundle. -/
theorem eval_storing [Inhabited β] (env : Env β) {groupID clientID device : String} {db d : DB β} (bundle : β)
    (hcanonical : d.canonical = db.canonical) (hhistory : d.history = db.history) (htick : d.tick = db.tick + 5)
    (hf₀ : env.fails db.tick = false) (hf₂ : env.fails (db.tick + 2) = false) :
    Pushed env groupID clientID bundle db
      ((do execute (Prog.call (I := iface β) (.upsertCanonical groupID (env.clock (db.tick + 3)) bundle))
           execute (Prog.call (I := iface β) (.insertHistory groupID clientID device bundle (env.clock (db.tick + 3))))
           let _ ← ask (.pruneHistory groupID)
           return () : Code β Unit).run.eval (I := iface β) (exec env) d) := by
  rw [eval_execute_seq, Prog.eval_call]
  have hupsert := write_cases env d (d.upsertCanonical ⟨groupID, env.clock (db.tick + 3), bundle⟩)
  simp only [exec]
  rcases hupsert with ⟨_, hw⟩ | ⟨hf₅, hw⟩
  · rw [hw]
    exact .refused hcanonical hhistory
  · rw [hw]
    dsimp only
    rw [eval_execute_seq, Prog.eval_call]
    generalize hu : (d.upsertCanonical ⟨groupID, env.clock (db.tick + 3), bundle⟩).next = u
    have hbundle : u.bundleOf groupID = some bundle := by
      rw [← hu]
      exact bundleOf_upsertCanonical d ⟨groupID, env.clock (db.tick + 3), bundle⟩
    have hrows : u.groupRows groupID = db.groupRows groupID := by
      rw [← hu]
      simp [DB.groupRows, hhistory]
    have hutick : u.tick = db.tick + 6 := by
      rw [← hu]
      simp [DB.next, htick]
    rw [htick] at hf₅
    have hinsert := write_cases env u (u.insertHistory groupID clientID device bundle (env.clock (db.tick + 3)))
    simp only [exec]
    rcases hinsert with ⟨hf₆, hw⟩ | ⟨_, hw⟩
    · rw [hw]
      exact .torn hf₀ hf₂ hf₅ (hutick ▸ hf₆) hbundle
    · rw [hw]
      dsimp only
      rw [eval_ask_seq, eval_run_pure]
      generalize hi : (u.insertHistory groupID clientID device bundle (env.clock (db.tick + 3))).next = i
      have hirows : i.groupRows groupID =
          db.groupRows groupID ++ [⟨u.nextID, groupID, clientID, device, bundle, env.clock (db.tick + 3)⟩] := by
        rw [← hi, ← hrows]
        exact groupRows_insertHistory u groupID clientID device bundle (env.clock (db.tick + 3))
      have hitick : i.tick = db.tick + 7 := by
        rw [← hi]
        exact congrArg (· + 1) hutick
      have hibundle : i.bundleOf groupID = some bundle := by
        rw [← hi]
        exact hbundle
      simp only [exec]
      refine .stored ⟨u.nextID, groupID, clientID, device, bundle, env.clock (db.tick + 3)⟩ hf₀ hf₂ hf₅ ?_ rfl rfl rfl ?_ ?_
      · rw [← hibundle]
        exact write_frame env i _ (DB.bundleOf · groupID) (fun _ => rfl) rfl
      · intro hf₇
        rw [← hirows]
        rcases write_cases env i (i.pruneHistory (env.ties i.tick) groupID) with ⟨_, hw⟩ | ⟨hf, _⟩
        · rw [hw]
          rfl
        · exact absurd (hitick ▸ hf₇) (by simp [hf])
      · intro hf₇ hapart
        rw [← hirows] at hapart ⊢
        rcases write_cases env i (i.pruneHistory (env.ties i.tick) groupID) with ⟨hf, _⟩ | ⟨_, hw⟩
        · exact absurd (hitick ▸ hf₇) (by simp [hf])
        · rw [hw]
          exact groupRows_pruneHistory i groupID (env.ties_perm i.tick) hapart

theorem eval_pushBundle [Inhabited β] (env : Env β) {groupID clientID : String} {db : DB β} (h : InGroup groupID db clientID)
    (bundle : β) : Pushed env groupID clientID bundle db
      ((pushBundle clientID bundle).run.eval (I := iface β) (exec env) db) := by
  unfold pushBundle
  rw [eval_run_bind, eval_clientGroupID env h]
  cases hf₀ : env.fails db.tick with
  | true => exact .refused rfl rfl
  | false =>
    simp only [Bool.false_eq_true, if_false, groupOrError]
    rw [eval_run_bind, updateLastSeen, eval_getTime_seq, eval_execute, Prog.eval_call]
    have htouch := write_cases env db.next.next (db.next.next.touch groupID clientID (env.clock db.next.tick))
    simp only [exec]
    rcases htouch with ⟨_, hw⟩ | ⟨hf₂, hw⟩
    · rw [hw]
      exact .refused rfl rfl
    · rw [hw]
      dsimp only
      rw [eval_getTime_seq, eval_ask_seq]
      exact eval_storing env bundle rfl rfl rfl hf₀ hf₂

end Push

/-! ## One pull and one listing -/

section Read

variable {β : Type} [Inhabited β] (env : Env β) {groupID clientID : String} {db : DB β}

theorem eval_pullCanonical (h : InGroup groupID db clientID) :
    ((pullCanonical clientID).run.eval (I := iface β) (exec env) db).1 =
        (if env.fails db.tick ∨ env.fails (db.tick + 2) ∨ env.fails (db.tick + 3) then .error .store
          else .ok ((db.bundleOf groupID).getD default)) ∧
      ((pullCanonical clientID).run.eval (I := iface β) (exec env) db).2.canonical = db.canonical ∧
        ((pullCanonical clientID).run.eval (I := iface β) (exec env) db).2.history = db.history := by
  unfold pullCanonical
  rw [eval_run_bind, eval_clientGroupID env h]
  cases hf₀ : env.fails db.tick with
  | true => exact ⟨by simp [groupOrError], rfl, rfl⟩
  | false =>
    simp only [Bool.false_eq_true, if_false, groupOrError, false_or]
    rw [eval_run_bind, updateLastSeen, eval_getTime_seq, eval_execute, Prog.eval_call]
    have htouch := write_cases env db.next.next (db.next.next.touch groupID clientID (env.clock db.next.tick))
    simp only [exec]
    rcases htouch with ⟨hf₂, hw⟩ | ⟨hf₂, hw⟩
    · rw [hw]
      exact ⟨(if_pos (.inl hf₂)).symm, rfl, rfl⟩
    · rw [hw]
      dsimp only
      rw [eval_query_seq, Prog.eval_call]
      simp only [exec, read]
      have hf₂' : env.fails (db.tick + 2) = false := hf₂
      have htick : (db.next.next.touch groupID clientID (env.clock db.next.tick)).next.tick = db.tick + 3 := rfl
      rw [htick]
      cases hf₃ : env.fails (db.tick + 3) with
      | true => exact ⟨by simp, rfl, rfl⟩
      | false =>
        simp only [hf₂', Bool.false_eq_true, or_self, if_false]
        exact ⟨rfl, rfl, rfl⟩

theorem eval_listHistory (h : InGroup groupID db clientID) (limit : Nat) :
    ((listHistory clientID limit).run.eval (I := iface β) (exec env) db).1 =
        (if env.fails db.tick ∨ env.fails (db.tick + 1) then .error .store
          else .ok ((db.groupRows groupID).reverse.take limit)) ∧
      ((listHistory clientID limit).run.eval (I := iface β) (exec env) db).2.canonical = db.canonical ∧
        ((listHistory clientID limit).run.eval (I := iface β) (exec env) db).2.history = db.history := by
  unfold listHistory
  rw [eval_run_bind, eval_clientGroupID env h]
  cases hf₀ : env.fails db.tick with
  | true => exact ⟨by simp [groupOrError], rfl, rfl⟩
  | false =>
    simp only [Bool.false_eq_true, if_false, groupOrError, false_or]
    rw [eval_query, Prog.eval_call]
    simp only [exec, read]
    have htick : db.next.tick = db.tick + 1 := rfl
    rw [htick]
    cases hf₁ : env.fails (db.tick + 1) with
    | true => exact ⟨by simp, rfl, rfl⟩
    | false => exact ⟨by simp [DB.groupRows], rfl, rfl⟩

end Read

/-! ## The register -/

/-- The pushes that were answered with success, the latest first: who pushed which body. -/
def pushes : List (ServedRequest Bytes Body) → List (String × Bytes)
  | [] => []
  | s :: t =>
    match s.request, s.reply with
    | .push clientID body, .noContent => (clientID, body.bytes) :: pushes t
    | _, _ => pushes t

/-- What a pull answers after these pushes. -/
def lastPush : List (String × Bytes) → Reply Bytes
  | [] => .null
  | (_, bytes) :: _ => .bundle bytes

def HistoryRow.push (row : HistoryRow Bytes) : String × Bytes := (row.clientID, row.bundle)

variable (env : Env Bytes) (groupID : String)

/-- The body arrives whole, is not empty, and fits. -/
def Whole (body : Body) : Prop := body.broken = false ∧ body.bytes ≠ [] ∧ body.bytes.length ≤ maxBody

/-- A bundle that is stored gets its row of history, and pruning, when there is something to prune,
does not fail and finds the row to remove older than all the others. -/
def Storable (db : DB Bytes) : Prop :=
  env.fails db.tick = false → env.fails (db.tick + 2) = false → env.fails (db.tick + 5) = false →
    env.fails (db.tick + 6) = false ∧
      (0 < surplus ((db.groupRows groupID).length + 1) → env.fails (db.tick + 7) = false ∧
        Apart ((db.groupRows groupID).map (·.timestamp) ++ [env.clock (db.tick + 3)]))

/-- A push, a pull or a listing by a member. -/
def ByMember (db : DB Bytes) : Request Body → Prop
  | .push clientID _ => InGroup groupID db clientID
  | .pull clientID => InGroup groupID db clientID
  | .history clientID _ => InGroup groupID db clientID
  | _ => False

/-- A push, a pull or a listing by a member, and of a push that it is refused unread or stored in full. -/
def Fits (db : DB Bytes) : Request Body → Prop
  | .push clientID body => InGroup groupID db clientID ∧
    (readAll body = none ∨ Whole body ∧ Storable env groupID db)
  | .pull clientID => InGroup groupID db clientID
  | .history clientID _ => InGroup groupID db clientID
  | _ => False

/-- What the register promises of a state and of what was served before: a pull answers the last
push, a push that is refused changes nothing, and a listing gives the pushes, the latest first. -/
structure Exact (db : DB Bytes) (t : List (ServedRequest Bytes Body)) : Prop where
  pull : ∀ clientID, clientID ≠ "" → InGroup groupID db clientID → (serveIn env readAll (.pull clientID) db).1 =
    if env.fails db.tick ∨ env.fails (db.tick + 2) ∨ env.fails (db.tick + 3) then .error badRequest .store
    else lastPush (pushes t)
  refused : ∀ clientID body, Fits env groupID db (.push clientID body) →
    (serveIn env readAll (.push clientID body) db).1 ≠ .noContent →
    (serveIn env readAll (.push clientID body) db).2.canonical = db.canonical ∧
      (serveIn env readAll (.push clientID body) db).2.history = db.history
  list : ∀ clientID limit, InGroup groupID db clientID →
    (((listHistory clientID limit).run.eval (I := iface Bytes) (exec env) db).1.map (·.map HistoryRow.push)) =
      if env.fails db.tick ∨ env.fails (db.tick + 1) then .error .store
      else .ok ((pushes t).take (min limit DB.keptEntries))

/-- Nothing was pushed to the group yet. -/
def Unpushed (db : DB Bytes) : Prop := (db.bundleOf groupID).getD default = default ∧ db.groupRows groupID = []

/-- What the state keeps of the pushes: the bundle of the last one, and the rows of the latest. -/
structure Keeps (db : DB Bytes) (ps : List (String × Bytes)) : Prop where
  bundle : (db.bundleOf groupID).getD default = (ps.head?.map Prod.snd).getD default
  rows : (db.groupRows groupID).map HistoryRow.push = (ps.take DB.keptEntries).reverse
  whole : ∀ p ∈ ps, p.2 ≠ []

variable {env groupID} {db db' : DB Bytes} {ps : List (String × Bytes)}

theorem Keeps.congr (h : Keeps groupID db ps) (hc : db'.canonical = db.canonical) (hh : db'.history = db.history) :
    Keeps groupID db' ps := by
  have hbundle : db'.bundleOf groupID = db.bundleOf groupID := by rw [DB.bundleOf, DB.bundleOf, hc]
  have hrows : db'.groupRows groupID = db.groupRows groupID := by rw [DB.groupRows, DB.groupRows, hh]
  exact ⟨hbundle ▸ h.bundle, hrows ▸ h.rows, h.whole⟩

/-- The latest of one push more. -/
theorem latest_cons (p : String × Bytes) (ps : List (String × Bytes)) :
    ((ps.take DB.keptEntries).reverse ++ [p]).drop (surplus ((ps.take DB.keptEntries).length + 1)) =
      ((p :: ps).take DB.keptEntries).reverse := by
  have hcons : (ps.take DB.keptEntries).reverse ++ [p] = (p :: ps.take DB.keptEntries).reverse := by simp
  rw [hcons, List.drop_reverse]
  refine congrArg List.reverse ?_
  have hlen : (ps.take DB.keptEntries).length = min DB.keptEntries ps.length := List.length_take
  simp only [List.length_cons, surplus, hlen]
  by_cases hle : ps.length < DB.keptEntries
  · rw [List.take_of_length_le (l := ps) (by omega), List.take_of_length_le (by simp; omega), List.take_of_length_le (by simp; omega)]
  · have hk : DB.keptEntries = 99 + 1 := rfl
    have hmin : min DB.keptEntries ps.length + 1 - (min DB.keptEntries ps.length + 1 - DB.keptEntries) = 99 + 1 := by omega
    rw [hmin, hk, List.take_succ_cons, List.take_succ_cons, List.take_take]
    simp

theorem apart_of_no_surplus {stamps : List Int} (h : surplus stamps.length = 0) : Apart stamps := by
  unfold Apart
  rw [h]
  simp

theorem readAll_whole {body : Body} (h : Whole body) : readAll body = some body.bytes := by
  unfold readAll
  rw [if_neg (by simp [h.1]), List.take_of_length_le h.2.2]

/-- A stored push becomes the last one, and its row the latest. -/
theorem Keeps.stored {row : HistoryRow Bytes} (hk : Keeps groupID db ps) (hrow : row.bundle ≠ [])
    (hbundle : db'.bundleOf groupID = some row.bundle) (hstamp : row.timestamp = env.clock (db.tick + 3))
    (hprune : 0 < surplus ((db.groupRows groupID).length + 1) → env.fails (db.tick + 7) = false ∧
      Apart ((db.groupRows groupID).map (·.timestamp) ++ [env.clock (db.tick + 3)]))
    (hkept : env.fails (db.tick + 7) = true → db'.groupRows groupID = db.groupRows groupID ++ [row])
    (hpruned : env.fails (db.tick + 7) = false → Apart ((db.groupRows groupID ++ [row]).map (·.timestamp)) →
      db'.groupRows groupID = (db.groupRows groupID ++ [row]).drop (surplus (db.groupRows groupID ++ [row]).length)) :
    Keeps groupID db' (row.push :: ps) := by
  have hlen : (db.groupRows groupID ++ [row]).length = (db.groupRows groupID).length + 1 := by simp
  have hstamps : (db.groupRows groupID ++ [row]).map (·.timestamp) =
      (db.groupRows groupID).map (·.timestamp) ++ [env.clock (db.tick + 3)] := by simp [hstamp]
  have hrows : db'.groupRows groupID =
      (db.groupRows groupID ++ [row]).drop (surplus ((db.groupRows groupID).length + 1)) := by
    rcases Nat.eq_zero_or_pos (surplus ((db.groupRows groupID).length + 1)) with hnone | hsome
    · -- nothing to prune, so it does not matter whether pruning fails
      have hapart : Apart ((db.groupRows groupID ++ [row]).map (·.timestamp)) :=
        apart_of_no_surplus (by rw [List.length_map, hlen, hnone])
      cases hf₇ : env.fails (db.tick + 7) with
      | true => rw [hkept hf₇, hnone, List.drop_zero]
      | false => rw [hpruned hf₇ hapart, hlen]
    · obtain ⟨hf₇, hapart⟩ := hprune hsome
      rw [hpruned hf₇ (hstamps ▸ hapart), hlen]
  refine ⟨by rw [hbundle]; rfl, ?_, ?_⟩
  · have hcount : (db.groupRows groupID).length = (ps.take DB.keptEntries).length := by
      rw [← List.length_map (f := HistoryRow.push), hk.rows, List.length_reverse]
    rw [hrows, List.map_drop, List.map_append, hk.rows, hcount]
    exact latest_cons row.push ps
  · intro p hp
    rcases List.mem_cons.1 hp with rfl | hp
    · exact hrow
    · exact hk.whole p hp

/-- A push is refused and changes nothing, or is answered with success and becomes the last one. -/
theorem push_step {clientID : String} {body : Body} (hk : Keeps groupID db ps) (hfits : Fits env groupID db (.push clientID body)) :
    ((serveIn env readAll (.push clientID body) db).1 ≠ .noContent ∧
      (serveIn env readAll (.push clientID body) db).2.canonical = db.canonical ∧
        (serveIn env readAll (.push clientID body) db).2.history = db.history) ∨
    ((serveIn env readAll (.push clientID body) db).1 = .noContent ∧
      Keeps groupID (serveIn env readAll (.push clientID body) db).2 ((clientID, body.bytes) :: ps)) := by
  obtain ⟨hin, hbody⟩ := hfits
  simp only [serveIn, serve, handlePush]
  split
  · exact .inl ⟨nofun, rfl, rfl⟩
  · rcases hbody with hnone | ⟨hwhole, hstorable⟩
    · rw [hnone]
      exact .inl ⟨nofun, rfl, rfl⟩
    · rw [readAll_whole hwhole]
      dsimp only
      rw [eval_orError]
      have hpushed := eval_pushBundle env hin body.bytes
      generalize (pushBundle clientID body.bytes).run.eval (I := iface Bytes) (exec env) db = out at hpushed
      cases hpushed with
      | refused hc hh => exact .inl ⟨nofun, hc, hh⟩
      | torn hf₀ hf₂ hf₅ hf₆ _ => exact absurd (hstorable hf₀ hf₂ hf₅).1 (by simp [hf₆])
      | stored row hf₀ hf₂ hf₅ hbundle hclient hbytes hstamp hkept hpruned =>
        have hrow : row.push = (clientID, body.bytes) := by rw [HistoryRow.push, hclient, hbytes]
        refine .inr ⟨rfl, ?_⟩
        rw [← hrow]
        exact hk.stored (hbytes ▸ hwhole.2.1) (hbytes ▸ hbundle) hstamp (hstorable hf₀ hf₂ hf₅).2 hkept hpruned

/-- A pull answers the last push. -/
theorem pull_reply {clientID : String} (hk : Keeps groupID db ps) (hid : clientID ≠ "") (hin : InGroup groupID db clientID) :
    (serveIn env readAll (.pull clientID) db).1 =
      if env.fails db.tick ∨ env.fails (db.tick + 2) ∨ env.fails (db.tick + 3) then .error badRequest .store
      else lastPush ps := by
  simp only [serveIn, serve, handlePull]
  rw [if_neg hid, eval_orError, (eval_pullCanonical env hin).1]
  by_cases hf : env.fails db.tick ∨ env.fails (db.tick + 2) ∨ env.fails (db.tick + 3)
  · rw [if_pos hf, if_pos hf]
  · rw [if_neg hf, if_neg hf, hk.bundle]
    cases ps with
    | nil => rfl
    | cons p ps =>
      have hne : p.2 ≠ default := hk.whole p (by simp)
      simp [lastPush, hne, Prog.eval]

theorem pull_keeps (hk : Keeps groupID db ps) {clientID : String} (hin : InGroup groupID db clientID) :
    Keeps groupID (serveIn env readAll (.pull clientID) db).2 ps := by
  simp only [serveIn, serve, handlePull]
  split
  · exact hk
  · rw [eval_orError_snd (exec env) db fun bundle s => by split <;> rfl]
    exact hk.congr (eval_pullCanonical env hin).2.1 (eval_pullCanonical env hin).2.2

theorem history_keeps (hk : Keeps groupID db ps) {clientID : String} (hin : InGroup groupID db clientID)
    (limit : Option Int) : Keeps groupID (serveIn env readAll (.history clientID limit) db).2 ps := by
  simp only [serveIn, serve, handleHistory]
  split
  · exact hk
  · rw [eval_orError_snd (exec env) db fun _ _ => rfl, listHistorySummary, eval_run_bind]
    have hlist := eval_listHistory env hin (historyLimit limit)
    split
    · exact hk.congr hlist.2.1 hlist.2.2
    · exact hk.congr hlist.2.1 hlist.2.2

theorem pushes_refused {req : Request Body} {reply : Reply Bytes} (h : reply ≠ .noContent)
    (t : List (ServedRequest Bytes Body)) : pushes (⟨req, db, reply⟩ :: t) = pushes t := by
  rw [pushes]
  split
  · rename_i hreply
    exact absurd hreply h
  · rfl

theorem register_exact (env : Env Bytes) (groupID : String) (db : DB Bytes) (t : List (ServedRequest Bytes Body))
    (hr : Serves (serveIn env readAll) (Unpushed groupID) (Fits env groupID) db t) : Exact env groupID db t := by
  have hk : Keeps groupID db (pushes t) := by
    induction hr with
    | init hs => exact ⟨hs.1, by rw [hs.2]; rfl, by simp [pushes]⟩
    | @step db t req _ hfits ih =>
      cases req with
      | push clientID body =>
        rcases push_step ih hfits with ⟨hne, hc, hh⟩ | ⟨heq, hk⟩
        · rw [pushes_refused hne]
          exact ih.congr hc hh
        · rw [heq]
          exact hk
      | pull clientID => exact pull_keeps ih hfits
      | history clientID limit => exact history_keeps ih hfits limit
      | _ => exact hfits.elim
  refine ⟨fun clientID hid hin => pull_reply hk hid hin, fun clientID body hfits hne => ?_, fun clientID limit hin => ?_⟩
  · rcases push_step hk hfits with ⟨_, hc, hh⟩ | ⟨heq, _⟩
    · exact ⟨hc, hh⟩
    · exact absurd heq hne
  · rw [(eval_listHistory env hin limit).1]
    by_cases hf : env.fails db.tick ∨ env.fails (db.tick + 1)
    · rw [if_pos hf, if_pos hf]
      rfl
    · rw [if_neg hf, if_neg hf]
      have htake : (((db.groupRows groupID).reverse.take limit).map HistoryRow.push) =
          (pushes t).take (min limit DB.keptEntries) := by
        rw [List.map_take, List.map_reverse, hk.rows, List.reverse_reverse, List.take_take]
      exact congrArg Except.ok htake

/-! ## Runs -/

def calmBytes : Env Bytes := .calm fun _ => []

/-- One group with one client, and no bundle. -/
def newGroup : DB Bytes := (DB.empty.insertGroup "g_1").upsertMember ⟨"g_1", "c_1", "", 0⟩

theorem unpushed_newGroup : Unpushed "g_1" newGroup := ⟨rfl, rfl⟩

theorem inGroup_of_members {db : DB Bytes} (h : db.members = [("g_1", "c_1")]) : InGroup "g_1" db "c_1" := by
  intro g
  simp [h, eq_comm]

theorem storable_of_few {db : DB Bytes} (h : (db.groupRows "g_1").length < DB.keptEntries) :
    Storable calmBytes "g_1" db := by
  refine fun _ _ _ => ⟨rfl, fun hsurplus => ?_⟩
  unfold surplus at hsurplus
  omega

/-- Two pushes and a pull. -/
def pushingTwice : List (Request Body) := [.push "c_1" ⟨[123, 125], false⟩, .push "c_1" ⟨[91, 93], false⟩, .pull "c_1"]

theorem fits_pushingTwice : AllOk (serveIn calmBytes readAll) (Fits calmBytes "g_1") pushingTwice newGroup := by
  refine ⟨⟨inGroup_of_members rfl, .inr ⟨⟨rfl, by decide, by decide⟩, storable_of_few (by decide)⟩⟩,
    ⟨inGroup_of_members ?_, .inr ⟨⟨rfl, by decide, by decide⟩, storable_of_few ?_⟩⟩, inGroup_of_members ?_, trivial⟩
  · decide
  · decide
  · decide

theorem register_exact_pushingTwice : Exact calmBytes "g_1" (serveAll (serveIn calmBytes readAll) pushingTwice newGroup []).1
    (serveAll (serveIn calmBytes readAll) pushingTwice newGroup []).2 :=
  register_exact calmBytes "g_1" _ _ ((Serves.init unpushed_newGroup).all fits_pushingTwice)

/-- An empty body is stored, answered with success, and pulled as none. -/
theorem empty_push_lost : ¬ ∀ db t, Serves (serveIn calmBytes readAll) (Unpushed "g_1") (ByMember "g_1") db t →
    Exact calmBytes "g_1" db t := by
  intro h
  have hok : AllOk (serveIn calmBytes readAll) (ByMember "g_1") [.push "c_1" ⟨[], false⟩] newGroup :=
    ⟨inGroup_of_members rfl, trivial⟩
  have hexact := h _ _ ((Serves.init unpushed_newGroup).all hok)
  have hpull := hexact.pull "c_1" (by decide) (inGroup_of_members (by decide))
  exact absurd hpull (by decide)

end Purdex.Sync
