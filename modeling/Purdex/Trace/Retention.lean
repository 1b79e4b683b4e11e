/-
Retention of the trace store: a transaction leaves what was stored, with what it saved, but for the shortest run of the oldest chains
whose removal brings the chains and their steps within the limits.
-/
import Purdex.Trace.Lossless
import Mathlib

namespace Purdex.Trace

/-! ## Eviction -/

/-- Both limits hold for these chains. -/
def WithinSteps (maxChains maxSteps : Int) (chains : List ChainRow) : Prop :=
  chains.length ≤ maxChains ∧ (chains.map fun chain => (chain.stepCount : Int)).sum ≤ maxSteps

/-- The list without the shortest run from its start that leaves what is asked for. -/
structure Shortest (within : List ChainRow → Prop) (chains evicted kept : List ChainRow) : Prop where
  split : chains = evicted ++ kept
  holds : within kept
  shortest : ∀ front back, chains = front ++ back → within back → evicted.length ≤ front.length

theorem Shortest.nothing {within : List ChainRow → Prop} {chains : List ChainRow} (h : within chains) : Shortest within chains [] chains where
  split := rfl
  holds := h
  shortest := fun _ _ _ _ => Nat.zero_le _

theorem Shortest.cons {within : List ChainRow → Prop} {chain : ChainRow} {chains evicted kept : List ChainRow}
    (hover : ¬within (chain :: chains)) (h : Shortest within chains evicted kept) : Shortest within (chain :: chains) (chain :: evicted) kept where
  split := congrArg (chain :: ·) h.split
  holds := h.holds
  shortest := by
    intro front back hsplit hback
    cases front with
    | nil =>
      rw [List.nil_append] at hsplit
      exact absurd (hsplit ▸ hback) hover
    | cons first front =>
      have htail := (List.cons.inj hsplit).2
      exact Nat.succ_le_succ (h.shortest front back htail hback)

/-- With the totals of the list the loop takes just that run. -/
theorem evictOldest_shortest {maxChains maxSteps : Int} (hchains : 0 ≤ maxChains) (hsteps : 0 ≤ maxSteps) (chains : List ChainRow) :
    ∃ evicted kept, Shortest (WithinSteps maxChains maxSteps) chains evicted kept ∧
      evictOldest maxChains maxSteps chains.length ((chains.map fun chain => (chain.stepCount : Int)).sum) chains = evicted.map (·.chainID) := by
  induction chains with
  | nil => exact ⟨[], [], .nothing ⟨hchains, hsteps⟩, rfl⟩
  | cons chain chains ih =>
    rw [evictOldest]
    split
    · rename_i hwithin
      exact ⟨[], chain :: chains, .nothing hwithin, rfl⟩
    · rename_i hover
      obtain ⟨evicted, kept, hshortest, hevict⟩ := ih
      refine ⟨chain :: evicted, kept, hshortest.cons hover, ?_⟩
      have hcount : ((chain :: chains).length : Int) - 1 = chains.length := by
        rw [List.length_cons]
        omega
      have hsum : ((chain :: chains).map fun chain => (chain.stepCount : Int)).sum - chain.stepCount =
          (chains.map fun chain => (chain.stepCount : Int)).sum := by
        rw [List.map_cons, List.sum_cons]
        omega
      rw [hcount, hsum, hevict, List.map_cons]

/-! ## What a transaction leaves -/

/-- The chains by the time they started, then by id. -/
def DB.oldestFirst (db : DB) : List ChainRow :=
  db.chains.insertionSort fun a b => a.startedAt < b.startedAt ∨ a.startedAt = b.startedAt ∧ a.chainID ≤ b.chainID

theorem DB.oldestFirst_perm (db : DB) : db.oldestFirst.Perm db.chains := List.perm_insertionSort _ _

theorem DB.oldestFirst_ids (db : DB) : (db.oldestFirst.map (·.chainID)).Nodup :=
  (db.oldestFirst_perm.map (·.chainID)).nodup_iff.2 db.chainIDs

/-- The chains and rows are those of before without the shortest run of the oldest. -/
def Retains (within : List ChainRow → Prop) (saved db' : DB) : Prop :=
  ∃ evicted kept, Shortest within saved.oldestFirst evicted kept ∧
    db'.chains = saved.chains.filter (· ∈ kept) ∧ db'.steps = saved.steps.filter (·.chainID ∈ kept.map (·.chainID))

theorem prune_retains {maxChains maxSteps : Int} (hchains : 0 ≤ maxChains) (hsteps : 0 ≤ maxSteps) (saved : DB) :
    Retains (WithinSteps maxChains maxSteps) saved (pruneTraceChains maxChains maxSteps saved) := by
  obtain ⟨evicted, kept, hshortest, hevict⟩ := evictOldest_shortest hchains hsteps saved.oldestFirst
  have hids := saved.oldestFirst_ids
  rw [hshortest.split, List.map_append, List.nodup_append] at hids
  have hmem : ∀ chain ∈ saved.chains, chain ∈ evicted ∨ chain ∈ kept := fun chain hchain =>
    List.mem_append.1 (hshortest.split ▸ saved.oldestFirst_perm.mem_iff.2 hchain)
  -- a chain is evicted by its id, and no other has that id
  have hside : ∀ chain ∈ saved.chains, chain.chainID ∉ evicted.map (·.chainID) ↔ chain ∈ kept := by
    intro chain hchain
    constructor
    · exact fun hnot => (hmem chain hchain).resolve_left fun h => hnot (List.mem_map.2 ⟨chain, h, rfl⟩)
    · exact fun hkept hevicted => hids.2.2 _ hevicted _ (List.mem_map.2 ⟨chain, hkept, rfl⟩) rfl
  have hpruned : pruneTraceChains maxChains maxSteps saved = saved.deleteChains (evicted.map (·.chainID)) :=
    congrArg saved.deleteChains hevict
  refine ⟨evicted, kept, hshortest, ?_, ?_⟩
  · rw [hpruned]
    exact List.filter_congr fun chain hchain => by simp only [hside chain hchain]
  · rw [hpruned]
    refine List.filter_congr fun row hrow => ?_
    obtain ⟨chain, hchain, heq⟩ := List.mem_map.1 (saved.owned row hrow)
    rw [← heq]
    simp only [decide_eq_decide]
    refine (hside chain hchain).trans ⟨fun h => List.mem_map.2 ⟨chain, h, rfl⟩, fun h => ?_⟩
    exact (hside chain hchain).1 fun hevicted => hids.2.2 _ hevicted _ h rfl

/-- The tables with the record in them: every other chain as it was, this one as it was normalized. -/
structure Saves (sup : Supply) (updatedAt : Int) (record : TraceRecord) (db saved : DB) : Prop where
  written : ∃ chain steps, normalizeTraceRecord sup record = .ok (chain, steps) ∧
    saved.chainRow chain.chainID = some ⟨chain, updatedAt, (planTraceRootDedup steps).rootPayload⟩ ∧
    saved.stepRows chain.chainID = plannedRows steps ∧ ∀ id, id ≠ chain.chainID → DB.Same id db saved

theorem traceLimits_pos (store : TraceStore) : 0 < store.traceLimits.1 ∧ 0 < store.traceLimits.2 := by
  unfold TraceStore.traceLimits
  constructor
  · dsimp only
    split <;> omega
  · dsimp only
    split <;> omega

/-- An accepted transaction leaves what it found with what it saved, but for the shortest run of the oldest chains over the limits on
chains and steps. -/
theorem saveChain_retains (store : TraceStore) (sup : Supply) (updatedAt : Int) (record : TraceRecord) (db db' : DB)
    (h : store.saveChain sup updatedAt record db = .ok db') :
    ∃ saved, Saves sup updatedAt record db saved ∧ Retains (WithinSteps store.traceLimits.1 store.traceLimits.2) saved db' := by
  obtain ⟨⟨chain, steps⟩, hn, h⟩ := except_bind_ok h
  obtain ⟨saved, hi, h⟩ := except_bind_ok h
  cases h
  have hrows := plannedRows_chainID (normalizeTraceRecord_ok hn)
  have hi : insertSteps _ (plannedRows steps) = .ok saved := hi
  refine ⟨saved, ⟨⟨chain, steps, hn, ?_, ?_, ?_⟩⟩, prune_retains (traceLimits_pos store).1.le (traceLimits_pos store).2.le saved⟩
  · rw [DB.chainRow, (DB.insertSteps_ok hi).1]
    exact DB.chainRow_upsertChain_self _ ⟨chain, updatedAt, _⟩
  · rw [DB.stepRows_insertSteps hi hrows, DB.stepRows, DB.upsertChain_steps]
    rw [show (db.deleteSteps chain.chainID).steps.filter (·.chainID = chain.chainID) = [] from
      DB.stepRows_deleteSteps_self db chain.chainID, List.nil_append]
  · intro id hid
    exact ((DB.same_deleteSteps hid.symm db).trans (DB.same_upsertChain hid.symm _)).trans (DB.same_insertSteps hi hrows hid.symm)

theorem saveChain_retains_sample :
    ∃ db' saved, Saves ⟨"", fun _ => "", fun _ => 0⟩ 9 sampleRecord DB.empty saved ∧ Retains (WithinSteps 1 2) saved db' :=
  ⟨_, saveChain_retains ⟨1, 2⟩ ⟨"", fun _ => "", fun _ => 0⟩ 9 sampleRecord DB.empty _ rfl⟩

/-! ## Bytes -/

def StepRow.bytes (row : StepRow) : Int := (row.payloadJSON.length + row.beforeJSON.length + row.afterJSON.length : Nat)

/-- What is stored of a chain: its payloads and those of its steps. -/
def ChainRow.bytes (db : DB) (chain : ChainRow) : Int :=
  chain.rootPayloadJSON.length + ((db.stepRows chain.chainID).map StepRow.bytes).sum

/-- Both limits, with one on bytes. -/
def WithinBytes (db : DB) (maxChains maxBytes : Int) (chains : List ChainRow) : Prop :=
  chains.length ≤ maxChains ∧ (chains.map (ChainRow.bytes db)).sum ≤ maxBytes

/-- A chain of one step without payloads. -/
def oneStep : TraceRecord where
  chain := ⟨"c", 0, 0, "", "", "", "%1", "cc", "", "", "", "", "", 0⟩
  steps := [⟨"a", "", "", 1, "request", "", "", "", "", "", "", "", "", [], [], [], 7⟩]

/-- What a transaction of it leaves: the chain, and in its step three times `null`. -/
theorem oneStep_saved : ((TraceStore.saveChain ⟨10, 1⟩ ⟨"", fun _ => "", fun _ => 0⟩ 9 oneStep DB.empty).toOption.map fun db =>
    (db.chains.map (·.chainID), db.steps.map fun row => (row.chainID, row.bytes))) = some (["c"], [("c", 12)]) := by decide

/-- The chain stays where the second limit is one, which its bytes are over. -/
theorem bytes_unbounded : ¬∀ store sup updatedAt record db db', TraceStore.saveChain store sup updatedAt record db = .ok db' →
    ∃ saved, Saves sup updatedAt record db saved ∧ Retains (WithinBytes saved store.traceLimits.1 store.traceLimits.2) saved db' := by
  intro hall
  have hsaved := oneStep_saved
  cases hsave : TraceStore.saveChain ⟨10, 1⟩ ⟨"", fun _ => "", fun _ => 0⟩ 9 oneStep DB.empty with
  | error e =>
    rw [hsave] at hsaved
    cases hsaved
  | ok db' =>
  rw [hsave] at hsaved
  obtain ⟨hids, hsizes⟩ := Prod.mk.inj (Option.some.inj hsaved)
  obtain ⟨saved, -, evicted, kept, hshortest, hchains, hsteps⟩ := hall _ _ _ _ _ _ hsave
  have hpos : ∀ row : StepRow, 0 ≤ row.bytes := fun _ => Int.natCast_nonneg _
  have hsum : ∀ chain : ChainRow, 0 ≤ ((saved.stepRows chain.chainID).map StepRow.bytes).sum := fun chain =>
    List.sum_nonneg fun n hn => by
      obtain ⟨row, -, rfl⟩ := List.mem_map.1 hn
      exact hpos row
  obtain ⟨chain, hchain, hid⟩ := List.mem_map.1 (hids ▸ List.mem_singleton_self "c" : "c" ∈ db'.chains.map (·.chainID))
  obtain ⟨row, hrow, hrowsize⟩ :=
    List.mem_map.1 (hsizes ▸ List.mem_singleton_self ("c", 12) : (("c", 12) : String × Int) ∈ db'.steps.map fun row => (row.chainID, row.bytes))
  obtain ⟨hrowid, hbytes⟩ := Prod.mk.inj hrowsize
  rw [hchains] at hchain
  rw [hsteps] at hrow
  have hkept : chain ∈ kept := by simpa using (List.mem_filter.1 hchain).2
  have hstep : row ∈ saved.stepRows chain.chainID := List.mem_filter.2 ⟨(List.mem_filter.1 hrow).1, by simp [hrowid, hid]⟩
  have hlarge : 12 ≤ chain.bytes saved := by
    have := List.single_le_sum (fun n hn => ?_) row.bytes (List.mem_map.2 ⟨row, hstep, rfl⟩)
    · unfold ChainRow.bytes
      omega
    · obtain ⟨row, -, rfl⟩ := List.mem_map.1 hn
      exact hpos row
  have hover := List.single_le_sum (fun n hn => ?_) (chain.bytes saved) (List.mem_map.2 ⟨chain, hkept, rfl⟩)
  · have hwithin : _ ≤ (1 : Int) := hshortest.holds.2
    omega
  · obtain ⟨chain, -, rfl⟩ := List.mem_map.1 hn
    have := hsum chain
    unfold ChainRow.bytes
    omega

end Purdex.Trace
