/-
What every list and every scope of the path cache keeps, and what brings a list into that form.
-/
import Purdex.PathCache.Store
import Mathlib.Algebra.Order.Ring.Rat

namespace Purdex.PathCache

open Json

variable {entry e : PathCacheEntry} {l cleaned : List PathCacheEntry} {item value : Raw} {items : List Raw}

/-! ## Lists -/

/-- Of directories in their normal form, each of them once, and not too many. -/
structure Tidy (l : List PathCacheEntry) : Prop where
  few : l.length ≤ maxDirsPerScope
  once : (l.map (·.dir)).Nodup
  normal : ∀ e ∈ l, normalizeDir e.dir = some e.dir
  finite : ∀ e ∈ l, isFinite e.touchedAt = true

theorem Tidy.nil : Tidy [] := ⟨Nat.zero_le _, List.nodup_nil, fun _ h => absurd h List.not_mem_nil, fun _ h => absurd h List.not_mem_nil⟩

theorem Tidy.sublist {l' : List PathCacheEntry} (h : Tidy l) (hl : l'.Sublist l) : Tidy l' where
  few := Nat.le_trans hl.length_le h.few
  once := (hl.map _).nodup h.once
  normal := fun e he => h.normal e (hl.subset he)
  finite := fun e he => h.finite e (hl.subset he)

theorem Tidy.concat (h : Tidy l) (hlength : l.length < maxDirsPerScope) (hnew : e.dir ∉ l.map (·.dir)) (hnormal : normalizeDir e.dir = some e.dir)
    (hfinite : isFinite e.touchedAt = true) : Tidy (l ++ [e]) where
  few := by
    rw [List.length_append]
    exact hlength
  once := by
    rw [List.map_append, List.nodup_append]
    refine ⟨h.once, List.nodup_singleton _, fun dir hdir dir' hdir' heq => hnew ?_⟩
    have hsame : dir = e.dir := heq.trans (List.mem_singleton.1 hdir')
    exact hsame ▸ hdir
  normal := List.forall_mem_append.2 ⟨h.normal, List.forall_mem_singleton.2 hnormal⟩
  finite := List.forall_mem_append.2 ⟨h.finite, List.forall_mem_singleton.2 hfinite⟩

theorem tidy_upsertEntry (hl : Tidy l) (hnormal : normalizeDir entry.dir = some entry.dir) (hfinite : isFinite entry.touchedAt = true) :
    Tidy (upsertEntry (some l) entry) := by
  have hrest : ∀ e ∈ l.filter (·.dir ≠ entry.dir), e ∈ l ∧ e.dir ≠ entry.dir := fun e he => by simpa using he
  have honce : ((entry :: l.filter (·.dir ≠ entry.dir)).map (·.dir)).Nodup := by
    rw [List.map_cons, List.nodup_cons]
    refine ⟨fun hmem => ?_, (List.filter_sublist.map _).nodup hl.once⟩
    obtain ⟨e, he, hdir⟩ := List.mem_map.1 hmem
    exact (hrest e he).2 hdir
  have hmem : ∀ e ∈ upsertEntry (some l) entry, e = entry ∨ e ∈ l := fun e he =>
    (List.mem_cons.1 (List.mem_of_mem_take he)).imp_right fun he => (hrest e he).1
  refine ⟨List.length_take_le _ _, ((List.take_sublist _ _).map _).nodup honce, fun e he => ?_, fun e he => ?_⟩
  · rcases hmem e he with rfl | he
    · exact hnormal
    · exact hl.normal e he
  · rcases hmem e he with rfl | he
    · exact hfinite
    · exact hl.finite e he

theorem upsertEntry_ne_nil (list : Option (List PathCacheEntry)) (entry : PathCacheEntry) : upsertEntry list entry ≠ [] := List.cons_ne_nil _ _

/-! ## Lists that come back -/

theorem entryOf_normal (h : entryOf item = some e) : normalizeDir e.dir = some e.dir ∧ isFinite e.touchedAt = true := by
  unfold entryOf at h
  split at h
  · split at h
    · obtain ⟨dir, hdir, rfl⟩ := Option.map_eq_some_iff.1 h
      refine ⟨normalizeDir_idem hdir, ?_⟩
      simp only
      split
      · split
        · assumption
        · decide +kernel
      · decide +kernel
    · cases h
  · cases h

theorem tidy_sanitizeItems (hcleaned : Tidy cleaned) (hlength : cleaned.length < maxDirsPerScope) : Tidy (sanitizeItems items cleaned) := by
  induction items generalizing cleaned with
  | nil => exact hcleaned
  | cons item items ih =>
    rw [sanitizeItems]
    cases hentry : entryOf item with
    | none => exact ih hcleaned hlength
    | some e =>
      obtain ⟨hnormal, hfinite⟩ := entryOf_normal hentry
      simp only
      split
      · exact ih hcleaned hlength
      · rename_i hnew
        have hnext := hcleaned.concat hlength hnew hnormal hfinite
        split
        · exact hnext
        · rename_i hroom
          exact ih hnext (Nat.not_le.1 hroom)

theorem tidy_sanitizeEntries (value : Raw) : Tidy (sanitizeEntries value) := by
  unfold sanitizeEntries
  split
  · exact tidy_sanitizeItems .nil (by decide)
  · exact .nil

/-- A list with an item that is an entry. -/
def HasEntry (value : Raw) : Prop := ∃ items, value = .arr items ∧ ∃ item ∈ items, (entryOf item).isSome = true

theorem subset_sanitizeItems (items : List Raw) (cleaned : List PathCacheEntry) : cleaned ⊆ sanitizeItems items cleaned := by
  induction items generalizing cleaned with
  | nil => exact List.Subset.refl _
  | cons item items ih =>
    rw [sanitizeItems]
    split
    · exact ih cleaned
    · rename_i entry _
      split
      · exact ih cleaned
      · split
        · exact List.subset_append_left _ _
        · exact List.Subset.trans (List.subset_append_left _ [entry]) (ih _)

theorem sanitizeItems_eq_nil : sanitizeItems items [] = [] ↔ ∀ item ∈ items, entryOf item = none := by
  induction items with
  | nil => exact ⟨fun _ _ h => absurd h List.not_mem_nil, fun _ => rfl⟩
  | cons item items ih =>
    rw [sanitizeItems, List.forall_mem_cons]
    cases hentry : entryOf item with
    | none => exact ih.trans (and_iff_right rfl).symm
    | some e =>
      have hmem : e ∈ sanitizeItems items [e] := subset_sanitizeItems items [e] List.mem_cons_self
      constructor
      · intro h
        have hroom : ¬maxDirsPerScope ≤ ([] ++ [e]).length := show ¬50 ≤ 1 by decide
        simp only [List.map_nil, List.not_mem_nil, if_false] at h
        rw [if_neg hroom] at h
        exact absurd (h ▸ hmem) List.not_mem_nil
      · exact fun h => nomatch h.1

theorem sanitizeEntries_ne_nil : sanitizeEntries value ≠ [] ↔ HasEntry value := by
  cases value with
  | arr items =>
    rw [sanitizeEntries, ne_eq, sanitizeItems_eq_nil]
    constructor
    · intro h
      obtain ⟨item, h⟩ := not_forall.1 h
      obtain ⟨hitem, hentry⟩ := Classical.not_imp.1 h
      exact ⟨items, rfl, item, hitem, Option.isSome_iff_ne_none.2 hentry⟩
    · rintro ⟨_, heq, item, hitem, hentry⟩ hnone
      cases heq
      rw [hnone item hitem] at hentry
      cases hentry
  | _ => exact ⟨fun h => absurd rfl h, fun ⟨_, heq, _⟩ => nomatch heq⟩

namespace Scopes

theorem entryOf_rawEntry (hnormal : normalizeDir e.dir = some e.dir) (hfinite : isFinite e.touchedAt = true) : entryOf (rawEntry e) = some e := by
  have hdir : [("dir", Raw.str e.dir), ("sessionCode", .str e.sessionCode), ("touchedAt", .num e.touchedAt)].lookup "dir" = some (.str e.dir) := rfl
  have hcode : [("dir", Raw.str e.dir), ("sessionCode", .str e.sessionCode), ("touchedAt", .num e.touchedAt)].lookup "sessionCode" =
      some (.str e.sessionCode) := rfl
  have htime : [("dir", Raw.str e.dir), ("sessionCode", .str e.sessionCode), ("touchedAt", .num e.touchedAt)].lookup "touchedAt" =
      some (.num e.touchedAt) := rfl
  unfold entryOf rawEntry
  simp only [hdir, hcode, htime, hnormal, Option.map_some]
  rw [if_pos hfinite]

theorem sanitizeItems_rawEntry (h : Tidy (cleaned ++ l)) : sanitizeItems (l.map rawEntry) cleaned = cleaned ++ l := by
  induction l generalizing cleaned with
  | nil => exact (List.append_nil _).symm
  | cons e l ih =>
    have hmem : e ∈ cleaned ++ e :: l := List.mem_append_right _ List.mem_cons_self
    have hnew : e.dir ∉ cleaned.map (·.dir) := by
      have honce := h.once
      rw [List.map_append, List.nodup_append] at honce
      exact fun hdir => honce.2.2 e.dir hdir e.dir (List.mem_map_of_mem List.mem_cons_self) rfl
    have hrest : cleaned ++ e :: l = (cleaned ++ [e]) ++ l := by rw [List.append_assoc, List.singleton_append]
    rw [List.map_cons, sanitizeItems, entryOf_rawEntry (h.normal e hmem) (h.finite e hmem)]
    simp only
    rw [if_neg hnew]
    rw [hrest] at h ⊢
    split
    · -- no room for a rest
      rename_i hfull
      have hfew : (cleaned ++ [e]).length + l.length ≤ maxDirsPerScope := List.length_append ▸ h.few
      have hrest : l.length = 0 := by omega
      rw [List.length_eq_zero_iff.1 hrest, List.append_nil]
    · exact ih h

theorem sanitizeEntries_rawEntry (h : Tidy l) : sanitizeEntries (.arr (l.map rawEntry)) = l := sanitizeItems_rawEntry h

end Scopes

/-! ## Lists that are looked up -/

theorem byRecency_perm (l : List PathCacheEntry) : (byRecency l).Perm l := List.mergeSort_perm _ _

theorem pairwise_byRecency (l : List PathCacheEntry) : (byRecency l).Pairwise fun a b => b.touchedAt ≤ a.touchedAt := by
  refine List.Pairwise.imp (fun h => of_decide_eq_true h) (List.pairwise_mergeSort ?_ ?_ l)
  · simp only [decide_eq_true_eq]
    exact fun _ _ _ hab hbc => le_trans hbc hab
  · simp only [Bool.or_eq_true, decide_eq_true_eq]
    exact fun _ _ => le_total _ _

/-- The entry is of the session that is asked about. -/
def IsCurrent (currentSessionCode : Option String) (e : PathCacheEntry) : Prop := currentSessionCode = some e.sessionCode ∧ e.sessionCode ≠ ""

/-- Entries of the session before the others, and of the same group the later before the earlier. -/
def Before (currentSessionCode : Option String) (a b : PathCacheEntry) : Prop :=
  (IsCurrent currentSessionCode b → IsCurrent currentSessionCode a) ∧
    ((IsCurrent currentSessionCode a ↔ IsCurrent currentSessionCode b) → b.touchedAt ≤ a.touchedAt)

theorem rankCandidates_perm (l : List PathCacheEntry) (currentSessionCode : Option String) : (rankCandidates l currentSessionCode).Perm l := by
  unfold rankCandidates
  split
  · exact byRecency_perm l
  · split
    · exact byRecency_perm l
    · rename_i code _
      have hsplit := List.filter_append_perm (fun e => decide (e.sessionCode = code)) l
      simp only [← decide_not] at hsplit
      exact ((byRecency_perm _).append (byRecency_perm _)).trans hsplit

theorem pairwise_rankCandidates (l : List PathCacheEntry) (currentSessionCode : Option String) :
    (rankCandidates l currentSessionCode).Pairwise (Before currentSessionCode) := by
  have hone : (∀ e, ¬IsCurrent currentSessionCode e) → (byRecency l).Pairwise (Before currentSessionCode) := fun hnone =>
    (pairwise_byRecency l).imp fun h => ⟨fun hb => absurd hb (hnone _), fun _ => h⟩
  unfold rankCandidates
  split
  · exact hone fun _ h => nomatch h.1
  · rename_i code
    split
    · rename_i hempty
      exact hone fun e h => h.2 ((Option.some.inj h.1).symm.trans hempty)
    · rename_i hcode
      have hsame : ∀ e ∈ byRecency (l.filter (·.sessionCode = code)), IsCurrent (some code) e := fun e he => by
        have hof : e.sessionCode = code := by simpa using List.of_mem_filter ((byRecency_perm _).mem_iff.1 he)
        exact ⟨congrArg some hof.symm, fun hnil => hcode (hof.symm.trans hnil)⟩
      have hother : ∀ e ∈ byRecency (l.filter (·.sessionCode ≠ code)), ¬IsCurrent (some code) e := fun e he h => by
        have hof : e.sessionCode ≠ code := by simpa using List.of_mem_filter ((byRecency_perm _).mem_iff.1 he)
        exact hof (Option.some.inj h.1).symm
      refine List.pairwise_append.2 ⟨?_, ?_, fun a ha b hb => ?_⟩
      · exact (pairwise_byRecency _).imp_of_mem fun ha _ h => ⟨fun _ => hsame _ ha, fun _ => h⟩
      · exact (pairwise_byRecency _).imp_of_mem fun _ hb h => ⟨fun hcurrent => absurd hcurrent (hother _ hb), fun _ => h⟩
      · exact ⟨fun _ => hsame a ha, fun hiff => absurd (hiff.1 (hsame a ha)) (hother b hb)⟩

end Purdex.PathCache
