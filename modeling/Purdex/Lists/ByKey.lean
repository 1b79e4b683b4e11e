/-
Lists whose elements are told apart by a key: the elements of one list that another does not have yet,
appended to it, the elements with one key put together, and the first and the last of a list put in order.
-/
import Mathlib.Data.List.Sort
import Mathlib.Data.List.Nodup
import Mathlib.Data.List.Induction

namespace ByKey

variable {α κ : Type}

/-! ## Appending what is new -/

section Append

variable [DecidableEq κ] (key : α → κ)

/-- The elements of the second list, in their order, where nothing with their key stands before them. -/
def appendNew (l extra : List α) : List α :=
  extra.foldl (fun acc a => if acc.any (fun b => key b = key a) then acc else acc ++ [a]) l

theorem appendNew_cons (l : List α) (a : α) (extra : List α) :
    appendNew key l (a :: extra) = appendNew key (if ∃ b ∈ l, key b = key a then l else l ++ [a]) extra := by
  simp only [appendNew, List.foldl_cons, List.any_eq_true, decide_eq_true_eq]

theorem subset_appendNew (l extra : List α) : l ⊆ appendNew key l extra := by
  induction extra generalizing l with
  | nil => exact fun _ h => h
  | cons a extra ih =>
    rw [appendNew_cons]
    refine fun b hb => ih _ ?_
    split
    · exact hb
    · exact List.mem_append_left _ hb

/-- Nothing comes in from elsewhere. -/
theorem mem_of_mem_appendNew {l extra : List α} {b : α} (h : b ∈ appendNew key l extra) : b ∈ l ∨ b ∈ extra := by
  induction extra generalizing l with
  | nil => exact .inl h
  | cons a extra ih =>
    rw [appendNew_cons] at h
    rcases ih h with h | h
    · split at h
      · exact .inl h
      · rcases List.mem_append.1 h with h | h
        · exact .inl h
        · exact .inr (List.mem_cons.2 (.inl (List.mem_singleton.1 h)))
    · exact .inr (List.mem_cons_of_mem _ h)

/-- Every key of either list is a key of the result. -/
theorem exists_key_appendNew {l extra : List α} {a : α} (h : a ∈ extra) : ∃ b ∈ appendNew key l extra, key b = key a := by
  induction extra generalizing l with
  | nil => simp at h
  | cons c extra ih =>
    rw [appendNew_cons]
    rcases List.mem_cons.1 h with rfl | h
    · split
      · next hb =>
        obtain ⟨b, hb, hkey⟩ := hb
        exact ⟨b, subset_appendNew key _ _ hb, hkey⟩
      · exact ⟨a, subset_appendNew key _ _ (by simp), rfl⟩
    · exact ih h

theorem appendNew_nodup {l : List α} (h : (l.map key).Nodup) (extra : List α) :
    ((appendNew key l extra).map key).Nodup := by
  induction extra generalizing l with
  | nil => exact h
  | cons a extra ih =>
    rw [appendNew_cons]
    refine ih ?_
    split
    · exact h
    · next hnew =>
      rw [List.map_append, List.map_singleton, List.nodup_append]
      refine ⟨h, List.nodup_singleton _, fun k hk k' hk' => ?_⟩
      obtain ⟨b, hb, rfl⟩ := List.mem_map.1 hk
      rw [List.mem_singleton.1 hk']
      exact fun heq => hnew ⟨b, hb, heq⟩

/-- The keys of the result are those of the two lists. -/
theorem mem_keys_appendNew {l extra : List α} {k : κ} :
    k ∈ (appendNew key l extra).map key ↔ k ∈ l.map key ∨ k ∈ extra.map key := by
  simp only [List.mem_map]
  constructor
  · rintro ⟨b, hb, rfl⟩
    exact (mem_of_mem_appendNew key hb).imp (⟨b, ·, rfl⟩) (⟨b, ·, rfl⟩)
  · rintro (⟨b, hb, rfl⟩ | ⟨a, ha, rfl⟩)
    · exact ⟨b, subset_appendNew key _ _ hb, rfl⟩
    · exact exists_key_appendNew key ha

end Append

/-! ## Grouping -/

/-- Elements with one key, and what was noted of the first of them. -/
structure Group (κ τ α : Type) where
  key : κ
  tag : τ
  items : List α

section Grouping

variable {τ : Type} [DecidableEq κ] (key : α → κ) (tag : α → τ)

def Group.add (a : α) (g : Group κ τ α) : Group κ τ α := if g.key = key a then { g with items := g.items ++ [a] } else g

/-- An element goes to the end of its group, which is made for the first. -/
def addTo (groups : List (Group κ τ α)) (a : α) : List (Group κ τ α) :=
  if ∃ g ∈ groups, g.key = key a then groups.map (Group.add key a) else groups ++ [⟨key a, tag a, [a]⟩]

/-- The groups of a list, in the order in which their keys come. -/
def group (l : List α) : List (Group κ τ α) := l.foldl (addTo key tag) []

/-- Each group holds all the elements with its key, in their order, and is noted as one of them is. -/
structure Grouped (l : List α) (groups : List (Group κ τ α)) : Prop where
  keys : (groups.map (·.key)).Nodup
  items : ∀ g ∈ groups, g.items = l.filter fun a => key a = g.key
  tag : ∀ g ∈ groups, ∃ a ∈ g.items, g.tag = tag a
  covers : ∀ a ∈ l, ∃ g ∈ groups, g.key = key a

variable {key tag} {l : List α} {groups : List (Group κ τ α)}

@[simp] theorem Group.add_key (a : α) (g : Group κ τ α) : (g.add key a).key = g.key := by
  unfold Group.add
  split <;> rfl

@[simp] theorem Group.add_tag (a : α) (g : Group κ τ α) : (g.add key a).tag = g.tag := by
  unfold Group.add
  split <;> rfl

theorem Group.add_items (a : α) (g : Group κ τ α) : (g.add key a).items = g.items ++ if g.key = key a then [a] else [] := by
  unfold Group.add
  split
  · rfl
  · exact (List.append_nil _).symm

theorem Grouped.addTo (h : Grouped key tag l groups) (a : α) : Grouped key tag (l ++ [a]) (ByKey.addTo key tag groups a) := by
  unfold ByKey.addTo
  split
  · rename_i hold
    constructor
    · rw [List.map_map, show (·.key) ∘ Group.add key a = (·.key) from funext (Group.add_key a)]
      exact h.keys
    · intro g' hg'
      obtain ⟨g, hg, rfl⟩ := List.mem_map.1 hg'
      rw [Group.add_key, Group.add_items, List.filter_append, List.filter_cons, List.filter_nil, ← h.items g hg]
      by_cases heq : g.key = key a
      · simp [heq]
      · simp [heq, Ne.symm heq]
    · intro g' hg'
      obtain ⟨g, hg, rfl⟩ := List.mem_map.1 hg'
      obtain ⟨b, hb, htag⟩ := h.tag g hg
      rw [Group.add_tag, Group.add_items]
      exact ⟨b, List.mem_append_left _ hb, htag⟩
    · intro b hb
      have hcovers : ∃ g ∈ groups, g.key = key b := by
        rcases List.mem_append.1 hb with hb | hb
        · exact h.covers b hb
        · rw [List.mem_singleton.1 hb]
          exact hold
      obtain ⟨g, hg, heq⟩ := hcovers
      exact ⟨_, List.mem_map_of_mem hg, (Group.add_key a g).trans heq⟩
  · rename_i hnew
    have hother : ∀ g ∈ groups, key a ≠ g.key := fun g hg heq => hnew ⟨g, hg, heq.symm⟩
    constructor
    · rw [List.map_append, List.map_singleton, List.nodup_append]
      refine ⟨h.keys, List.nodup_singleton _, ?_⟩
      rintro k hk k' hk' rfl
      obtain ⟨g, hg, rfl⟩ := List.mem_map.1 hk
      exact hother g hg (List.mem_singleton.1 hk').symm
    · intro g hg
      rw [List.filter_append]
      rcases List.mem_append.1 hg with hg | hg
      · rw [← h.items g hg, List.filter_cons_of_neg (by simpa using hother g hg), List.filter_nil, List.append_nil]
      · obtain rfl := List.mem_singleton.1 hg
        -- nobody with its key came before it
        have hnone : l.filter (fun b => key b = key a) = [] := by
          rw [List.filter_eq_nil_iff]
          intro b hb heq
          obtain ⟨g, hg, hgb⟩ := h.covers b hb
          exact hother g hg ((of_decide_eq_true heq).symm.trans hgb.symm)
        simp [hnone]
    · intro g hg
      rcases List.mem_append.1 hg with hg | hg
      · exact h.tag g hg
      · rw [List.mem_singleton.1 hg]
        exact ⟨a, List.mem_singleton_self a, rfl⟩
    · intro b hb
      rcases List.mem_append.1 hb with hb | hb
      · obtain ⟨g, hg, heq⟩ := h.covers b hb
        exact ⟨g, List.mem_append_left _ hg, heq⟩
      · rw [List.mem_singleton.1 hb]
        exact ⟨_, List.mem_append_right _ (List.mem_singleton_self _), rfl⟩

theorem grouped_group (key : α → κ) (tag : α → τ) (l : List α) : Grouped key tag l (group key tag l) := by
  induction l using List.reverseRecOn with
  | nil => exact ⟨List.nodup_nil, by simp [group], by simp [group], by simp⟩
  | append_singleton l a ih =>
    rw [group, List.foldl_append]
    exact ih.addTo a

/-- Nothing is lost in grouping. -/
theorem flatMap_group_perm (key : α → κ) (tag : α → τ) (l : List α) : ((group key tag l).flatMap (·.items)).Perm l := by
  have hadd : ∀ (groups : List (Group κ τ α)) (a : α), (groups.map (·.key)).Nodup →
      ((addTo key tag groups a).flatMap (·.items)).Perm (groups.flatMap (·.items) ++ [a]) := by
    intro groups a hnodup
    unfold addTo
    split
    · rename_i hold
      obtain ⟨g, hg, hkey⟩ := hold
      obtain ⟨front, back, rfl⟩ := List.append_of_mem hg
      rw [List.map_append, List.map_cons, List.nodup_append, List.nodup_cons] at hnodup
      obtain ⟨-, ⟨hback, -⟩, hfront⟩ := hnodup
      have hsame : ∀ gs : List (Group κ τ α), key a ∉ gs.map (·.key) → gs.map (Group.add key a) = gs := by
        intro gs hnot
        refine (List.map_congr_left fun g' hg' => ?_).trans (List.map_id gs)
        exact if_neg fun heq => hnot (List.mem_map.2 ⟨g', hg', heq⟩)
      rw [List.map_append, List.map_cons, hsame back (hkey ▸ hback), hsame front fun hmem => hfront _ hmem _ List.mem_cons_self hkey.symm]
      simp only [List.flatMap_append, List.flatMap_cons, List.append_assoc, Group.add_items, if_pos hkey]
      exact (List.perm_append_comm.append_left g.items).append_left _
    · rw [List.flatMap_append, List.flatMap_singleton]
  induction l using List.reverseRecOn with
  | nil => exact .nil
  | append_singleton l a ih =>
    rw [group, List.foldl_append]
    exact (hadd _ a (grouped_group key tag l).keys).trans (ih.append_right [a])

end Grouping

/-! ## The first and the last -/

section Order

variable {le : α → α → Prop} [DecidableRel le] [Std.Total le] [IsTrans α le]

theorem head_insertionSort {l : List α} {a : α} (h : (l.insertionSort le).head? = some a) :
    a ∈ l ∧ ∀ b ∈ l, le a b := by
  obtain ⟨rest, hl⟩ := List.head?_eq_some_iff.1 h
  have hsorted := List.pairwise_insertionSort le l
  rw [hl, List.pairwise_cons] at hsorted
  have hmem : ∀ {b}, b ∈ a :: rest ↔ b ∈ l := fun {b} => by rw [← hl, List.mem_insertionSort]
  refine ⟨hmem.1 (by simp), fun b hb => ?_⟩
  rcases List.mem_cons.1 (hmem.2 hb) with rfl | hb
  · exact (Std.Total.total b b).elim id id
  · exact hsorted.1 b hb

theorem getLast_insertionSort {l : List α} {a : α} (h : (l.insertionSort le).getLast? = some a) :
    a ∈ l ∧ ∀ b ∈ l, le b a := by
  obtain ⟨front, hl⟩ := List.getLast?_eq_some_iff.1 h
  have hsorted := List.pairwise_insertionSort le l
  rw [hl, List.pairwise_append] at hsorted
  have hmem : ∀ {b}, b ∈ front ++ [a] ↔ b ∈ l := fun {b} => by rw [← hl, List.mem_insertionSort]
  refine ⟨hmem.1 (by simp), fun b hb => ?_⟩
  rcases List.mem_append.1 (hmem.2 hb) with hb | hb
  · exact hsorted.2.2 b hb a (by simp)
  · rw [List.mem_singleton.1 hb]
    exact (Std.Total.total a a).elim id id

/-- The order in which a list is given does not show in it sorted, where the order tells its elements apart. -/
theorem insertionSort_of_perm {l l' : List α} (hperm : l.Perm l')
    (hanti : ∀ a ∈ l, ∀ b ∈ l, le a b → le b a → a = b) : l.insertionSort le = l'.insertionSort le := by
  refine List.Perm.eq_of_pairwise (fun a b ha hb => hanti a ?_ b ?_) (List.pairwise_insertionSort le l)
    (List.pairwise_insertionSort le l') ?_
  · exact (List.mem_insertionSort le).1 ha
  · exact hperm.mem_iff.2 ((List.mem_insertionSort le).1 hb)
  · exact ((List.perm_insertionSort le l).trans hperm).trans (List.perm_insertionSort le l').symm

end Order

end ByKey
