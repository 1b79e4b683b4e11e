/-
Pages of a list whose keys go down: what is behind a key and what is before it are the pieces around its element, and a page with more to
come ends in an element that the rest goes on from.
-/
import Mathlib.Data.List.Sort
import Mathlib.Order.Defs.LinearOrder

namespace Keyset

variable {α κ : Type*} [LinearOrder κ] (key : α → κ)

/-- The keys go down. -/
def Down (l : List α) : Prop := l.Pairwise fun a b => key b < key a

variable {key}

theorem Down.below {front back : List α} {a : α} (h : Down key (front ++ a :: back)) :
    ((front ++ a :: back).filter fun b => key b < key a) = back := by
  obtain ⟨-, hrest, hfront⟩ := List.pairwise_append.1 h
  rw [List.filter_append, List.filter_eq_nil_iff.2, List.nil_append, List.filter_cons_of_neg (by simp), List.filter_eq_self.2]
  · exact fun b hb => decide_eq_true ((List.pairwise_cons.1 hrest).1 b hb)
  · intro b hb
    simpa using (hfront b hb a List.mem_cons_self).le

theorem Down.above {front back : List α} {a : α} (h : Down key (front ++ a :: back)) :
    ((front ++ a :: back).filter fun b => key a < key b) = front := by
  obtain ⟨-, hrest, hfront⟩ := List.pairwise_append.1 h
  rw [List.filter_append, List.filter_eq_self.2, List.filter_eq_nil_iff.2, List.append_nil]
  · intro b hb
    rcases List.mem_cons.1 hb with rfl | hb
    · simp
    · simpa using ((List.pairwise_cons.1 hrest).1 b hb).le
  · exact fun b hb => decide_eq_true (hfront b hb a List.mem_cons_self)

/-- A page that is full has a last element, and the rest is behind it. -/
theorem exists_last {l : List α} {n : Nat} (hpos : 0 < n) (h : n ≤ l.length) :
    ∃ front a, l.take n = front ++ [a] ∧ l = front ++ a :: l.drop n ∧ l[n - 1]? = some a := by
  have hlast : n - 1 < l.length := by omega
  refine ⟨l.take (n - 1), l[n - 1], ?_, ?_, List.getElem?_eq_getElem hlast⟩
  · rw [List.take_append_getElem hlast, Nat.sub_add_cancel hpos]
  · have hdrop := List.drop_eq_getElem_cons hlast
    rw [Nat.sub_add_cancel hpos] at hdrop
    rw [← hdrop, List.take_append_drop]

/-- In order of the keys, the greatest first. -/
def sort (key : α → κ) (l : List α) : List α := l.insertionSort fun a b => key b ≤ key a

instance total_descending : Std.Total fun a b : α => key b ≤ key a := ⟨fun _ _ => le_total _ _⟩

instance trans_descending : IsTrans α fun a b => key b ≤ key a := ⟨fun _ _ _ h h' => le_trans h' h⟩

theorem sort_perm (l : List α) : (sort key l).Perm l := List.perm_insertionSort _ l

theorem down_sort {l : List α} (h : (l.map key).Nodup) : Down key (sort key l) := by
  have hne : (sort key l).Pairwise fun a b => key a ≠ key b := List.pairwise_map.1 (((sort_perm l).map key).nodup_iff.2 h)
  exact ((List.pairwise_insertionSort (fun a b => key b ≤ key a) l).and hne).imp fun hab => lt_of_le_of_ne hab.1 hab.2.symm

/-- What is selected is sorted as it stands in the whole. -/
theorem sort_filter {l : List α} (h : (l.map key).Nodup) (p : α → Bool) : sort key (l.filter p) = (sort key l).filter p := by
  have hsub : ((l.filter p).map key).Nodup := h.sublist (List.filter_sublist.map key)
  refine List.Perm.eq_of_pairwise (fun a b _ _ hab hba => absurd hab (not_lt.2 hba.le)) (down_sort hsub) ((down_sort h).filter p) ?_
  exact (sort_perm _).trans ((sort_perm l).symm.filter p)

/-- What of two elements comes first: the greater key, or of two with one key the lesser name. -/
def Ahead {ι : Type*} [LT ι] (key : α → κ) (name : α → ι) (a b : α) : Prop := key b < key a ∨ key b = key a ∧ name a < name b

variable (key) in
/-- The order is stable: those with one key stay in the order of their names, in which they came. -/
theorem ahead_sort {ι : Type*} [LT ι] {name : α → ι} {l : List α} (h : l.Pairwise fun a b => name a < name b) :
    (sort key l).Pairwise (Ahead key name) := by
  induction l with
  | nil => exact .nil
  | cons a l ih =>
    obtain ⟨ha, hl⟩ := List.pairwise_cons.1 h
    have hins : ∀ s : List α, s.Pairwise (Ahead key name) → (∀ b ∈ s, name a < name b) →
        (s.orderedInsert (fun a b => key b ≤ key a) a).Pairwise (Ahead key name) := by
      intro s
      induction s with
      | nil => exact fun _ _ => List.pairwise_singleton _ _
      | cons b s ihs =>
        intro hs hname
        obtain ⟨hb, hs'⟩ := List.pairwise_cons.1 hs
        rw [List.orderedInsert_cons]
        split
        · rename_i hle
          refine List.pairwise_cons.2 ⟨fun c hc => ?_, hs⟩
          have hkey : key c ≤ key a := by
            rcases List.mem_cons.1 hc with rfl | hc
            · exact hle
            · rcases hb c hc with hlt | ⟨heq, -⟩
              · exact hlt.le.trans hle
              · exact heq.le.trans hle
          rcases hkey.lt_or_eq with hlt | heq
          · exact .inl hlt
          · exact .inr ⟨heq, hname c hc⟩
        · rename_i hlt
          refine List.pairwise_cons.2 ⟨fun c hc => ?_, ihs hs' fun c hc => hname c (List.mem_cons_of_mem _ hc)⟩
          rcases (List.mem_orderedInsert _).1 hc with rfl | hc
          · exact .inl (not_le.1 hlt)
          · exact hb c hc
    exact hins _ (ih hl) fun b hb => ha b ((List.mem_insertionSort _).1 hb)

/-- Behind the first `n` there are `n` ahead. -/
theorem ahead_of_drop {ι : Type*} [LT ι] {name : α → ι} {l : List α} (h : l.Pairwise fun a b => name a < name b) {n : Nat} {a : α}
    (ha : a ∈ (sort key l).drop n) : ((sort key l).take n).length = n ∧ ∀ b ∈ (sort key l).take n, b ∈ l ∧ Ahead key name b a := by
  have hsorted := ahead_sort key h
  rw [← List.take_append_drop n (sort key l), List.pairwise_append] at hsorted
  constructor
  · have hlt := List.length_pos_of_mem ha
    rw [List.length_drop] at hlt
    rw [List.length_take]
    omega
  · exact fun b hb => ⟨(sort_perm l).mem_iff.1 (List.mem_of_mem_take hb), hsorted.2.2 b hb a ha⟩

end Keyset
