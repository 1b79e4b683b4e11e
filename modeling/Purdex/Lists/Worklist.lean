/-
A worklist over a table: the head of the queue is looked up unless it was seen, and what it leads to is put behind the queue. Every key
that the roots reach is looked up once, whichever way the links run, and nothing else is.
-/
import Mathlib.Data.List.Basic

namespace Worklist

variable {α β σ : Type*}

/-- What is under each key, and the keys that it leads to. -/
structure Table (α β : Type*) where
  keys : List α
  look : α → Option β
  next : α → List α
  key : β → α
  mem_keys : ∀ {a b}, look a = some b → a ∈ keys
  key_look : ∀ {a b}, look a = some b → key b = a

/-- From the roots, through keys that something is under. -/
inductive Reached (t : Table α β) (roots : List α) : α → Prop where
  | root {a : α} (h : a ∈ roots) : Reached t roots a
  | next {a c : α} {b : β} (ha : Reached t roots a) (hb : t.look a = some b) (hc : c ∈ t.next a) : Reached t roots c

/-! ## How the loop stands -/

/-- Nothing was seen but what is reached, and what is reached was seen or is to come. -/
structure Inv (t : Table α β) (roots queue visited : List α) (l : List β) : Prop where
  mem : ∀ b, b ∈ l ↔ ∃ a ∈ visited, t.look a = some b
  nodup : (l.map t.key).Nodup
  rooted : ∀ a ∈ roots, a ∈ visited ∨ a ∈ queue
  closed : ∀ a ∈ visited, ∀ b, t.look a = some b → ∀ c ∈ t.next a, c ∈ visited ∨ c ∈ queue
  reached : ∀ a, a ∈ visited ∨ a ∈ queue → Reached t roots a

variable {t : Table α β} {roots queue visited : List α} {a : α} {l : List β}

theorem Inv.start (t : Table α β) (roots : List α) : Inv t roots roots [] [] where
  mem := by simp
  nodup := List.nodup_nil
  rooted := fun _ h => .inr h
  closed := by simp
  reached := fun _ h => .root (h.resolve_left List.not_mem_nil)

theorem Inv.seen (h : Inv t roots (a :: queue) visited l) (hv : a ∈ visited) : Inv t roots queue visited l where
  mem := h.mem
  nodup := h.nodup
  rooted := fun c hc => (h.rooted c hc).elim .inl fun hq => (List.mem_cons.1 hq).elim (fun heq => .inl (heq ▸ hv)) .inr
  closed := fun c hc b hb d hd =>
    (h.closed c hc b hb d hd).elim .inl fun hq => (List.mem_cons.1 hq).elim (fun heq => .inl (heq ▸ hv)) .inr
  reached := fun c hc => h.reached c (hc.imp_right (List.mem_cons_of_mem a))

/-- What stood in the queue was seen then, or stands in it still. -/
theorem mem_of_take {more : List α} {c : α} (h : c ∈ visited ∨ c ∈ a :: queue) : c ∈ a :: visited ∨ c ∈ queue ++ more := by
  rcases h with hv | hq
  · exact .inl (List.mem_cons_of_mem a hv)
  · rcases List.mem_cons.1 hq with rfl | hq
    · exact .inl List.mem_cons_self
    · exact .inr (List.mem_append_left more hq)

theorem Inv.none (h : Inv t roots (a :: queue) visited l) (hb : t.look a = none) : Inv t roots queue (a :: visited) l := by
  have htake : ∀ {c}, c ∈ visited ∨ c ∈ a :: queue → c ∈ a :: visited ∨ c ∈ queue := by
    intro c hc
    have htake : c ∈ a :: visited ∨ c ∈ queue ++ [] := mem_of_take hc
    rwa [List.append_nil] at htake
  refine ⟨fun b => ?_, h.nodup, fun c hc => htake (h.rooted c hc), ?_, ?_⟩
  · rw [h.mem b]
    simp [hb]
  · intro c hc b hcb d hd
    rcases List.mem_cons.1 hc with rfl | hc
    · rw [hb] at hcb
      cases hcb
    · exact htake (h.closed c hc b hcb d hd)
  · rintro c (hc | hc)
    · rcases List.mem_cons.1 hc with rfl | hc
      · exact h.reached c (.inr List.mem_cons_self)
      · exact h.reached c (.inl hc)
    · exact h.reached c (.inr (List.mem_cons_of_mem a hc))

theorem Inv.some {b : β} (h : Inv t roots (a :: queue) visited l) (hv : a ∉ visited) (hb : t.look a = some b) :
    Inv t roots (queue ++ t.next a) (a :: visited) (l ++ [b]) := by
  have ha := h.reached a (.inr List.mem_cons_self)
  refine ⟨fun d => ?_, ?_, fun c hc => mem_of_take (h.rooted c hc), ?_, ?_⟩
  · rw [List.mem_append, h.mem d, List.mem_singleton]
    simp only [List.mem_cons, exists_eq_or_imp, hb, Option.some.injEq]
    rw [or_comm, eq_comm]
  · rw [List.map_append, List.map_singleton, List.nodup_append]
    refine ⟨h.nodup, by simp, fun x hx y hy => ?_⟩
    obtain ⟨d, hd, rfl⟩ := List.mem_map.1 hx
    obtain ⟨c, hc, hcd⟩ := (h.mem d).1 hd
    rw [List.mem_singleton.1 hy, t.key_look hb, t.key_look hcd]
    exact fun heq => hv (heq ▸ hc)
  · intro c hc d hcd e he
    rcases List.mem_cons.1 hc with rfl | hc
    · exact .inr (List.mem_append_right queue he)
    · exact mem_of_take (h.closed c hc d hcd e he)
  · rintro c (hc | hc)
    · rcases List.mem_cons.1 hc with rfl | hc
      · exact ha
      · exact h.reached c (.inl hc)
    · rcases List.mem_append.1 hc with hc | hc
      · exact h.reached c (.inr (List.mem_cons_of_mem a hc))
      · exact .next ha hb hc

/-- With nothing to come, what was seen is what is reached. -/
theorem Inv.mem_visited (h : Inv t roots [] visited l) : a ∈ visited ↔ Reached t roots a := by
  refine ⟨fun ha => h.reached a (.inl ha), fun ha => ?_⟩
  induction ha with
  | root ha => exact (h.rooted _ ha).resolve_right List.not_mem_nil
  | next _ hb hc ih => exact (h.closed _ ih _ hb _ hc).resolve_right List.not_mem_nil

variable [DecidableEq α]

/-! ## The loop -/

def unvisited (t : Table α β) (visited : List α) : List α := t.keys.filter (· ∉ visited)

theorem unvisited_le (t : Table α β) (a : α) (visited : List α) : (unvisited t (a :: visited)).length ≤ (unvisited t visited).length := by
  refine List.Sublist.length_le (List.monotone_filter_right _ fun c hc => ?_)
  simp only [decide_eq_true_eq, List.mem_cons, not_or] at hc ⊢
  exact hc.2

theorem unvisited_lt {t : Table α β} {a : α} {b : β} {visited : List α} (hb : t.look a = some b) (ha : a ∉ visited) :
    (unvisited t (a :: visited)).length < (unvisited t visited).length := by
  have hsplit : unvisited t (a :: visited) = (unvisited t visited).filter (· ≠ a) := by
    rw [unvisited, unvisited, List.filter_filter]
    refine List.filter_congr fun c _ => ?_
    simp only [List.mem_cons, not_or, Bool.decide_and]
  rw [hsplit]
  refine List.length_filter_lt_length_iff_exists.2 ⟨a, ?_, by simp⟩
  exact List.mem_filter.2 ⟨t.mem_keys hb, by simpa using ha⟩

/-- There are fewer keys to look up or, with as many, a shorter queue. -/
def run (t : Table α β) (act : σ → β → σ) : List α → List α → σ → σ
  | [], _, s => s
  | a :: queue, visited, s =>
    if _hv : a ∈ visited then run t act queue visited s
    else match _hb : t.look a with
      | none => run t act queue (a :: visited) s
      | some b => run t act (queue ++ t.next a) (a :: visited) (act s b)
termination_by queue visited => ((unvisited t visited).length, queue.length)
decreasing_by
  · exact Prod.Lex.right _ (Nat.lt_succ_self _)
  · rcases Nat.lt_or_ge (unvisited t (a :: visited)).length (unvisited t visited).length with hlt | hge
    · exact Prod.Lex.left _ _ hlt
    · rw [Nat.le_antisymm (unvisited_le t a visited) hge]
      exact Prod.Lex.right _ (Nat.lt_succ_self _)
  · exact Prod.Lex.left _ _ (unvisited_lt _hb _hv)

section Run

variable (t : Table α β) (act : σ → β → σ) {a : α} {queue visited : List α} {s : σ}

theorem run_nil : run t act [] visited s = s := by rw [run]

theorem run_seen (h : a ∈ visited) : run t act (a :: queue) visited s = run t act queue visited s := by rw [run, dif_pos h]

theorem run_none (h : a ∉ visited) (hb : t.look a = none) : run t act (a :: queue) visited s = run t act queue (a :: visited) s := by
  rw [run, dif_neg h]
  split <;> simp_all

theorem run_some {b : β} (h : a ∉ visited) (hb : t.look a = some b) :
    run t act (a :: queue) visited s = run t act (queue ++ t.next a) (a :: visited) (act s b) := by
  rw [run, dif_neg h]
  split <;> simp_all

end Run

/-! ## What is looked up -/

/-- What was found, in order. -/
def found (t : Table α β) (queue : List α) : List β := run t (fun l b => l ++ [b]) queue [] []

theorem run_foldl (t : Table α β) (act : σ → β → σ) (s : σ) (queue visited : List α) (l : List β) :
    run t act queue visited (l.foldl act s) = (run t (fun l b => l ++ [b]) queue visited l).foldl act s := by
  induction queue, visited, l using run.induct t fun l b => l ++ [b] with
  | case1 visited l => rw [run_nil, run_nil]
  | case2 visited l a queue hv ih => rw [run_seen t _ hv, run_seen t _ hv, ih]
  | case3 visited l a queue hv hb ih => rw [run_none t _ hv hb, run_none t _ hv hb, ih]
  | case4 visited l a queue hv b hb ih =>
    rw [run_some t _ hv hb, run_some t _ hv hb, ← ih, List.foldl_append]
    rfl

/-- The loop acts on what was found, one after the other. -/
theorem run_eq (t : Table α β) (act : σ → β → σ) (queue : List α) (s : σ) : run t act queue [] s = (found t queue).foldl act s :=
  run_foldl t act s queue [] []

theorem Inv.run (h : Inv t roots queue visited l) :
    ∃ visited', Inv t roots [] visited' (Worklist.run t (fun l b => l ++ [b]) queue visited l) := by
  induction queue, visited, l using run.induct t fun l b => l ++ [b] with
  | case1 visited l =>
    rw [run_nil]
    exact ⟨visited, h⟩
  | case2 visited l a queue hv ih =>
    rw [run_seen t _ hv]
    exact ih (h.seen hv)
  | case3 visited l a queue hv hb ih =>
    rw [run_none t _ hv hb]
    exact ih (h.none hb)
  | case4 visited l a queue hv b hb ih =>
    rw [run_some t _ hv hb]
    exact ih (h.some hv hb)

theorem mem_found {b : β} : b ∈ found t roots ↔ ∃ a, Reached t roots a ∧ t.look a = some b := by
  obtain ⟨visited, h⟩ := (Inv.start t roots).run
  rw [found, h.mem b]
  simp only [h.mem_visited]

theorem found_nodup (t : Table α β) (roots : List α) : ((found t roots).map t.key).Nodup :=
  let ⟨_, h⟩ := (Inv.start t roots).run
  h.nodup

end Worklist
