/-
Several cells behind one version: a write names a version and some of the cells, and is applied
as a whole when the record's version is not newer. When every order of a set of writes leaves
the same value in a cell, and which value that is.
-/
import Mathlib.Order.Defs.LinearOrder
import Mathlib.Data.List.Nodup
import Mathlib.Data.List.Perm.Basic
import Mathlib.Data.Finset.Max
import Mathlib.Data.Finset.Dedup

namespace Conc

/-- The record: one version for all of its cells. -/
structure Cells (ι α ν : Type) where
  ver : ν
  val : ι → α

/-- A write: its version, and a value for some of the cells. -/
structure CellWrite (ι α ν : Type) where
  ver : ν
  put : ι → Option α

variable {ι α ν : Type} [LinearOrder ν]

/-- The write names at least one cell. -/
def CellWrite.Carries (w : CellWrite ι α ν) : Prop :=
  ∃ i, w.put i ≠ none

namespace Cells

open Classical in
/-- A write with nothing in it does nothing; one that is older than the record is refused. -/
noncomputable def apply (s : Cells ι α ν) (w : CellWrite ι α ν) : Cells ι α ν :=
  if w.Carries ∧ s.ver ≤ w.ver then ⟨w.ver, fun i => (w.put i).getD (s.val i)⟩ else s

/-- `w` is the newest of the writes that name cell `i`. -/
structure Newest (ws : List (CellWrite ι α ν)) (i : ι) (w : CellWrite ι α ν) : Prop where
  mem : w ∈ ws
  put : w.put i ≠ none
  max : ∀ w' ∈ ws, w'.put i ≠ none → w'.ver ≤ w.ver

/-- The value cell `i` should end with: that of the newest write naming it, or what it held. -/
def Expected (s : Cells ι α ν) (ws : List (CellWrite ι α ν)) (i : ι) (a : α) : Prop :=
  (∃ w, Newest ws i w ∧ w.put i = some a) ∨ (∀ w ∈ ws, w.put i = none) ∧ a = s.val i

/-- Order cannot matter for cell `i`: the newest write of all names it and is not older than the
record, or every write to it that can matter writes what it already holds. -/
def Settled (s : Cells ι α ν) (ws : List (CellWrite ι α ν)) (i : ι) : Prop :=
  (∃ w ∈ ws, w.put i ≠ none ∧ s.ver ≤ w.ver ∧ ∀ w' ∈ ws, w'.Carries → w'.ver ≤ w.ver) ∨
    ∀ w ∈ ws, w.put i ≠ none → s.ver ≤ w.ver ∨ Newest ws i w → w.put i = some (s.val i)

variable {s : Cells ι α ν} {w : CellWrite ι α ν} {ws : List (CellWrite ι α ν)} {i : ι}

/-! ## One write -/

theorem apply_of_accepted (hc : w.Carries) (h : s.ver ≤ w.ver) :
    s.apply w = ⟨w.ver, fun i => (w.put i).getD (s.val i)⟩ :=
  if_pos ⟨hc, h⟩

theorem apply_of_refused (h : w.Carries → w.ver < s.ver) : s.apply w = s :=
  if_neg fun ⟨hc, hle⟩ => (lt_of_lt_of_le (h hc) hle).false

theorem apply_cases (s : Cells ι α ν) (w : CellWrite ι α ν) :
    (w.Carries ∧ s.ver ≤ w.ver ∧ s.apply w = ⟨w.ver, fun i => (w.put i).getD (s.val i)⟩) ∨
      ((w.Carries → w.ver < s.ver) ∧ s.apply w = s) := by
  by_cases h : w.Carries ∧ s.ver ≤ w.ver
  · exact .inl ⟨h.1, h.2, if_pos h⟩
  · have hr : w.Carries → w.ver < s.ver := fun hc => lt_of_not_ge fun hle => h ⟨hc, hle⟩
    exact .inr ⟨hr, apply_of_refused hr⟩

theorem ver_le_apply : s.ver ≤ (s.apply w).ver := by
  obtain ⟨_, hle, he⟩ | ⟨_, he⟩ := apply_cases s w
  · rw [he]; exact hle
  · rw [he]

/-! ## A sequence of writes -/

theorem ver_le_foldl : ∀ (ws : List (CellWrite ι α ν)) (s : Cells ι α ν), s.ver ≤ (ws.foldl apply s).ver
  | [], _ => le_refl _
  | _ :: ws, _ => ver_le_apply.trans (ver_le_foldl ws _)

/-- The version never passes a bound on the writes. -/
theorem foldl_ver_le {b : ν} : ∀ (ws : List (CellWrite ι α ν)) (s : Cells ι α ν), s.ver ≤ b →
    (∀ w ∈ ws, w.Carries → w.ver ≤ b) → (ws.foldl apply s).ver ≤ b
  | [], _, h, _ => h
  | w :: ws, s, h, hw => by
    refine foldl_ver_le ws _ ?_ fun w' hm => hw w' (List.mem_cons_of_mem _ hm)
    obtain ⟨hc, _, he⟩ | ⟨_, he⟩ := apply_cases s w
    · rw [he]; exact hw w List.mem_cons_self hc
    · rw [he]; exact h

/-- Writes that are all older than the record leave it alone. -/
theorem foldl_refused : ∀ (ws : List (CellWrite ι α ν)) (s : Cells ι α ν),
    (∀ w ∈ ws, w.Carries → w.ver < s.ver) → ws.foldl apply s = s
  | [], _, _ => rfl
  | w :: ws, s, h => by
    rw [List.foldl_cons, apply_of_refused (h w List.mem_cons_self)]
    exact foldl_refused ws s fun w' hm => h w' (List.mem_cons_of_mem _ hm)

/-- Writes that put back what the cell holds never change it. -/
theorem foldl_val_eq : ∀ (ws : List (CellWrite ι α ν)) (s t : Cells ι α ν), s.ver ≤ t.ver → t.val i = s.val i →
    (∀ w ∈ ws, w.put i ≠ none → s.ver ≤ w.ver → w.put i = some (s.val i)) →
    (ws.foldl apply t).val i = s.val i
  | [], _, _, _, hv, _ => hv
  | w :: ws, s, t, hle, hv, hw => by
    refine foldl_val_eq ws s _ (hle.trans ver_le_apply) ?_ fun w' hm => hw w' (List.mem_cons_of_mem _ hm)
    obtain ⟨_, hacc, he⟩ | ⟨_, he⟩ := apply_cases t w
    · rw [he]
      cases hp : w.put i with
      | none => simpa [hp] using hv
      | some a =>
        have hs := hw w List.mem_cons_self (by simp [hp]) (hle.trans hacc)
        simp [hs]
    · rw [he, hv]

/-- Of two accepted writes the later one is not older. -/
theorem ver_le_of_accepted {pre mid : List (CellWrite ι α ν)} {f e : CellWrite ι α ν} (hf : f.Carries)
    (haf : (pre.foldl apply s).ver ≤ f.ver) (hae : ((pre ++ f :: mid).foldl apply s).ver ≤ e.ver) :
    f.ver ≤ e.ver := by
  refine le_trans ?_ hae
  rw [List.foldl_append, List.foldl_cons, apply_of_accepted hf haf]
  exact ver_le_foldl mid ⟨f.ver, _⟩

/-! ## Every order -/

/-- A newest write exists as soon as some write names the cell. -/
theorem exists_max {P : CellWrite ι α ν → Prop} : ∀ (ws : List (CellWrite ι α ν)), (∃ w ∈ ws, P w) →
    ∃ w ∈ ws, P w ∧ ∀ w' ∈ ws, P w' → w'.ver ≤ w.ver
  | [], h => by simp at h
  | w :: ws, h => by
    by_cases hr : ∃ w' ∈ ws, P w'
    · obtain ⟨m, hm, hp, hmax⟩ := exists_max ws hr
      by_cases hw : P w ∧ m.ver ≤ w.ver
      · refine ⟨w, List.mem_cons_self, hw.1, fun w' hm' hp' => ?_⟩
        rcases List.mem_cons.1 hm' with rfl | hm'
        · exact le_refl _
        · exact (hmax w' hm' hp').trans hw.2
      · refine ⟨m, List.mem_cons_of_mem _ hm, hp, fun w' hm' hp' => ?_⟩
        rcases List.mem_cons.1 hm' with rfl | hm'
        · exact le_of_not_ge fun hle => hw ⟨hp', hle⟩
        · exact hmax w' hm' hp'
    · obtain ⟨w', hm', hp'⟩ := h
      rcases List.mem_cons.1 hm' with rfl | hm'
      · refine ⟨w', List.mem_cons_self, hp', fun w'' hm'' hp'' => ?_⟩
        rcases List.mem_cons.1 hm'' with rfl | hm''
        · exact le_refl _
        · exact absurd ⟨w'', hm'', hp''⟩ hr
      · exact absurd ⟨w', hm', hp'⟩ hr

omit [LinearOrder ν] in
theorem eq_of_ver_eq (hd : (ws.map CellWrite.ver).Nodup) {a b : CellWrite ι α ν} (ha : a ∈ ws) (hb : b ∈ ws)
    (h : a.ver = b.ver) : a = b :=
  List.inj_on_of_nodup_map hd ha hb h

theorem ver_lt_of_ne (hd : (ws.map CellWrite.ver).Nodup) {a b : CellWrite ι α ν} (ha : a ∈ ws) (hb : b ∈ ws)
    (hle : a.ver ≤ b.ver) (hne : a ≠ b) : a.ver < b.ver :=
  lt_of_le_of_ne hle fun h => hne (eq_of_ver_eq hd ha hb h)

/-- What a cell should end with is one value. -/
theorem Expected.unique (hd : (ws.map CellWrite.ver).Nodup) {a b : α} (ha : Expected s ws i a)
    (hb : Expected s ws i b) : a = b := by
  rcases ha with ⟨w, hw, hwa⟩ | ⟨hn, rfl⟩ <;> rcases hb with ⟨w', hw', hwb⟩ | ⟨hn', rfl⟩
  · have he : w = w' := eq_of_ver_eq hd hw.mem hw'.mem
      (le_antisymm (hw'.max w hw.mem hw.put) (hw.max w' hw'.mem hw'.put))
    subst he
    exact Option.some.inj (hwa.symm.trans hwb)
  · exact absurd (hn' w hw.mem) hw.put
  · exact absurd (hn w' hw'.mem) hw'.put
  · rfl

theorem Settled.expected (hd : (ws.map CellWrite.ver).Nodup) (hs : Settled s ws i)
    {order : List (CellWrite ι α ν)} (hp : order.Perm ws) : Expected s ws i ((order.foldl apply s).val i) := by
  rcases hs with ⟨w, hm, hput, hver, hmax⟩ | hall
  · -- the newest write of all is accepted when its turn comes, and everything after it is refused
    obtain ⟨pre, post, rfl⟩ := List.append_of_mem (hp.mem_iff.2 hm)
    have hd' : ((pre ++ w :: post).map CellWrite.ver).Nodup := (hp.map _).nodup_iff.2 hd
    have hacc : (pre.foldl apply s).ver ≤ w.ver := foldl_ver_le pre s hver fun w' hw' hc =>
      hmax w' (hp.mem_iff.1 (List.mem_append_left _ hw')) hc
    have hpost : ∀ w' ∈ post, w'.Carries → w'.ver < w.ver := fun w' hw' hc => by
      have hmem : w' ∈ pre ++ w :: post := List.mem_append_right _ (List.mem_cons_of_mem _ hw')
      refine lt_of_le_of_ne (hmax w' (hp.mem_iff.1 hmem) hc) fun he => ?_
      rw [List.map_append, List.map_cons, List.nodup_append] at hd'
      exact (List.nodup_cons.1 hd'.2.1).1 (he ▸ List.mem_map_of_mem hw')
    obtain ⟨a, ha⟩ := Option.ne_none_iff_exists'.1 hput
    refine .inl ⟨w, ⟨hm, hput, fun w' hm' hp' => hmax w' hm' ⟨i, hp'⟩⟩, ?_⟩
    rw [List.foldl_append, List.foldl_cons, apply_of_accepted ⟨i, hput⟩ hacc, foldl_refused _ _ hpost]
    simp [ha]
  · have hval : (order.foldl apply s).val i = s.val i :=
      foldl_val_eq order s s (le_refl _) rfl fun w hw hput hle => hall w (hp.mem_iff.1 hw) hput (.inl hle)
    rw [hval]
    by_cases hex : ∃ w ∈ ws, w.put i ≠ none
    · obtain ⟨w, hm, hput, hmax⟩ := exists_max ws hex
      have hn : Newest ws i w := ⟨hm, hput, hmax⟩
      exact .inl ⟨w, hn, hall w hm hput (.inr hn)⟩
    · refine .inr ⟨fun w hm => ?_, rfl⟩
      by_contra hne
      exact hex ⟨w, hm, hne⟩

omit [LinearOrder ν] in
/-- Moving a write to the front is one of the orders. -/
theorem exists_perm_cons (hm : w ∈ ws) : ∃ rest, (w :: rest).Perm ws := by
  obtain ⟨pre, post, rfl⟩ := List.append_of_mem hm
  exact ⟨pre ++ post, List.perm_middle.symm⟩

theorem settled_of_expected (hd : (ws.map CellWrite.ver).Nodup)
    (h : ∀ order : List (CellWrite ι α ν), order.Perm ws → Expected s ws i ((order.foldl apply s).val i)) : Settled s ws i := by
  by_cases hleft : ∃ w ∈ ws, w.put i ≠ none ∧ s.ver ≤ w.ver ∧ ∀ w' ∈ ws, w'.Carries → w'.ver ≤ w.ver
  · exact .inl hleft
  refine .inr fun w hm hput hw => ?_
  obtain ⟨M, hM, hMc, hMmax⟩ := exists_max (P := CellWrite.Carries) ws ⟨w, hm, i, hput⟩
  have hMi : s.ver ≤ M.ver → M.put i = none := fun hle => by
    by_contra hne
    exact hleft ⟨M, hM, hne, hle, hMmax⟩
  have hlt : ∀ w' ∈ ws, w' ≠ M → w'.Carries → w'.ver < M.ver := fun w' hm' hne hc =>
    ver_lt_of_ne hd hm' hM (hMmax w' hm' hc) hne
  -- with `M` first everything after it is refused, and `M` does not touch the cell
  have hself : Expected s ws i (s.val i) := by
    obtain ⟨rest, hp⟩ := exists_perm_cons hM
    have hnot : M ∉ rest := (List.nodup_cons.1 (hp.nodup_iff.2 hd.of_map)).1
    have hrest : ∀ w' ∈ rest, w'.Carries → w'.ver < M.ver := fun w' hm' hc =>
      hlt w' (hp.mem_iff.1 (List.mem_cons_of_mem _ hm')) (fun e => hnot (e ▸ hm')) hc
    have he := h _ hp
    rcases le_or_gt s.ver M.ver with hle | hgt
    · rw [List.foldl_cons, apply_of_accepted hMc hle, foldl_refused _ _ hrest] at he
      simpa [hMi hle] using he
    · rw [List.foldl_cons, apply_of_refused fun _ => hgt,
        foldl_refused _ _ fun w' hm' hc => (hrest w' hm' hc).trans hgt] at he
      exact he
  obtain ⟨a, ha⟩ := Option.ne_none_iff_exists'.1 hput
  suffices hexp : Expected s ws i a by rw [ha, hexp.unique hd hself]
  rcases hw with hle | hnew
  · -- with `w` first and `M` second the cell keeps what `w` wrote
    have hleM : w.ver ≤ M.ver := hMmax w hm ⟨i, hput⟩
    have hne : M ≠ w := fun e => hput (e ▸ hMi (hle.trans hleM))
    obtain ⟨rest, hp⟩ := exists_perm_cons hm
    have hMrest : M ∈ rest := by
      rcases List.mem_cons.1 (hp.mem_iff.2 hM) with e | hr
      · exact absurd e hne
      · exact hr
    obtain ⟨rest', hp'⟩ := exists_perm_cons hMrest
    have hperm : (w :: M :: rest').Perm ws := (hp'.cons w).trans hp
    have hnd : (w :: M :: rest').Nodup := hperm.nodup_iff.2 hd.of_map
    have hnot : M ∉ rest' := (List.nodup_cons.1 (List.nodup_cons.1 hnd).2).1
    have hrest : ∀ w' ∈ rest', w'.Carries → w'.ver < M.ver := fun w' hm' hc =>
      hlt w' (hperm.mem_iff.1 (List.mem_cons_of_mem _ (List.mem_cons_of_mem _ hm'))) (fun e => hnot (e ▸ hm')) hc
    have he := h _ hperm
    rw [List.foldl_cons, List.foldl_cons, apply_of_accepted ⟨i, hput⟩ hle, apply_of_accepted hMc hleM,
      foldl_refused _ _ hrest] at he
    simpa [hMi (hle.trans hleM), ha] using he
  · exact .inl ⟨w, hnew, ha⟩

/-- Every order leaves cell `i` with the value of its newest write exactly when it is settled. -/
theorem confluent_iff (hd : (ws.map CellWrite.ver).Nodup) :
    (∀ order : List (CellWrite ι α ν), order.Perm ws → Expected s ws i ((order.foldl apply s).val i)) ↔ Settled s ws i :=
  ⟨settled_of_expected hd, fun hs _ hp => hs.expected hd hp⟩

end Cells

end Conc
