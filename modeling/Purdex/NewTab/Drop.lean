/-
Dropping a module in the layout of the new tab: where it comes to be among the others.
-/
import Purdex.NewTab.Runs

namespace Purdex.NewTab

open Reorder

variable {cols : List (List String)} {col a b : List String} {id target : String} {i j c : Nat}

/-! ## The handler -/

inductive DropTarget where
  | paletteZone
  | canvasItem (profileKey : ProfileKey) (providerId : String)
  | column (profileKey : ProfileKey) (colIdx : Nat)

namespace State

variable (s : State)

/-- Dropping on an item gives the module its column and row. -/
def dropOnItem (key : ProfileKey) (id target : String) : State :=
  match findId (s.profiles key).columns target with
  | none => s
  | some (colIdx, rowIdx) => s.placeModule key id colIdx rowIdx

/-- Dropping on the empty area of a column appends to it. -/
def dropOnColumn (key : ProfileKey) (id : String) (colIdx : Nat) : State :=
  s.placeModule key id colIdx (lengthAt (s.profiles key).columns colIdx)

/-- What is dragged is an item of the profile `src`, or comes from the palette. -/
def handleDragEnd (src : Option ProfileKey) (providerId : String) : Option DropTarget → State
  | none => s
  | some dst =>
    if providerId = "" then s
    else match dst with
      | .paletteZone => src.elim s fun key => s.removeModule key providerId
      | .canvasItem key target => if target = "" then s else s.dropOnItem key providerId target
      | .column key colIdx => s.dropOnColumn key providerId colIdx

end State

/-! ## Columns without the module -/

def without (id : String) (col : List String) : List String := col.filter (· ≠ id)

theorem without_eq_self (h : id ∉ col) : without id col = col :=
  List.filter_eq_self.2 fun _ hx => decide_eq_true fun heq => h (heq ▸ hx)

theorem erase_eq_without (h : col.Nodup) (id : String) : col.erase id = without id col := by
  rw [h.erase_eq_filter]
  refine List.filter_congr fun x _ => ?_
  by_cases hx : x = id <;> simp [hx]

theorem nodup_column (h : cols.flatten.Nodup) (hi : i < cols.length) : (cols.getD i []).Nodup :=
  (List.nodup_append.1 ((flatten_perm hi).nodup_iff.1 h)).1

theorem getD_mem (hi : i < cols.length) : cols.getD i [] ∈ cols := by
  rw [List.getD_eq_getElem?_getD, List.getElem?_eq_getElem hi]
  exact List.getElem_mem hi

/-- A module is in one column. -/
theorem column_unique (h : cols.flatten.Nodup) (hi : i < cols.length) (hj : j < cols.length) (hidi : id ∈ cols.getD i [])
    (hidj : id ∈ cols.getD j []) : i = j := by
  have hpair := (List.pairwise_iff_getElem.1 (List.nodup_flatten.1 h).2)
  rw [List.getD_eq_getElem?_getD, List.getElem?_eq_getElem hi] at hidi
  rw [List.getD_eq_getElem?_getD, List.getElem?_eq_getElem hj] at hidj
  rcases Nat.lt_trichotomy i j with hlt | heq | hlt
  · exact absurd hidj (hpair i j hi hj hlt hidi)
  · exact heq
  · exact absurd hidi (hpair j i hj hi hlt hidj)

/-- A change of one column alone. -/
theorem set_eq_map {f : List String → List String} (hother : ∀ j < cols.length, j ≠ c → f (cols.getD j []) = cols.getD j []) :
    cols.set c (f (cols.getD c [])) = cols.map f := by
  refine List.ext_getElem (by rw [List.length_set, List.length_map]) fun j hj _ => ?_
  rw [List.length_set] at hj
  have hgetD : cols.getD j [] = cols[j] := by
    rw [List.getD_eq_getElem?_getD, List.getElem?_eq_getElem hj]
    rfl
  rw [List.getElem_set, List.getElem_map]
  split
  · rename_i heq
    subst heq
    rw [hgetD]
  · rename_i hne
    rw [← hgetD, hother j hj (Ne.symm hne)]

theorem map_without (h : cols.flatten.Nodup) (hi : i < cols.length) (hid : id ∈ cols.getD i []) :
    cols.set i (without id (cols.getD i [])) = cols.map (without id) :=
  set_eq_map fun _ hj hne => without_eq_self fun hmem => hne (column_unique h hj hi hmem hid)

theorem map_without_of_absent (h : id ∉ cols.flatten) : cols.map (without id) = cols := by
  have hself : ∀ col ∈ cols, without id col = col := fun col hcol => without_eq_self fun hmem => h (List.mem_flatten.2 ⟨col, hcol, hmem⟩)
  exact (List.map_congr_left hself).trans (List.map_id' cols)

theorem getD_map_without (hc : c < cols.length) : (cols.map (without id)).getD c [] = without id (cols.getD c []) := by
  rw [List.getD_eq_getElem?_getD, List.getElem?_map, List.getD_eq_getElem?_getD, List.getElem?_eq_getElem hc]
  rfl

/-! ## Where the module lands -/

/-- The row of the column without the module that `placeIn` puts it at. -/
def landing (col : List String) (id : String) (rowIdx : Int) : Int :=
  let toRow := clamp rowIdx 0 (without id col).length
  if id ∈ col ∧ col.idxOf id < toRow ∧ toRow < (without id col).length then toRow - 1 else toRow

theorem placeIn_columns {p : Profile} (h : p.columns.flatten.Nodup) (hc : c < p.columns.length) (rowIdx : Int) :
    (placeIn p id c rowIdx).columns =
      (p.columns.map (without id)).set c (spliceAt (without id (p.columns.getD c [])) (landing (p.columns.getD c []) id rowIdx) [id]) := by
  have hcol : HasColumn p c := ⟨Int.natCast_nonneg c, by exact_mod_cast hc⟩
  have hgetD := @getD_map_without p.columns id c hc
  unfold placeIn
  rw [if_neg (show ¬¬(0 ≤ (c : Int) ∧ (c : Int) < p.columns.length) from not_not.2 hcol)]
  cases hfound : findId p.columns id with
  | none =>
    have habsent := findId_none hfound
    have hnot : id ∉ p.columns.getD c [] := fun hmem => habsent (List.mem_flatten.2 ⟨_, getD_mem hc, hmem⟩)
    simp only [Int.toNat_natCast]
    rw [landing, if_neg fun hand => hnot hand.1, ← hgetD, map_without_of_absent habsent]
  | some found =>
    obtain ⟨fromCol, fromRow⟩ := found
    obtain ⟨hfrom, hmem, hrow⟩ := findId_some hfound
    have hrest : p.columns.set fromCol ((p.columns.getD fromCol []).eraseIdx fromRow) = p.columns.map (without id) := by
      rw [hrow, ← List.erase_eq_eraseIdx_of_idxOf rfl, erase_eq_without (nodup_column h hfrom), map_without h hfrom hmem]
    simp only [Int.toNat_natCast]
    rw [hrest, hgetD]
    congr 2
    unfold landing
    by_cases hsame : fromCol = c
    · subst hsame
      rw [hrow]
      simp only [true_and, hmem]
    · have hnot : id ∉ p.columns.getD c [] := fun hin => hsame (column_unique h hfrom hc hmem hin)
      rw [if_neg fun hand => hsame (by exact_mod_cast hand.1), if_neg fun hand => hnot hand.1]

theorem spliceAt_length (a b : List String) (id : String) : spliceAt (a ++ b) a.length [id] = a ++ id :: b := by
  have hstart : spliceStart (a ++ b) a.length = a.length := if_neg (by omega)
  rw [spliceAt, hstart, List.take_left', List.drop_left']
  · simp
  · rfl
  · rfl

theorem length_without_of_mem (h : col.Nodup) (hid : id ∈ col) : (without id col).length + 1 = col.length := by
  rw [← erase_eq_without h, List.length_erase_of_mem hid]
  have := List.length_pos_of_mem hid
  omega

theorem without_item (hne : id ≠ target) : without id (a ++ target :: b) = without id a ++ target :: without id b := by
  have hfront : without id (target :: b) = target :: without id b := List.filter_cons_of_pos (by simpa using hne.symm)
  rw [← hfront]
  exact List.filter_append ..

/-- The row in front of another item, unless that item is the last one and the module comes from above it. -/
theorem landing_item (h : (a ++ target :: b).Nodup) (hne : id ≠ target) :
    landing (a ++ target :: b) id a.length = if id ∈ a ∧ b = [] then ((without id a).length + 1 : Nat) else ((without id a).length : Nat) := by
  obtain ⟨ha, -, hapart⟩ := List.nodup_append.1 h
  have htotal : (without id (a ++ target :: b)).length = (without id a).length + (without id b).length + 1 := by
    rw [without_item hne, List.length_append, List.length_cons]
    omega
  have hle : a.length ≤ (without id a).length + 1 := by
    by_cases hida : id ∈ a
    · exact (length_without_of_mem ha hida).ge
    · rw [without_eq_self hida]
      exact Nat.le_succ _
  have hclamp : clamp a.length 0 (without id (a ++ target :: b)).length = a.length := by
    unfold clamp
    omega
  unfold landing
  simp only [hclamp]
  rw [htotal]
  by_cases hida : id ∈ a
  · have hlength := length_without_of_mem ha hida
    have hidx : (a ++ target :: b).idxOf id < a.length := by
      rw [List.idxOf_append_of_mem hida]
      exact List.idxOf_lt_length_iff.2 hida
    have hidb : id ∉ b := fun hmem => hapart id hida id (List.mem_cons_of_mem _ hmem) rfl
    have hin : id ∈ a ++ target :: b := List.mem_append_left _ hida
    rw [without_eq_self hidb]
    by_cases hnil : b = []
    · subst hnil
      rw [if_pos (show id ∈ a ∧ [] = [] from ⟨hida, rfl⟩), if_neg]
      · omega
      · rintro ⟨-, -, hroom⟩
        rw [List.length_nil] at hroom
        omega
    · have hpos := List.length_pos_iff.2 hnil
      rw [if_neg (show ¬(id ∈ a ∧ b = []) from fun hand => hnil hand.2), if_pos]
      · omega
      · refine ⟨hin, ?_, ?_⟩
        · omega
        · omega
  · have hidx : a.length ≤ (a ++ target :: b).idxOf id := by
      rw [List.idxOf_append_of_notMem hida]
      exact Nat.le_add_right _ _
    rw [without_eq_self hida, if_neg (show ¬(id ∈ a ∧ b = []) from fun hand => hida hand.1), if_neg]
    rintro ⟨-, hlt, -⟩
    omega

/-! ## Right before the target -/

/-- The column with the module in front of the target. -/
def putBefore (id target : String) (col : List String) : List String := col.flatMap fun x => if x = target then [id, x] else [x]

theorem putBefore_of_absent (h : target ∉ col) : putBefore id target col = col := by
  have hself : ∀ x ∈ col, (if x = target then [id, x] else [x]) = [x] := fun x hx => if_neg fun (heq : x = target) => h (heq ▸ hx)
  refine (List.flatMap_congr hself).trans ?_
  exact List.flatMap_singleton' col

theorem putBefore_item (ha : target ∉ a) (hb : target ∉ b) : putBefore id target (a ++ target :: b) = a ++ id :: target :: b := by
  have hrest : putBefore id target (target :: b) = id :: target :: putBefore id target b := by
    rw [putBefore, List.flatMap_cons, if_pos rfl]
    rfl
  rw [putBefore_of_absent hb] at hrest
  rw [← hrest]
  nth_rewrite 2 [← @putBefore_of_absent a id target ha]
  exact List.flatMap_append

/-- The columns that a drop on an item should make. -/
def droppedBefore (cols : List (List String)) (id target : String) : List (List String) :=
  if id = target then cols else (cols.map (without id)).map (putBefore id target)

/-- The target is the last of its column, and the module is above it there. -/
def FromAbove (cols : List (List String)) (id target : String) : Prop := id ≠ target ∧ ∃ col ∈ cols, id ∈ col ∧ col.getLast? = some target

/-- The drop puts the module right before the target, once, and leaves the other profiles alone. -/
structure DropsBefore (s : State) (key : ProfileKey) (id target : String) : Prop where
  columns : ((s.dropOnItem key id target).profiles key).columns = droppedBefore (s.profiles key).columns id target
  once : ((s.dropOnItem key id target).ids key).count id = 1
  others : ∀ key' ≠ key, (s.dropOnItem key id target).profiles key' = s.profiles key'

/-- The drop puts the module at the end of the column, once, and leaves the other profiles alone. -/
structure DropsBehind (s : State) (key : ProfileKey) (id : String) (colIdx : Nat) : Prop where
  columns : ((s.dropOnColumn key id colIdx).profiles key).columns =
    ((s.profiles key).columns.map (without id)).set colIdx (without id ((s.profiles key).columns.getD colIdx []) ++ [id])
  once : ((s.dropOnColumn key id colIdx).ids key).count id = 1
  others : ∀ key' ≠ key, (s.dropOnColumn key id colIdx).profiles key' = s.profiles key'

variable {s : State} {key : ProfileKey}

theorem count_placeModule (h : (s.ids key).Nodup) (hc : c < (s.profiles key).columns.length) (rowIdx : Int) :
    ((s.placeModule key id c rowIdx).ids key).count id = 1 := by
  have hcol : HasColumn (s.profiles key) c := ⟨Int.natCast_nonneg c, by exact_mod_cast hc⟩
  rw [State.placeModule, State.ids_setProfile_self, (placeIn_perm hcol).count_eq, List.count_cons_self]
  exact congrArg Nat.succ (List.count_eq_zero.2 h.not_mem_erase)

theorem columns_placeModule (h : (s.ids key).Nodup) (hc : c < (s.profiles key).columns.length) (rowIdx : Int) :
    ((s.placeModule key id c rowIdx).profiles key).columns = ((s.profiles key).columns.map (without id)).set c
      (spliceAt (without id ((s.profiles key).columns.getD c [])) (landing ((s.profiles key).columns.getD c []) id rowIdx) [id]) := by
  rw [State.placeModule, State.profiles_setProfile, if_pos rfl]
  exact placeIn_columns h hc rowIdx

theorem others_placeModule (colIdx rowIdx : Int) {key' : ProfileKey} (hkey : key' ≠ key) :
    (s.placeModule key id colIdx rowIdx).profiles key' = s.profiles key' := by
  rw [State.placeModule, State.profiles_setProfile, if_neg hkey]

theorem spliceAt_end (col : List String) (id : String) : spliceAt col col.length [id] = col ++ [id] := by
  have hend := spliceAt_length col [] id
  rwa [List.append_nil] at hend

theorem dropsBehind (h : (s.ids key).Nodup) (hc : c < (s.profiles key).columns.length) (id : String) : DropsBehind s key id c := by
  refine ⟨?_, count_placeModule h hc _, fun key' hkey => others_placeModule _ _ hkey⟩
  rw [State.dropOnColumn, columns_placeModule h hc]
  have hle : (without id ((s.profiles key).columns.getD c [])).length ≤ ((s.profiles key).columns.getD c []).length := List.length_filter_le _ _
  have hclamp : clamp (lengthAt (s.profiles key).columns c) 0 (without id ((s.profiles key).columns.getD c [])).length =
      (without id ((s.profiles key).columns.getD c [])).length := by
    unfold clamp lengthAt
    omega
  have hland : landing ((s.profiles key).columns.getD c []) id (lengthAt (s.profiles key).columns c) =
      (without id ((s.profiles key).columns.getD c [])).length := by
    unfold landing
    simp only [hclamp]
    exact if_neg fun hand => absurd hand.2.2 (lt_irrefl _)
  rw [hland, spliceAt_end]

/-- Where a target is. -/
theorem exists_item (h : target ∈ cols.flatten) : ∃ c < cols.length, ∃ a b, cols.getD c [] = a ++ target :: b ∧ target ∉ a ∧
    findId cols target = some (c, a.length) := by
  cases hfound : findId cols target with
  | none => exact absurd h (findId_none hfound)
  | some found =>
    obtain ⟨c, r⟩ := found
    obtain ⟨hc, hmem, rfl⟩ := findId_some hfound
    obtain ⟨a, b, hsplit, ha⟩ := List.eq_append_cons_of_mem hmem
    exact ⟨c, hc, a, b, hsplit, ha, by rw [hsplit, List.idxOf_append_of_notMem ha, List.idxOf_cons_self, Nat.add_zero]⟩

theorem fromAbove_iff (h : cols.flatten.Nodup) (hc : c < cols.length) (hcol : cols.getD c [] = a ++ target :: b) (hne : id ≠ target) :
    FromAbove cols id target ↔ id ∈ a ∧ b = [] := by
  have hnodup := hcol ▸ nodup_column h hc
  have htarget : target ∈ cols.getD c [] := hcol ▸ List.mem_append_right _ List.mem_cons_self
  constructor
  · rintro ⟨-, col, hmem, hid, hlast⟩
    obtain ⟨j, hj, rfl⟩ := List.getElem_of_mem hmem
    have hgetD : cols.getD j [] = cols[j] := by
      rw [List.getD_eq_getElem?_getD, List.getElem?_eq_getElem hj]
      rfl
    have hsame : j = c := column_unique h hj hc (hgetD ▸ List.mem_of_getLast? hlast) htarget
    subst hsame
    rw [← hgetD, hcol] at hid hlast
    have hnil : b = [] := by
      by_contra hb
      rw [List.getLast?_append_of_ne_nil _ (List.cons_ne_nil _ _), List.getLast?_cons_of_ne_nil hb] at hlast
      exact (List.nodup_cons.1 (List.nodup_append.1 hnodup).2.1).1 (List.mem_of_getLast? hlast)
    subst hnil
    rcases List.mem_append.1 hid with hid | hid
    · exact ⟨hid, rfl⟩
    · exact absurd (List.mem_singleton.1 hid) hne
  · rintro ⟨hid, rfl⟩
    exact ⟨hne, _, getD_mem hc, hcol ▸ List.mem_append_left _ hid, by rw [hcol, List.getLast?_concat]⟩

theorem landing_self (h : (a ++ id :: b).Nodup) : landing (a ++ id :: b) id a.length = a.length := by
  have hida : id ∉ a := fun hmem => (List.nodup_append.1 h).2.2 id hmem id List.mem_cons_self rfl
  have hle : a.length ≤ (without id (a ++ id :: b)).length := by
    have := length_without_of_mem h (List.mem_append_right _ List.mem_cons_self)
    rw [List.length_append, List.length_cons] at this
    omega
  have hclamp : clamp a.length 0 (without id (a ++ id :: b)).length = a.length := by
    unfold clamp
    omega
  have hidx : (a ++ id :: b).idxOf id = a.length := by rw [List.idxOf_append_of_notMem hida, List.idxOf_cons_self, Nat.add_zero]
  unfold landing
  simp only [hclamp, hidx]
  exact if_neg fun hand => absurd hand.2.1 (lt_irrefl _)

/-- Where the module lands in the column of the target. -/
theorem spliced_item (h : (a ++ target :: b).Nodup) (hne : id ≠ target) :
    spliceAt (without id (a ++ target :: b)) (landing (a ++ target :: b) id a.length) [id] =
      if id ∈ a ∧ b = [] then without id a ++ [target, id] else putBefore id target (without id (a ++ target :: b)) := by
  rw [landing_item h hne, without_item hne]
  split
  · rename_i hbad
    have hend := spliceAt_end (without id a ++ [target]) id
    rw [List.length_append] at hend
    rw [hbad.2]
    refine hend.trans ?_
    rw [List.append_assoc]
    rfl
  · have ha : target ∉ without id a := fun hmem =>
      (List.nodup_append.1 h).2.2 target (List.mem_of_mem_filter hmem) target List.mem_cons_self rfl
    have hb : target ∉ without id b := fun hmem => (List.nodup_cons.1 (List.nodup_append.1 h).2.1).1 (List.mem_of_mem_filter hmem)
    rw [putBefore_item ha hb]
    exact spliceAt_length _ _ id

/-- The columns that `droppedBefore` makes differ from those without the module in the target's column alone. -/
theorem droppedBefore_eq (h : cols.flatten.Nodup) (hc : c < cols.length) (htarget : target ∈ cols.getD c []) (hne : id ≠ target) :
    droppedBefore cols id target = (cols.map (without id)).set c (putBefore id target (without id (cols.getD c []))) := by
  rw [droppedBefore, if_neg hne, ← getD_map_without hc]
  refine (set_eq_map fun j hj hother => putBefore_of_absent fun hmem => hother ?_).symm
  rw [List.length_map] at hj
  rw [getD_map_without hj] at hmem
  exact column_unique h hj hc (List.mem_of_mem_filter hmem) htarget

theorem dropsBefore_iff (h : (s.ids key).Nodup) (htarget : target ∈ s.ids key) (id : String) :
    DropsBefore s key id target ↔ ¬FromAbove (s.profiles key).columns id target := by
  obtain ⟨c, hc, a, b, hcol, ha, hfind⟩ := exists_item htarget
  have hdrop : s.dropOnItem key id target = s.placeModule key id c a.length := by rw [State.dropOnItem, hfind]
  have hcolumns := @columns_placeModule id c s key h hc a.length
  have hnodup := hcol ▸ nodup_column h hc
  have hin : target ∈ (s.profiles key).columns.getD c [] := hcol ▸ List.mem_append_right _ List.mem_cons_self
  have hspec : DropsBefore s key id target ↔ ((s.placeModule key id c a.length).profiles key).columns = droppedBefore (s.profiles key).columns id target := by
    refine ⟨fun hd => hdrop ▸ hd.columns, fun heq => ⟨hdrop ▸ heq, hdrop ▸ count_placeModule h hc _, fun key' hkey => ?_⟩⟩
    rw [hdrop, others_placeModule _ _ hkey]
  rw [hspec, hcolumns, hcol]
  by_cases hne : id = target
  · -- dropped on itself
    subst hne
    refine iff_of_true ?_ fun hbad => hbad.1 rfl
    have hrest := map_without h hc hin
    rw [landing_self hnodup, droppedBefore, if_pos rfl, ← hrest, List.set_set]
    have hwithout : without id (a ++ id :: b) = a ++ b := by
      rw [← erase_eq_without hnodup, List.erase_append_right _ ha, List.erase_cons_head]
    rw [hwithout, spliceAt_length, ← hcol, List.getD_eq_getElem?_getD, List.getElem?_eq_getElem hc]
    exact List.set_getElem_self hc
  · rw [fromAbove_iff h hc hcol hne, droppedBefore_eq h hc hin hne, hcol, spliced_item hnodup hne]
    split
    · rename_i hbad
      refine iff_of_false (fun heq => ?_) (not_not.2 hbad)
      -- in the target's column the two end differently
      have hat := congrArg (fun l => l.getD c []) heq
      have hlength : c < ((s.profiles key).columns.map (without id)).length := by rwa [List.length_map]
      simp only [getD_set_self hlength] at hat
      have hout : target ∉ without id a := fun hmem => ha (List.mem_of_mem_filter hmem)
      have hnil : target ∉ without id [] := List.not_mem_nil
      rw [hbad.2, without_item hne, putBefore_item hout hnil] at hat
      have hends := List.append_cancel_left hat
      exact hne (List.cons.inj hends).1.symm
    · rename_i hgood
      exact iff_of_true rfl hgood

/-- For every layout in which a module is in the profile once at most: a drop on an item does what it should exactly where that item is not the last
of a column in which the module is above it, and a drop on the empty area always does. -/
theorem drop_lands (h : (s.ids key).Nodup) (id : String) :
    (∀ target ∈ s.ids key, DropsBefore s key id target ↔ ¬FromAbove (s.profiles key).columns id target) ∧
      ∀ colIdx < (s.profiles key).columns.length, DropsBehind s key id colIdx :=
  ⟨fun _ htarget => dropsBefore_iff h htarget id, fun _ hc => dropsBehind h hc id⟩

/-- Two modules in one column. -/
def twoModules : State := initialState.setProfile .col1 ⟨true, [["files", "sessions"]]⟩

theorem drop_lands_two : (∀ target ∈ twoModules.ids .col1, DropsBefore twoModules .col1 "sessions" target ↔
    ¬FromAbove (twoModules.profiles .col1).columns "sessions" target) ∧
      ∀ colIdx < (twoModules.profiles .col1).columns.length, DropsBehind twoModules .col1 "sessions" colIdx :=
  drop_lands (by decide) "sessions"

/-- The first one dropped on the last. -/
theorem drop_behind_last : ¬DropsBefore twoModules .col1 "files" "sessions" := by
  intro h
  exact absurd h.columns (by decide)

end Purdex.NewTab
