/-
The operations on the tree of panes keep a layout well formed, and account for every leaf.
-/
import Purdex.Panes.Layout
import Mathlib.Data.List.Nodup
import Mathlib.Tactic.NormNum

namespace Purdex.Layout

open Panes (SplitDirection)

namespace PaneLayout

variable {γ : Type} {layout result : PaneLayout γ} {paneId newPaneId splitId : String} {content newContent : γ} {direction : SplitDirection}

/-! ## Layouts that are well formed -/

def paneIds (layout : PaneLayout γ) : List String := layout.collectLeaves.map (·.id)

def splitIds (layout : PaneLayout γ) : List String := layout.splits.map (·.id)

/-- At least two children, each with a size of its own, and a hundred of them in all. -/
structure SplitNode.Balanced (node : SplitNode) : Prop where
  two : 2 ≤ node.count
  length : node.sizes.length = node.count
  pos : ∀ size ∈ node.sizes, 0 < size
  sum : node.sizes.sum = 100

structure WellFormed (layout : PaneLayout γ) : Prop where
  panes : layout.paneIds.Nodup
  splits : layout.splitIds.Nodup
  balanced : ∀ node ∈ layout.splits, node.Balanced

/-- No pane has the id of a split. -/
def Apart (layout : PaneLayout γ) : Prop := ∀ id ∈ layout.paneIds, id ∉ layout.splitIds

def Fresh (layout : PaneLayout γ) (id : String) : Prop := id ∉ layout.paneIds ∧ id ∉ layout.splitIds

/-- The result of an operation is well formed again, and its panes are apart from its splits if they were. -/
def Keeps (layout result : PaneLayout γ) : Prop := result.WellFormed ∧ (layout.Apart → result.Apart)

theorem WellFormed.keeps (h : layout.WellFormed) : layout.Keeps layout := ⟨h, id⟩

theorem mem_paneIds : paneId ∈ layout.paneIds ↔ ∃ pane ∈ layout.collectLeaves, pane.id = paneId := List.mem_map

theorem eq_of_mem {pane pane' : Pane γ} (h : layout.WellFormed) (hpane : pane ∈ layout.collectLeaves) (hpane' : pane' ∈ layout.collectLeaves)
    (hid : pane.id = pane'.id) : pane = pane' := List.inj_on_of_nodup_map h.panes hpane hpane' hid

theorem find_of_mem {pane : Pane γ} (h : layout.WellFormed) (hpane : pane ∈ layout.collectLeaves) : layout.findPane pane.id = some pane := by
  rw [findPane_eq]
  cases hfind : layout.collectLeaves.find? (·.id = pane.id) with
  | none => exact absurd (decide_eq_true rfl) (List.find?_eq_none.1 hfind pane hpane)
  | some pane' =>
    have hid : pane'.id = pane.id := of_decide_eq_true (@List.find?_some _ (·.id = pane.id) pane' _ hfind)
    rw [eq_of_mem h (List.mem_of_find?_eq_some hfind) hpane hid]

theorem find_eq_none : layout.findPane paneId = none ↔ paneId ∉ layout.paneIds := by
  rw [findPane_eq, List.find?_eq_none, mem_paneIds, not_exists]
  simp

/-! ## Changing panes in place -/

/-- A change of the panes alone that gives no two of them one id. -/
theorem keeps_mapPanes (h : layout.WellFormed) {f : Pane γ → Pane γ} (hids : (layout.collectLeaves.map fun pane => (f pane).id).Nodup)
    (hnew : ∀ pane ∈ layout.collectLeaves, (f pane).id ∈ layout.paneIds ∨ (f pane).id ∉ layout.splitIds) : layout.Keeps (layout.mapPanes f) := by
  have hpanes : (layout.mapPanes f).paneIds = layout.collectLeaves.map fun pane => (f pane).id := by
    rw [paneIds, collectLeaves_mapPanes, List.map_map]
    rfl
  have hsplits : (layout.mapPanes f).splitIds = layout.splitIds := by rw [splitIds, splits_mapPanes, splitIds]
  refine ⟨⟨hpanes ▸ hids, hsplits ▸ h.splits, by rw [splits_mapPanes]; exact h.balanced⟩, fun hapart id hid hsplit => ?_⟩
  rw [hpanes] at hid
  obtain ⟨pane, hpane, rfl⟩ := List.mem_map.1 hid
  rw [hsplits] at hsplit
  rcases hnew pane hpane with hold | hno
  · exact hapart _ hold hsplit
  · exact hno hsplit

/-- A change of contents alone. -/
theorem keeps_contents (h : layout.WellFormed) {f : Pane γ → Pane γ} (hid : ∀ pane, (f pane).id = pane.id) : layout.Keeps (layout.mapPanes f) := by
  refine keeps_mapPanes h ?_ fun pane hpane => .inl ?_
  · rw [List.map_congr_left fun pane _ => hid pane]
    exact h.panes
  · rw [hid]
    exact List.mem_map_of_mem hpane

@[simp] theorem id_setContent (paneId : String) (content : γ) (pane : Pane γ) : (setContent paneId content pane).id = pane.id := by
  unfold setContent
  split <;> rfl

theorem setContent_self {pane : Pane γ} (h : pane.id = paneId) (content : γ) : setContent paneId content pane = { pane with content } := if_pos h

theorem setContent_of_ne {pane : Pane γ} (h : pane.id ≠ paneId) (content : γ) : setContent paneId content pane = pane := if_neg h

/-- The leaves before and behind a pane have other ids. -/
theorem ne_of_split (h : layout.WellFormed) {before after : List (Pane γ)} {pane : Pane γ} (hl : layout.collectLeaves = before ++ pane :: after) :
    ∀ other ∈ before ++ after, other.id ≠ pane.id := by
  have hnodup := h.panes
  rw [paneIds, hl, List.map_append, List.map_cons, List.nodup_middle, List.nodup_cons] at hnodup
  intro other hother hid
  refine hnodup.1 (hid ▸ ?_)
  rw [← List.map_append]
  exact List.mem_map_of_mem hother

/-- A map that only changes the pane. -/
theorem map_at {f : Pane γ → Pane γ} {before after : List (Pane γ)} {pane : Pane γ} (hf : ∀ other ∈ before ++ after, f other = other) :
    (before ++ pane :: after).map f = before ++ f pane :: after := by
  have hbefore : before.map f = before := (List.map_congr_left fun other hother => hf other (List.mem_append_left _ hother)).trans (List.map_id' _)
  have hafter : after.map f = after := (List.map_congr_left fun other hother => hf other (List.mem_append_right _ hother)).trans (List.map_id' _)
  rw [List.map_append, List.map_cons, hbefore, hafter]

/-- What `updatePaneInLayout` is for. -/
structure Updates (layout : PaneLayout γ) (paneId : String) (content : γ) (result : PaneLayout γ) : Prop where
  one : ∀ before pane after, layout.collectLeaves = before ++ pane :: after → pane.id = paneId →
    result.collectLeaves = before ++ ⟨pane.id, content⟩ :: after
  shape : result.shape = layout.shape
  absent : paneId ∉ layout.paneIds → result = layout
  keeps : layout.Keeps result

theorem updates (h : layout.WellFormed) (paneId : String) (content : γ) : layout.Updates paneId content (layout.updatePaneInLayout paneId content) := by
  rw [updatePaneInLayout_eq]
  refine ⟨fun before pane after hl hid => ?_, shape_mapPanes _ _, fun habsent => ?_, keeps_contents h (id_setContent paneId content)⟩
  · rw [collectLeaves_mapPanes, hl, map_at fun other hother => setContent_of_ne (hid ▸ ne_of_split h hl other hother) content,
      setContent_self hid]
  · exact mapPanes_eq_self fun pane hpane => setContent_of_ne (fun hid => habsent (mem_paneIds.2 ⟨pane, hpane, hid⟩)) content

/-! ## Exchanging two contents -/

/-- What the panes of the two ids get of each other. -/
def exchange (paneA paneB : Pane γ) (pane : Pane γ) : Pane γ :=
  if pane.id = paneA.id then { pane with content := paneB.content }
  else if pane.id = paneB.id then { pane with content := paneA.content } else pane

@[simp] theorem id_exchange (paneA paneB pane : Pane γ) : (exchange paneA paneB pane).id = pane.id := by
  unfold exchange
  split
  · rfl
  · split <;> rfl

theorem exchange_left (paneA paneB : Pane γ) : exchange paneA paneB paneA = { paneA with content := paneB.content } := if_pos rfl

theorem exchange_right {paneA paneB : Pane γ} (hsame : paneA.id = paneB.id → paneA = paneB) :
    exchange paneA paneB paneB = { paneB with content := paneA.content } := by
  unfold exchange
  split
  · rename_i hid
    rw [hsame hid.symm]
  · rw [if_pos rfl]

theorem swapPaneContent_some {paneA paneB : Pane γ} (h : layout.WellFormed) (hA : paneA ∈ layout.collectLeaves) (hB : paneB ∈ layout.collectLeaves) :
    layout.swapPaneContent paneA.id paneB.id = layout.mapPanes (exchange paneA paneB) := by
  unfold swapPaneContent
  rw [find_of_mem h hA, find_of_mem h hB]
  simp only
  rw [updatePaneInLayout_eq, updatePaneInLayout_eq, mapPanes_mapPanes]
  refine mapPanes_congr fun pane hpane => ?_
  rw [Function.comp_apply]
  unfold exchange
  split
  · rename_i hid
    rw [setContent_self hid]
    by_cases hAB : paneA.id = paneB.id
    · -- one pane twice
      have hself : Pane.id { pane with content := paneB.content } = paneB.id := hid.trans hAB
      rw [setContent_self hself, eq_of_mem h hA hB hAB]
    · have hother : Pane.id { pane with content := paneB.content } ≠ paneB.id := fun hid' => hAB (hid.symm.trans hid')
      exact setContent_of_ne hother _
  · rename_i hne
    rw [setContent_of_ne hne]
    rfl

theorem swapPaneContent_none {paneIdA paneIdB : String} (habsent : paneIdA ∉ layout.paneIds ∨ paneIdB ∉ layout.paneIds) :
    layout.swapPaneContent paneIdA paneIdB = layout := by
  unfold swapPaneContent
  split
  · rename_i hA hB
    rcases habsent with habsent | habsent
    · rw [find_eq_none.2 habsent] at hA
      cases hA
    · rw [find_eq_none.2 habsent] at hB
      cases hB
  · rfl

/-- What `swapPaneContent` is for. -/
structure Swaps (layout : PaneLayout γ) (paneIdA paneIdB : String) (result : PaneLayout γ) : Prop where
  two : ∀ paneA ∈ layout.collectLeaves, ∀ paneB ∈ layout.collectLeaves, paneA.id = paneIdA → paneB.id = paneIdB →
    result.collectLeaves = layout.collectLeaves.map fun pane =>
      if pane.id = paneIdA then ⟨pane.id, paneB.content⟩ else if pane.id = paneIdB then ⟨pane.id, paneA.content⟩ else pane
  shape : result.shape = layout.shape
  absent : paneIdA ∉ layout.paneIds ∨ paneIdB ∉ layout.paneIds → result = layout
  back : result.swapPaneContent paneIdA paneIdB = layout
  keeps : layout.Keeps result

theorem swaps (h : layout.WellFormed) (paneIdA paneIdB : String) : layout.Swaps paneIdA paneIdB (layout.swapPaneContent paneIdA paneIdB) := by
  by_cases hboth : paneIdA ∈ layout.paneIds ∧ paneIdB ∈ layout.paneIds
  · obtain ⟨paneA, hA, rfl⟩ := mem_paneIds.1 hboth.1
    obtain ⟨paneB, hB, rfl⟩ := mem_paneIds.1 hboth.2
    have hkeeps := keeps_contents h (id_exchange paneA paneB)
    rw [swapPaneContent_some h hA hB]
    refine ⟨fun paneA' hA' paneB' hB' hidA hidB => ?_, shape_mapPanes _ _, fun habsent => ?_, ?_, hkeeps⟩
    · rw [eq_of_mem h hA' hA hidA, eq_of_mem h hB' hB hidB, collectLeaves_mapPanes]
      rfl
    · exact absurd habsent (not_or.2 ⟨not_not.2 hboth.1, not_not.2 hboth.2⟩)
    · -- the second exchange finds the contents where the first one put them
      have hleaves := collectLeaves_mapPanes (exchange paneA paneB) layout
      have hA' : exchange paneA paneB paneA ∈ (layout.mapPanes (exchange paneA paneB)).collectLeaves := hleaves ▸ List.mem_map_of_mem hA
      have hB' : exchange paneA paneB paneB ∈ (layout.mapPanes (exchange paneA paneB)).collectLeaves := hleaves ▸ List.mem_map_of_mem hB
      have hback := swapPaneContent_some hkeeps.1 hA' hB'
      rw [id_exchange, id_exchange] at hback
      rw [hback, mapPanes_mapPanes]
      refine mapPanes_eq_self fun pane hpane => ?_
      rw [Function.comp_apply, exchange_left, exchange_right fun hid => eq_of_mem h hA hB hid]
      by_cases hidA : pane.id = paneA.id
      · rw [eq_of_mem h hpane hA hidA, exchange_left, exchange, if_pos rfl]
      · by_cases hidB : pane.id = paneB.id
        · have hne : paneB.id ≠ paneA.id := fun hid => hidA (hidB.trans hid)
          rw [eq_of_mem h hpane hB hidB, exchange_right fun hid => eq_of_mem h hA hB hid, exchange, if_neg hne, if_pos rfl]
        · rw [show exchange paneA paneB pane = pane by rw [exchange, if_neg hidA, if_neg hidB], exchange, if_neg hidA, if_neg hidB]
  · have habsent : paneIdA ∉ layout.paneIds ∨ paneIdB ∉ layout.paneIds := not_and_or.1 hboth
    rw [swapPaneContent_none habsent]
    refine ⟨fun paneA hA paneB hB hidA hidB => ?_, rfl, fun _ => rfl, swapPaneContent_none habsent, h.keeps⟩
    exact absurd ⟨mem_paneIds.2 ⟨paneA, hA, hidA⟩, mem_paneIds.2 ⟨paneB, hB, hidB⟩⟩ hboth

/-! ## Another id for a pane -/

/-- The panes of an id with another one. -/
def setId (paneId newPaneId : String) (pane : Pane γ) : Pane γ := if pane.id = paneId then { pane with id := newPaneId } else pane

theorem setId_of_ne {pane : Pane γ} (h : pane.id ≠ paneId) (newPaneId : String) : setId paneId newPaneId pane = pane := if_neg h

theorem mapPanes_setId_of_absent (h : paneId ∉ layout.paneIds) (newPaneId : String) : layout.mapPanes (setId paneId newPaneId) = layout :=
  mapPanes_eq_self fun pane hpane => setId_of_ne (fun hid => h (mem_paneIds.2 ⟨pane, hpane, hid⟩)) newPaneId

theorem paneIds_split (id : String) (direction : SplitDirection) (children : List (PaneLayout γ)) (sizes : List ℚ) :
    (split id direction children sizes).paneIds = children.flatMap paneIds := by
  rw [paneIds, collectLeaves_split, List.map_flatMap]
  rfl

/-- The first leaf of the id is the only one. -/
theorem remountLeaf_eq (newPaneId : String) (layout : PaneLayout γ) (h : layout.paneIds.Nodup) : layout.remountLeaf paneId newPaneId =
    if paneId ∈ layout.paneIds then some (layout.mapPanes (setId paneId newPaneId), newPaneId) else none := by
  induction layout using induct with
  | leaf pane =>
    have hids : (leaf pane).paneIds = [pane.id] := rfl
    rw [remountLeaf, hids, mapPanes, setId]
    by_cases hid : pane.id = paneId
    · rw [if_neg (not_not.2 hid), if_pos (List.mem_singleton.2 hid.symm), if_pos hid]
    · rw [if_pos hid, if_neg fun hmem => hid (List.mem_singleton.1 hmem).symm]
  | split id direction children sizes ih =>
    rw [paneIds_split] at h
    have hof : remountLeafOf paneId newPaneId children =
        if paneId ∈ children.flatMap paneIds then some (children.map (mapPanes (setId paneId newPaneId)), newPaneId) else none := by
      induction children with
      | nil => rfl
      | cons child rest ihrest =>
        rw [List.flatMap_cons, List.nodup_append] at h
        have hrest := ihrest (fun c hc => ih c (List.mem_cons_of_mem _ hc)) h.2.1
        rw [remountLeafOf, ih child List.mem_cons_self h.1, List.flatMap_cons, List.map_cons]
        by_cases hchild : paneId ∈ child.paneIds
        · have habsent : ∀ c ∈ rest, paneId ∉ c.paneIds := fun c hc hmem =>
            h.2.2 paneId hchild paneId (List.mem_flatMap.2 ⟨c, hc, hmem⟩) rfl
          have hself : rest.map (mapPanes (setId paneId newPaneId)) = rest :=
            (List.map_congr_left fun c hc => mapPanes_setId_of_absent (habsent c hc) newPaneId).trans (List.map_id' rest)
          rw [if_pos hchild, if_pos (List.mem_append_left _ hchild), hself]
        · rw [if_neg hchild]
          simp only
          rw [hrest, mapPanes_setId_of_absent hchild]
          by_cases hmem : paneId ∈ rest.flatMap paneIds
          · rw [if_pos hmem, if_pos (List.mem_append_right _ hmem)]
            rfl
          · rw [if_neg hmem, if_neg fun hor => (List.mem_append.1 hor).elim hchild hmem]
            rfl
    rw [remountLeaf, hof, paneIds_split]
    split
    · rw [mapPanes_split]
      rfl
    · rfl

/-- What `remountLeaf` is for. -/
structure Remounts (layout : PaneLayout γ) (paneId newPaneId : String) (result : Option (PaneLayout γ × String)) : Prop where
  absent : paneId ∉ layout.paneIds → result = none
  one : paneId ∈ layout.paneIds → ∃ remounted, result = some (remounted, newPaneId) ∧ remounted.shape = layout.shape ∧ layout.Keeps remounted ∧
    ∀ before pane after, layout.collectLeaves = before ++ pane :: after → pane.id = paneId →
      remounted.collectLeaves = before ++ ⟨newPaneId, pane.content⟩ :: after

theorem remounts (h : layout.WellFormed) (paneId : String) (hfresh : layout.Fresh newPaneId) :
    layout.Remounts paneId newPaneId (layout.remountLeaf paneId newPaneId) := by
  rw [remountLeaf_eq newPaneId layout h.panes]
  refine ⟨fun habsent => if_neg habsent, fun hmem => ⟨_, if_pos hmem, shape_mapPanes _ _, keeps_mapPanes h ?_ fun pane hpane => ?_, ?_⟩⟩
  · -- no other leaf has the new id
    refine List.Nodup.map_on ?_ (List.Nodup.of_map _ h.panes)
    intro pane hpane pane' hpane' hid
    have hne : ∀ pane ∈ layout.collectLeaves, pane.id ≠ newPaneId := fun pane hpane heq => hfresh.1 (mem_paneIds.2 ⟨pane, hpane, heq⟩)
    refine eq_of_mem h hpane hpane' ?_
    by_cases hp : pane.id = paneId
    · by_cases hp' : pane'.id = paneId
      · rw [hp, hp']
      · rw [setId_of_ne hp', setId, if_pos hp] at hid
        exact absurd hid.symm (hne pane' hpane')
    · by_cases hp' : pane'.id = paneId
      · rw [setId_of_ne hp, setId, if_pos hp'] at hid
        exact absurd hid (hne pane hpane)
      · rwa [setId_of_ne hp, setId_of_ne hp'] at hid
  · rw [setId]
    split
    · exact .inr hfresh.2
    · exact .inl (List.mem_map_of_mem hpane)
  · intro before pane after hl hid
    rw [collectLeaves_mapPanes, hl, map_at fun other hother => setId_of_ne (hid ▸ ne_of_split h hl other hother) newPaneId, setId, if_pos hid]

/-! ## Splitting -/

/-- A pane, and behind it the new one if it is the target. -/
def withNew (paneId newPaneId : String) (newContent : γ) (pane : Pane γ) : List (Pane γ) :=
  if pane.id = paneId then [pane, ⟨newPaneId, newContent⟩] else [pane]

theorem collectLeaves_splitAtPane (paneId : String) (direction : SplitDirection) (newContent : γ) (splitId newPaneId : String) (layout : PaneLayout γ) :
    (layout.splitAtPane paneId direction newContent splitId newPaneId).collectLeaves =
      layout.collectLeaves.flatMap (withNew paneId newPaneId newContent) := by
  induction layout using induct with
  | leaf pane =>
    have hleaves : (leaf pane).collectLeaves.flatMap (withNew paneId newPaneId newContent) = withNew paneId newPaneId newContent pane :=
      List.flatMap_singleton _ _
    rw [hleaves, splitAtPane, withNew]
    split
    · rw [collectLeaves_split]
      rfl
    · rfl
  | split id dir children sizes ih =>
    rw [splitAtPane_split, collectLeaves_split, collectLeaves_split, List.flatMap_map, List.flatMap_assoc]
    exact List.flatMap_congr fun child hchild => ih child hchild

/-- Where the pane is not there, there is nothing to split. -/
theorem splitAtPane_of_absent (h : paneId ∉ layout.paneIds) (direction : SplitDirection) (newContent : γ) (splitId newPaneId : String) :
    layout.splitAtPane paneId direction newContent splitId newPaneId = layout := by
  induction layout using induct with
  | leaf pane =>
    rw [splitAtPane, if_neg]
    rintro rfl
    exact h List.mem_cons_self
  | split id dir children sizes ih =>
    rw [paneIds_split] at h
    rw [splitAtPane_split]
    congr 1
    refine (List.map_congr_left fun child hchild => ih child hchild fun hmem => ?_).trans (List.map_id' children)
    exact h (List.mem_flatMap.2 ⟨child, hchild, hmem⟩)

/-- One new split for each leaf of the id. -/
theorem splitIds_splitAtPane (paneId : String) (direction : SplitDirection) (newContent : γ) (splitId newPaneId : String) (layout : PaneLayout γ) :
    (layout.splitAtPane paneId direction newContent splitId newPaneId).splitIds.Perm
      ((layout.paneIds.filter (· = paneId)).map (fun _ => splitId) ++ layout.splitIds) := by
  induction layout using induct with
  | leaf pane =>
    have hids : (leaf pane).paneIds = [pane.id] := rfl
    rw [splitAtPane, hids]
    by_cases hid : pane.id = paneId
    · rw [if_pos hid, splitIds, splits_split, List.filter_cons_of_pos (by simpa using hid)]
      exact List.Perm.refl _
    · rw [if_neg hid, List.filter_cons_of_neg (by simpa using hid)]
      exact List.Perm.refl _
  | split id dir children sizes ih =>
    have hsplit : ∀ children : List (PaneLayout γ), (split id dir children sizes).splitIds = id :: children.flatMap splitIds := by
      intro children
      rw [splitIds, splits_split, List.map_cons, List.map_flatMap]
      rfl
    rw [splitAtPane_split, hsplit, hsplit, List.flatMap_map, paneIds_split, List.filter_flatMap, List.map_flatMap]
    refine List.Perm.trans (List.Perm.cons id ?_) List.perm_middle.symm
    refine (List.Perm.flatMap_left children fun child hchild => ih child hchild).trans ?_
    exact (List.flatMap_append_perm children _ _).symm

theorem balanced_half (splitId : String) : SplitNode.Balanced ⟨splitId, 2, [50, 50]⟩ where
  two := Nat.le_refl 2
  length := rfl
  pos := by
    intro size hsize
    simp only [List.mem_cons, List.not_mem_nil, or_false, or_self] at hsize
    rw [hsize]
    norm_num
  sum := by norm_num

theorem balanced_splitAtPane (h : ∀ node ∈ layout.splits, node.Balanced) (paneId : String) (direction : SplitDirection) (newContent : γ)
    (splitId newPaneId : String) : ∀ node ∈ (layout.splitAtPane paneId direction newContent splitId newPaneId).splits, node.Balanced := by
  induction layout using induct with
  | leaf pane =>
    intro node hnode
    rw [splitAtPane] at hnode
    split at hnode
    · rw [splits_split] at hnode
      rcases List.mem_cons.1 hnode with rfl | hnode
      · exact balanced_half splitId
      · exact absurd hnode List.not_mem_nil
    · exact h node hnode
  | split id dir children sizes ih =>
    rw [splits_split] at h
    obtain ⟨hnode, hchildren⟩ := List.forall_mem_cons.1 h
    rw [splitAtPane_split, splits_split, List.length_map, List.flatMap_map]
    refine List.forall_mem_cons.2 ⟨hnode, fun node hmem => ?_⟩
    obtain ⟨child, hchild, hmem⟩ := List.mem_flatMap.1 hmem
    exact ih child hchild (fun node hnode => hchildren node (List.mem_flatMap.2 ⟨child, hchild, hnode⟩)) node hmem

/-- What `splitAtPane` is for. -/
structure SplitsAt (layout : PaneLayout γ) (paneId : String) (newContent : γ) (newPaneId : String) (result : PaneLayout γ) : Prop where
  one : ∀ before pane after, layout.collectLeaves = before ++ pane :: after → pane.id = paneId →
    result.collectLeaves = before ++ pane :: ⟨newPaneId, newContent⟩ :: after
  absent : paneId ∉ layout.paneIds → result = layout
  keeps : layout.Keeps result

/-- The new leaf behind the one that is split. -/
theorem flatMap_withNew {before after : List (Pane γ)} {pane : Pane γ} (h : ∀ other ∈ before ++ after, other.id ≠ pane.id) (newPaneId : String)
    (newContent : γ) : (before ++ pane :: after).flatMap (withNew pane.id newPaneId newContent) = before ++ pane :: ⟨newPaneId, newContent⟩ :: after := by
  have hsingle : ∀ l : List (Pane γ), l ⊆ before ++ after → l.flatMap (withNew pane.id newPaneId newContent) = l := by
    intro l hl
    refine (List.flatMap_congr fun other hother => if_neg (h other (hl hother))).trans ?_
    exact List.flatMap_singleton' l
  rw [List.flatMap_append, List.flatMap_cons, hsingle before (List.subset_append_left _ _), hsingle after (List.subset_append_right _ _), withNew,
    if_pos rfl]
  rfl

theorem splitsAt (h : layout.WellFormed) (paneId : String) (direction : SplitDirection) (newContent : γ) (hpane : layout.Fresh newPaneId)
    (hsplit : layout.Fresh splitId) (hne : newPaneId ≠ splitId) :
    layout.SplitsAt paneId newContent newPaneId (layout.splitAtPane paneId direction newContent splitId newPaneId) := by
  have hone : ∀ before pane after, layout.collectLeaves = before ++ pane :: after → pane.id = paneId →
      (layout.splitAtPane paneId direction newContent splitId newPaneId).collectLeaves = before ++ pane :: ⟨newPaneId, newContent⟩ :: after := by
    intro before pane after hl hid
    subst hid
    rw [collectLeaves_splitAtPane, hl]
    exact flatMap_withNew (ne_of_split h hl) newPaneId newContent
  refine ⟨hone, fun habsent => splitAtPane_of_absent habsent direction newContent splitId newPaneId, ?_⟩
  by_cases hmem : paneId ∈ layout.paneIds
  · obtain ⟨pane, hpanemem, hid⟩ := mem_paneIds.1 hmem
    obtain ⟨before, after, hl⟩ := List.append_of_mem hpanemem
    have hleaves := hone before pane after hl hid
    have hpanes : (layout.splitAtPane paneId direction newContent splitId newPaneId).paneIds.Perm (newPaneId :: layout.paneIds) := by
      rw [paneIds, paneIds, hleaves, hl, List.map_append, List.map_append, List.map_cons, List.map_cons, List.map_cons]
      exact (List.Perm.append_left _ (List.Perm.swap _ _ _)).trans List.perm_middle
    have honly : layout.paneIds.filter (· = paneId) = [paneId] := by
      have hcount := List.count_eq_one_of_mem h.panes hmem
      rw [List.filter_eq, hcount]
      rfl
    have hsplits := splitIds_splitAtPane paneId direction newContent splitId newPaneId layout
    rw [honly] at hsplits
    refine ⟨⟨hpanes.nodup_iff.2 (List.nodup_cons.2 ⟨hpane.1, h.panes⟩), hsplits.nodup_iff.2 (List.nodup_cons.2 ⟨hsplit.2, h.splits⟩),
      balanced_splitAtPane h.balanced paneId direction newContent splitId newPaneId⟩, fun hapart id hpaneid hsplitid => ?_⟩
    rcases List.mem_cons.1 (hpanes.mem_iff.1 hpaneid) with hnew | hold
    · rcases List.mem_cons.1 (hsplits.mem_iff.1 hsplitid) with hnew' | hold'
      · exact hne (hnew.symm.trans hnew')
      · exact hpane.2 (hnew ▸ hold')
    · rcases List.mem_cons.1 (hsplits.mem_iff.1 hsplitid) with hnew' | hold'
      · exact hsplit.1 ((show id = splitId from hnew') ▸ hold)
      · exact hapart id hold hold'
  · rw [splitAtPane_of_absent hmem]
    exact h.keeps

/-! ## Removing -/

/-- What is left of the children. -/
def remaining (paneId : String) (children : List (PaneLayout γ)) : List (PaneLayout γ) := (children.map (removePane paneId)).filterMap fun child => child

theorem removePane_split (paneId : String) (id : String) (direction : SplitDirection) (children : List (PaneLayout γ)) (sizes : List ℚ) :
    (split id direction children sizes).removePane paneId =
      if (remaining paneId children).length = children.length then some (split id direction (remaining paneId children) sizes)
      else match remaining paneId children with
        | [] => none
        | [child] => some child
        | _ => some (split id direction (remaining paneId children) (normalizedSizes (keptSizes (children.map (removePane paneId)) sizes))) := by
  rw [removePane, removePaneOf_eq]
  rfl

/-- What comes of a split: nothing, the one child that is left, or a split of those that are. -/
theorem removePane_split_cases (paneId : String) (id : String) (direction : SplitDirection) (children : List (PaneLayout γ)) (sizes : List ℚ) :
    (remaining paneId children = [] ∧ children ≠ [] ∧ (split id direction children sizes).removePane paneId = none) ∨
    (∃ child, remaining paneId children = [child] ∧ (split id direction children sizes).removePane paneId = some child) ∨
    ((remaining paneId children).length = children.length ∧
      (split id direction children sizes).removePane paneId = some (split id direction (remaining paneId children) sizes)) ∨
    (2 ≤ (remaining paneId children).length ∧ (split id direction children sizes).removePane paneId =
      some (split id direction (remaining paneId children) (normalizedSizes (keptSizes (children.map (removePane paneId)) sizes)))) := by
  rw [removePane_split]
  by_cases hlength : (remaining paneId children).length = children.length
  · rw [if_pos hlength]
    exact .inr (.inr (.inl ⟨hlength, rfl⟩))
  · rw [if_neg hlength]
    rcases hrest : remaining paneId children with _ | ⟨child, _ | ⟨child', rest⟩⟩
    · refine .inl ⟨rfl, ?_, rfl⟩
      rintro rfl
      exact hlength rfl
    · exact .inr (.inl ⟨child, rfl, rfl⟩)
    · exact .inr (.inr (.inr ⟨Nat.le_add_left 2 rest.length, rfl⟩))

/-- A fact about the leaves or the splits of what is left, child by child. -/
theorem flatMap_remaining {β : Type} (f : PaneLayout γ → List β) (paneId : String) (children : List (PaneLayout γ)) :
    (remaining paneId children).flatMap f = children.flatMap fun child => (child.removePane paneId).elim [] f := by
  rw [remaining]
  induction children with
  | nil => rfl
  | cons child rest ih =>
    rw [List.map_cons, List.flatMap_cons, ← ih]
    cases child.removePane paneId <;> rfl

theorem mem_remaining {child : PaneLayout γ} {children : List (PaneLayout γ)} (h : child ∈ remaining paneId children) :
    ∃ was ∈ children, was.removePane paneId = some child := by
  obtain ⟨_, hmem, rfl⟩ := List.mem_filterMap.1 h
  exact List.mem_map.1 hmem

/-- The leaves that are left are those of other ids, in their order. -/
theorem collectLeaves_removePane (paneId : String) (layout : PaneLayout γ) :
    (layout.removePane paneId).elim [] collectLeaves = layout.collectLeaves.filter (·.id ≠ paneId) := by
  induction layout using induct with
  | leaf pane =>
    rw [removePane, collectLeaves]
    by_cases hid : pane.id = paneId
    · rw [if_pos hid, List.filter_cons_of_neg (by simpa using hid)]
      rfl
    · rw [if_neg hid, List.filter_cons_of_pos (by simpa using hid)]
      rfl
  | split id direction children sizes ih =>
    have hleaves : (remaining paneId children).flatMap collectLeaves = (split id direction children sizes).collectLeaves.filter (·.id ≠ paneId) := by
      rw [flatMap_remaining, collectLeaves_split, List.filter_flatMap]
      exact List.flatMap_congr fun child hchild => ih child hchild
    rw [← hleaves]
    rcases removePane_split_cases paneId id direction children sizes with ⟨hrest, -, heq⟩ | ⟨child, hrest, heq⟩ | ⟨-, heq⟩ | ⟨-, heq⟩
    · rw [heq, hrest]
      rfl
    · rw [heq, hrest, List.flatMap_singleton]
      rfl
    · rw [heq, Option.elim_some, collectLeaves_split]
    · rw [heq, Option.elim_some, collectLeaves_split]

theorem splitIds_split (id : String) (direction : SplitDirection) (children : List (PaneLayout γ)) (sizes : List ℚ) :
    (split id direction children sizes).splitIds = id :: children.flatMap splitIds := by
  rw [splitIds, splits_split, List.map_cons, List.map_flatMap]
  rfl

theorem flatMap_sublist {α β : Type} {f g : α → List β} {l : List α} (h : ∀ a ∈ l, (f a).Sublist (g a)) : (l.flatMap f).Sublist (l.flatMap g) := by
  induction l with
  | nil => exact List.Sublist.refl _
  | cons a l ih =>
    obtain ⟨ha, hl⟩ := List.forall_mem_cons.1 h
    exact ha.append (ih hl)

/-- No split is new. -/
theorem splitIds_removePane (paneId : String) (layout : PaneLayout γ) : ((layout.removePane paneId).elim [] splitIds).Sublist layout.splitIds := by
  induction layout using induct with
  | leaf pane =>
    rw [removePane]
    split <;> exact List.Sublist.refl _
  | split id direction children sizes ih =>
    have hrest : ((remaining paneId children).flatMap splitIds).Sublist (children.flatMap splitIds) := by
      rw [flatMap_remaining]
      exact flatMap_sublist ih
    rw [splitIds_split]
    rcases removePane_split_cases paneId id direction children sizes with ⟨-, -, heq⟩ | ⟨child, hone, heq⟩ | ⟨-, heq⟩ | ⟨-, heq⟩
    · rw [heq]
      exact List.nil_sublist _
    · rw [heq]
      rw [hone, List.flatMap_singleton] at hrest
      exact hrest.cons id
    · rw [heq, Option.elim_some, splitIds_split]
      exact hrest.cons_cons id
    · rw [heq, Option.elim_some, splitIds_split]
      exact hrest.cons_cons id

/-! ### Sizes -/

theorem length_keptSizes {mapped : List (Option (PaneLayout γ))} {sizes : List ℚ} (h : sizes.length = mapped.length) :
    (keptSizes mapped sizes).length = (mapped.filterMap fun child => child).length := by
  induction mapped generalizing sizes with
  | nil => rw [List.length_eq_zero_iff.1 h]; rfl
  | cons child mapped ih =>
    cases sizes with
    | nil => cases h
    | cons size sizes =>
      have hrest := ih (Nat.succ.inj h)
      cases child with
      | none => exact hrest
      | some child => exact congrArg Nat.succ hrest

theorem keptSizes_subset (mapped : List (Option (PaneLayout γ))) (sizes : List ℚ) : keptSizes mapped sizes ⊆ sizes := by
  induction mapped generalizing sizes with
  | nil => exact fun _ h => h
  | cons child mapped ih =>
    cases sizes with
    | nil => cases child <;> exact fun _ h => h
    | cons size sizes =>
      cases child with
      | none => exact fun x hx => List.mem_cons_of_mem _ (ih sizes hx)
      | some child =>
        intro x hx
        rcases List.mem_cons.1 hx with rfl | hx
        · exact List.mem_cons_self
        · exact List.mem_cons_of_mem _ (ih sizes hx)

theorem sum_pos_of {sizes : List ℚ} (hne : sizes ≠ []) (hpos : ∀ size ∈ sizes, 0 < size) : 0 < sizes.sum := by
  induction sizes with
  | nil => exact absurd rfl hne
  | cons size sizes ih =>
    obtain ⟨hsize, hsizes⟩ := List.forall_mem_cons.1 hpos
    rw [List.sum_cons]
    by_cases hnil : sizes = []
    · rw [hnil, List.sum_nil, add_zero]
      exact hsize
    · exact add_pos hsize (ih hnil hsizes)

/-- Sizes that are left take up a hundred again. -/
theorem sum_normalizedSizes {sizes : List ℚ} (hne : sizes ≠ []) (hpos : ∀ size ∈ sizes, 0 < size) : (normalizedSizes sizes).sum = 100 := by
  have htotal := sum_pos_of hne hpos
  have hscale : ∀ l : List ℚ, (l.map fun s => s / sizes.sum * 100).sum = l.sum / sizes.sum * 100 := by
    intro l
    induction l with
    | nil => simp
    | cons s l ih =>
      rw [List.map_cons, List.sum_cons, List.sum_cons, ih, add_div, add_mul]
  rw [normalizedSizes, hscale, div_self htotal.ne', one_mul]

theorem balanced_removePane (paneId : String) (layout : PaneLayout γ) (h : ∀ node ∈ layout.splits, node.Balanced) :
    ∀ result ∈ layout.removePane paneId, ∀ node ∈ result.splits, node.Balanced := by
  induction layout using induct with
  | leaf pane =>
    intro result hresult
    rw [removePane] at hresult
    split at hresult
    · cases hresult
    · cases hresult
      exact h
  | split id direction children sizes ih =>
    rw [splits_split] at h
    obtain ⟨hnode, hchildren⟩ := List.forall_mem_cons.1 h
    have hrest : ∀ child ∈ remaining paneId children, ∀ node ∈ child.splits, node.Balanced := by
      intro child hchild
      obtain ⟨was, hwas, heq⟩ := mem_remaining hchild
      exact ih was hwas (fun node hnode => hchildren node (List.mem_flatMap.2 ⟨was, hwas, hnode⟩)) child heq
    have hsplit : ∀ sizes, SplitNode.Balanced ⟨id, (remaining paneId children).length, sizes⟩ →
        ∀ node ∈ (split id direction (remaining paneId children) sizes).splits, node.Balanced := by
      intro sizes hsizes
      rw [splits_split]
      refine List.forall_mem_cons.2 ⟨hsizes, fun node hmem => ?_⟩
      obtain ⟨child, hchild, hmem⟩ := List.mem_flatMap.1 hmem
      exact hrest child hchild node hmem
    intro result hresult
    rcases removePane_split_cases paneId id direction children sizes with ⟨-, -, heq⟩ | ⟨child, hone, heq⟩ | ⟨hlength, heq⟩ | ⟨htwo, heq⟩
    · rw [heq] at hresult
      cases hresult
    · rw [heq] at hresult
      cases hresult
      exact hrest result (hone ▸ List.mem_cons_self)
    · rw [heq] at hresult
      cases hresult
      exact hsplit sizes (hlength ▸ hnode)
    · rw [heq] at hresult
      cases hresult
      have hkept : (keptSizes (children.map (removePane paneId)) sizes).length = (remaining paneId children).length :=
        length_keptSizes (hnode.length.trans (List.length_map _).symm)
      have hpos : ∀ size ∈ keptSizes (children.map (removePane paneId)) sizes, 0 < size := fun size hsize => hnode.pos size (keptSizes_subset _ _ hsize)
      have hne : keptSizes (children.map (removePane paneId)) sizes ≠ [] := by
        intro hnil
        rw [hnil, List.length_nil] at hkept
        omega
      refine hsplit _ ⟨htwo, (List.length_map _).trans hkept, fun size hsize => ?_, sum_normalizedSizes hne hpos⟩
      obtain ⟨s, hs, rfl⟩ := List.mem_map.1 hsize
      exact mul_pos (div_pos (hpos s hs) (sum_pos_of hne hpos)) (by norm_num)

/-- A layout of balanced splits has a leaf. -/
theorem collectLeaves_ne_nil (h : ∀ node ∈ layout.splits, node.Balanced) : layout.collectLeaves ≠ [] := by
  induction layout using induct with
  | leaf pane => exact List.cons_ne_nil _ _
  | split id direction children sizes ih =>
    rw [splits_split] at h
    obtain ⟨hnode, hchildren⟩ := List.forall_mem_cons.1 h
    cases children with
    | nil => exact absurd hnode.two (show ¬2 ≤ 0 by decide)
    | cons child rest =>
      rw [collectLeaves_split, List.flatMap_cons]
      intro hnil
      exact ih child List.mem_cons_self (fun node hmem => hchildren node (List.mem_flatMap.2 ⟨child, List.mem_cons_self, hmem⟩))
        (List.append_eq_nil_iff.1 hnil).1

theorem removePane_of_absent (h : paneId ∉ layout.paneIds) : layout.removePane paneId = some layout := by
  induction layout using induct with
  | leaf pane =>
    rw [removePane, if_neg]
    rintro rfl
    exact h List.mem_cons_self
  | split id direction children sizes ih =>
    rw [paneIds_split] at h
    have hself : remaining paneId children = children := by
      have hmap : children.map (removePane paneId) = children.map some :=
        List.map_congr_left fun child hchild => ih child hchild fun hmem => h (List.mem_flatMap.2 ⟨child, hchild, hmem⟩)
      rw [remaining, hmap, List.filterMap_map]
      exact List.filterMap_some
    rw [removePane_split, hself, if_pos rfl]

/-- What `removePane` is for. -/
structure Removes (layout : PaneLayout γ) (paneId : String) (result : Option (PaneLayout γ)) : Prop where
  all : result = none ↔ ∃ pane, layout.collectLeaves = [pane] ∧ pane.id = paneId
  rest : ∀ left ∈ result, left.collectLeaves = layout.collectLeaves.filter (·.id ≠ paneId)
  absent : paneId ∉ layout.paneIds → result = some layout
  keeps : ∀ left ∈ result, layout.Keeps left

theorem removes (h : layout.WellFormed) (paneId : String) : layout.Removes paneId (layout.removePane paneId) := by
  have hleaves := collectLeaves_removePane paneId layout
  have hrest : ∀ left ∈ layout.removePane paneId, left.collectLeaves = layout.collectLeaves.filter (·.id ≠ paneId) := by
    intro left hleft
    rw [hleft] at hleaves
    exact hleaves
  refine ⟨⟨fun hnone => ?_, ?_⟩, hrest, removePane_of_absent, fun left hleft => ?_⟩
  · rw [hnone] at hleaves
    have hall : ∀ pane ∈ layout.collectLeaves, pane.id = paneId := fun pane hpane => by
      simpa using List.filter_eq_nil_iff.1 hleaves.symm pane hpane
    have hnodup := List.Nodup.of_map _ h.panes
    cases hl : layout.collectLeaves with
    | nil => exact absurd hl (collectLeaves_ne_nil h.balanced)
    | cons pane panes =>
      rw [hl] at hall hnodup
      refine ⟨pane, congrArg (pane :: ·) (List.eq_nil_iff_forall_not_mem.2 fun other hother => ?_), hall pane List.mem_cons_self⟩
      have hsame : pane = other := eq_of_mem h (hl ▸ List.mem_cons_self) (hl ▸ List.mem_cons_of_mem _ hother)
        ((hall pane List.mem_cons_self).trans (hall other (List.mem_cons_of_mem _ hother)).symm)
      exact (List.nodup_cons.1 hnodup).1 (hsame ▸ hother)
  · rintro ⟨pane, hl, hid⟩
    by_contra hsome
    obtain ⟨left, hleft⟩ := Option.ne_none_iff_exists'.1 hsome
    refine collectLeaves_ne_nil (balanced_removePane paneId layout h.balanced left hleft) ?_
    rw [hrest left hleft, hl, List.filter_cons_of_neg (by simpa using hid)]
    rfl
  · have hpanes : left.paneIds.Sublist layout.paneIds := by
      rw [paneIds, hrest left hleft]
      exact List.filter_sublist.map _
    have hsplits := splitIds_removePane paneId layout
    rw [hleft, Option.elim_some] at hsplits
    exact ⟨⟨hpanes.nodup h.panes, hsplits.nodup h.splits, balanced_removePane paneId layout h.balanced left hleft⟩,
      fun hapart id hid hsplit => hapart id (hpanes.subset hid) (hsplits.subset hsplit)⟩

/-! ## All of them -/

/-- Every operation on the layout accounts for its leaves and leaves it well formed. -/
structure Accounted (layout : PaneLayout γ) : Prop where
  splitAt : ∀ paneId direction newContent splitId newPaneId, layout.Fresh newPaneId → layout.Fresh splitId → newPaneId ≠ splitId →
    layout.SplitsAt paneId newContent newPaneId (layout.splitAtPane paneId direction newContent splitId newPaneId)
  remove : ∀ paneId, layout.Removes paneId (layout.removePane paneId)
  remount : ∀ paneId newPaneId, layout.Fresh newPaneId → layout.Remounts paneId newPaneId (layout.remountLeaf paneId newPaneId)
  swap : ∀ paneIdA paneIdB, layout.Swaps paneIdA paneIdB (layout.swapPaneContent paneIdA paneIdB)
  update : ∀ paneId content, layout.Updates paneId content (layout.updatePaneInLayout paneId content)

theorem operations_accounted (h : layout.WellFormed) : layout.Accounted where
  splitAt paneId direction newContent _ _ hpane hsplit hne := splitsAt h paneId direction newContent hpane hsplit hne
  remove paneId := removes h paneId
  remount paneId _ hfresh := remounts h paneId hfresh
  swap paneIdA paneIdB := swaps h paneIdA paneIdB
  update paneId content := updates h paneId content

/-- Two panes side by side, the second of them split. -/
def threePanes : PaneLayout String :=
  split "s" .h [leaf ⟨"a", "first"⟩, split "t" .v [leaf ⟨"b", "second"⟩, leaf ⟨"c", "third"⟩] [50, 50]] [30, 70]

theorem operations_accounted_three : threePanes.Accounted := by
  refine operations_accounted ⟨by decide, by decide, ?_⟩
  have hs : SplitNode.Balanced ⟨"s", 2, [30, 70]⟩ := ⟨by decide, rfl, by simp, by norm_num⟩
  exact List.forall_mem_cons.2 ⟨hs, List.forall_mem_cons.2 ⟨balanced_half "t", fun _ hnode => absurd hnode List.not_mem_nil⟩⟩

end PaneLayout

end Purdex.Layout
