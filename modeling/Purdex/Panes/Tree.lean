/-
Looking for a pane in a layout, writing to it and taking it out, and the contents that have a tab to themselves.
-/
import Purdex.Panes.Content

namespace Purdex.Panes

namespace PaneLayout

mutual

/-- The first pane; a split without children has none of its own. -/
def getPrimaryPane : PaneLayout → Pane
  | leaf pane => pane
  | split _ _ children => getPrimaryPaneOf children

def getPrimaryPaneOf : List PaneLayout → Pane
  | [] => ⟨"corrupted", .newTab⟩
  | child :: _ => child.getPrimaryPane

end

mutual

def findPane (paneId : String) : PaneLayout → Option Pane
  | leaf pane => if pane.id = paneId then some pane else none
  | split _ _ children => findPaneOf paneId children

def findPaneOf (paneId : String) : List PaneLayout → Option Pane
  | [] => none
  | child :: rest => (child.findPane paneId).or (findPaneOf paneId rest)

end

mutual

/-- The layout without the pane; a split that is left with one child becomes that child. -/
def removePane (paneId : String) : PaneLayout → Option PaneLayout
  | leaf pane => if pane.id = paneId then none else some (leaf pane)
  | split id direction children =>
    let newChildren := removePaneOf paneId children
    if newChildren.length = children.length then some (split id direction newChildren)
    else match newChildren with
      | [] => none
      | [child] => some child
      | _ => some (split id direction newChildren)

def removePaneOf (paneId : String) : List PaneLayout → List PaneLayout
  | [] => []
  | child :: rest =>
    match child.removePane paneId with
    | none => removePaneOf paneId rest
    | some child => child :: removePaneOf paneId rest

end

def isLeaf : PaneLayout → Bool
  | leaf _ => true
  | split _ _ _ => false

mutual

/-- The layout with the content in every pane of that id. -/
def updatePaneInLayout (paneId : String) (content : PaneContent) : PaneLayout → PaneLayout
  | leaf pane => if pane.id = paneId then leaf { pane with content } else leaf pane
  | split id direction children => split id direction (updatePaneInLayoutOf paneId content children)

def updatePaneInLayoutOf (paneId : String) (content : PaneContent) : List PaneLayout → List PaneLayout
  | [] => []
  | child :: rest => child.updatePaneInLayout paneId content :: updatePaneInLayoutOf paneId content rest

end

attribute [local simp] findPane findPaneOf updatePaneInLayout updatePaneInLayoutOf

theorem updatePaneInLayoutOf_eq (paneId : String) (content : PaneContent) (children : List PaneLayout) :
    updatePaneInLayoutOf paneId content children = children.map (updatePaneInLayout paneId content) := by
  induction children with
  | nil => rfl
  | cons child rest ih => simp [ih]

theorem findPane_updatePaneInLayout (paneId : String) (content : PaneContent) (layout : PaneLayout) :
    (layout.updatePaneInLayout paneId content).findPane paneId = (layout.findPane paneId).map fun pane => { pane with content } := by
  induction layout using induct with
  | leaf pane =>
    rw [updatePaneInLayout, findPane]
    by_cases h : pane.id = paneId
    · rw [if_pos h, if_pos h, findPane, if_pos h]
      rfl
    · rw [if_neg h, if_neg h, findPane, if_neg h]
      rfl
  | split id direction children ih =>
    rw [updatePaneInLayout, findPane, findPane, updatePaneInLayoutOf_eq]
    induction children with
    | nil => rfl
    | cons child rest ihrest =>
      rw [List.map_cons, findPaneOf, findPaneOf, ih child (by simp), ihrest fun c hc => ih c (by simp [hc])]
      cases child.findPane paneId <;> rfl

/-- Panes of other ids keep their contents and places. -/
theorem others_updatePaneInLayout (paneId : String) (content : PaneContent) (layout : PaneLayout) :
    (layout.updatePaneInLayout paneId content).collectLeaves.filter (·.id ≠ paneId) = layout.collectLeaves.filter (·.id ≠ paneId) := by
  induction layout using induct with
  | leaf pane =>
    rw [updatePaneInLayout]
    by_cases h : pane.id = paneId
    · rw [if_pos h]
      simp [collectLeaves, h]
    · rw [if_neg h]
  | split id direction children ih =>
    rw [updatePaneInLayout, updatePaneInLayoutOf_eq, collectLeaves_split, collectLeaves_split, List.flatMap_map, List.filter_flatMap,
      List.filter_flatMap]
    exact List.flatMap_congr fun child hchild => ih child hchild

/-! ### Pane by pane -/

mutual

/-- The layout with the content that `f` says of each pane. -/
def mapPanes (f : Pane → PaneContent) : PaneLayout → PaneLayout
  | leaf pane => leaf ⟨pane.id, f pane⟩
  | split id direction children => split id direction (mapPanesOf f children)

def mapPanesOf (f : Pane → PaneContent) : List PaneLayout → List PaneLayout
  | [] => []
  | child :: rest => child.mapPanes f :: mapPanesOf f rest

end

attribute [local simp] mapPanes mapPanesOf

theorem mapPanes_split (f : Pane → PaneContent) (id : String) (direction : SplitDirection) (children : List PaneLayout) :
    (split id direction children).mapPanes f = split id direction (children.map (mapPanes f)) := by
  have hof : mapPanesOf f children = children.map (mapPanes f) := by
    induction children with
    | nil => rfl
    | cons child rest ih => simp [ih]
  rw [mapPanes, hof]

theorem mapContent_eq_mapPanes (f : PaneContent → PaneContent) (layout : PaneLayout) :
    layout.mapContent f = layout.mapPanes fun pane => f pane.content := by
  induction layout using induct with
  | leaf pane => rfl
  | split id direction children ih =>
    rw [mapContent_split, mapPanes_split]
    exact congrArg _ (List.map_congr_left fun child hchild => ih child hchild)

theorem updatePaneInLayout_eq_mapPanes (paneId : String) (content : PaneContent) (layout : PaneLayout) :
    layout.updatePaneInLayout paneId content = layout.mapPanes fun pane => if pane.id = paneId then content else pane.content := by
  induction layout using induct with
  | leaf pane =>
    rw [updatePaneInLayout, mapPanes]
    split <;> rfl
  | split id direction children ih =>
    rw [updatePaneInLayout, updatePaneInLayoutOf_eq, mapPanes_split]
    exact congrArg _ (List.map_congr_left fun child hchild => ih child hchild)

theorem mapPanes_mapPanes (f g : Pane → PaneContent) (layout : PaneLayout) :
    (layout.mapPanes f).mapPanes g = layout.mapPanes fun pane => g ⟨pane.id, f pane⟩ := by
  induction layout using induct with
  | leaf pane => rfl
  | split id direction children ih =>
    rw [mapPanes_split, mapPanes_split, mapPanes_split, List.map_map]
    exact congrArg _ (List.map_congr_left fun child hchild => ih child hchild)

theorem mapPanes_congr {f g : Pane → PaneContent} (layout : PaneLayout) (h : ∀ pane ∈ layout.collectLeaves, f pane = g pane) :
    layout.mapPanes f = layout.mapPanes g := by
  induction layout using induct with
  | leaf pane => rw [mapPanes, mapPanes, h pane (by simp [collectLeaves])]
  | split id direction children ih =>
    rw [mapPanes_split, mapPanes_split]
    refine congrArg _ (List.map_congr_left fun child hchild => ih child hchild fun pane hpane => h pane ?_)
    rw [collectLeaves_split]
    exact List.mem_flatMap.2 ⟨child, hchild, hpane⟩

theorem mapPanes_content (layout : PaneLayout) : layout.mapPanes Pane.content = layout := by
  induction layout using induct with
  | leaf pane => rfl
  | split id direction children ih =>
    rw [mapPanes_split, List.map_congr_left (g := fun child => child) fun child hchild => ih child hchild, List.map_id']

theorem collectLeaves_mapPanes (f : Pane → PaneContent) (layout : PaneLayout) :
    (layout.mapPanes f).collectLeaves = layout.collectLeaves.map fun pane => ⟨pane.id, f pane⟩ := by
  induction layout using induct with
  | leaf pane => rw [mapPanes, collectLeaves, collectLeaves, List.map_singleton]
  | split id direction children ih =>
    rw [mapPanes_split, collectLeaves_split, collectLeaves_split, List.flatMap_map, List.map_flatMap]
    exact List.flatMap_congr fun child hchild => ih child hchild

end PaneLayout

/-- Whether a pane of content `b` would be another of content `a`. -/
def contentMatches : PaneContent → PaneContent → Bool
  | .newTab, .newTab | .dashboard, .dashboard | .hosts, .hosts | .history, .history | .memoryMonitor, .memoryMonitor
  | .editorBuffers, .editorBuffers => true
  | .settings scope, .settings scope' => scope = scope'
  | .editor source filePath, .editor source' filePath' => source = source' ∧ filePath = filePath'
  | .imagePreview source filePath, .imagePreview source' filePath' => source = source' ∧ filePath = filePath'
  | .pdfPreview source filePath, .pdfPreview source' filePath' => source = source' ∧ filePath = filePath'
  | .execution executionId, .execution executionId' => executionId = executionId'
  | _, _ => false

end Purdex.Panes
