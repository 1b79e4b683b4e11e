/-
Layouts with the sizes of their splits: the operations on the tree of panes.
-/
import Purdex.Panes.Content
import Mathlib.Algebra.Order.Field.Rat
import Mathlib.Algebra.BigOperators.Group.List.Basic
import Mathlib.Algebra.BigOperators.Ring.List
import Mathlib.Data.List.Perm.Basic

namespace Purdex.Layout

open Panes (SplitDirection)

structure Pane (γ : Type) where
  id : String
  content : γ
  deriving DecidableEq, Repr

inductive PaneLayout (γ : Type) where
  | leaf (pane : Pane γ)
  | split (id : String) (direction : SplitDirection) (children : List (PaneLayout γ)) (sizes : List ℚ)

namespace PaneLayout

variable {γ δ : Type} {paneId : String} {content : γ}

/-! ## The operations -/

mutual

def collectLeaves : PaneLayout γ → List (Pane γ)
  | leaf pane => [pane]
  | split _ _ children _ => collectLeavesOf children

def collectLeavesOf : List (PaneLayout γ) → List (Pane γ)
  | [] => []
  | child :: rest => child.collectLeaves ++ collectLeavesOf rest

end

mutual

def findPane (paneId : String) : PaneLayout γ → Option (Pane γ)
  | leaf pane => if pane.id = paneId then some pane else none
  | split _ _ children _ => findPaneOf paneId children

def findPaneOf (paneId : String) : List (PaneLayout γ) → Option (Pane γ)
  | [] => none
  | child :: rest => (child.findPane paneId).or (findPaneOf paneId rest)

end

mutual

def updatePaneInLayout (paneId : String) (content : γ) : PaneLayout γ → PaneLayout γ
  | leaf pane => if pane.id = paneId then leaf { pane with content } else leaf pane
  | split id direction children sizes => split id direction (updatePaneInLayoutOf paneId content children) sizes

def updatePaneInLayoutOf (paneId : String) (content : γ) : List (PaneLayout γ) → List (PaneLayout γ)
  | [] => []
  | child :: rest => child.updatePaneInLayout paneId content :: updatePaneInLayoutOf paneId content rest

end

mutual

/-- The first leaf of that id gets another; the new one is generated. -/
def remountLeaf (paneId newPaneId : String) : PaneLayout γ → Option (PaneLayout γ × String)
  | leaf pane => if pane.id ≠ paneId then none else some (leaf { pane with id := newPaneId }, newPaneId)
  | split id direction children sizes => (remountLeafOf paneId newPaneId children).map fun res => (split id direction res.1 sizes, res.2)

def remountLeafOf (paneId newPaneId : String) : List (PaneLayout γ) → Option (List (PaneLayout γ) × String)
  | [] => none
  | child :: rest =>
    match child.remountLeaf paneId newPaneId with
    | some res => some (res.1 :: rest, res.2)
    | none => (remountLeafOf paneId newPaneId rest).map fun res => (child :: res.1, res.2)

end

mutual

/-- The leaf becomes a split of itself and the new pane; both ids are generated. -/
def splitAtPane (paneId : String) (direction : SplitDirection) (newContent : γ) (splitId newPaneId : String) : PaneLayout γ → PaneLayout γ
  | leaf pane =>
    if pane.id = paneId then split splitId direction [leaf pane, leaf ⟨newPaneId, newContent⟩] [50, 50] else leaf pane
  | split id dir children sizes => split id dir (splitAtPaneOf paneId direction newContent splitId newPaneId children) sizes

def splitAtPaneOf (paneId : String) (direction : SplitDirection) (newContent : γ) (splitId newPaneId : String) :
    List (PaneLayout γ) → List (PaneLayout γ)
  | [] => []
  | child :: rest => child.splitAtPane paneId direction newContent splitId newPaneId ::
      splitAtPaneOf paneId direction newContent splitId newPaneId rest

end

/-- `sizes.filter((_, i) => mapped[i] !== null)`. -/
def keptSizes : List (Option (PaneLayout γ)) → List ℚ → List ℚ
  | [], sizes => sizes
  | _, [] => []
  | none :: mapped, _ :: sizes => keptSizes mapped sizes
  | some _ :: mapped, size :: sizes => size :: keptSizes mapped sizes

def normalizedSizes (sizes : List ℚ) : List ℚ := sizes.map fun s => s / sizes.sum * 100

mutual

/-- A split that is left with one child becomes that child; one that loses a child gives its room to the others. -/
def removePane (paneId : String) : PaneLayout γ → Option (PaneLayout γ)
  | leaf pane => if pane.id = paneId then none else some (leaf pane)
  | split id direction children sizes =>
    let mapped := removePaneOf paneId children
    let newChildren := mapped.filterMap fun child => child
    if newChildren.length = children.length then some (split id direction newChildren sizes)
    else match newChildren with
      | [] => none
      | [child] => some child
      | _ => some (split id direction newChildren (normalizedSizes (keptSizes mapped sizes)))

def removePaneOf (paneId : String) : List (PaneLayout γ) → List (Option (PaneLayout γ))
  | [] => []
  | child :: rest => child.removePane paneId :: removePaneOf paneId rest

end

def swapPaneContent (layout : PaneLayout γ) (paneIdA paneIdB : String) : PaneLayout γ :=
  match layout.findPane paneIdA, layout.findPane paneIdB with
  | some paneA, some paneB => (layout.updatePaneInLayout paneIdA paneB.content).updatePaneInLayout paneIdB paneA.content
  | _, _ => layout

/-! ## Trees pane by pane -/

mutual

def mapPanes (f : Pane γ → Pane δ) : PaneLayout γ → PaneLayout δ
  | leaf pane => leaf (f pane)
  | split id direction children sizes => split id direction (mapPanesOf f children) sizes

def mapPanesOf (f : Pane γ → Pane δ) : List (PaneLayout γ) → List (PaneLayout δ)
  | [] => []
  | child :: rest => child.mapPanes f :: mapPanesOf f rest

end

/-- What is left of a layout without its panes: the splits, their directions and sizes. -/
def shape (layout : PaneLayout γ) : PaneLayout Unit := layout.mapPanes fun _ => ⟨"", ()⟩

/-- A split: its id, how many children it has, and their sizes. -/
structure SplitNode where
  id : String
  count : Nat
  sizes : List ℚ

mutual

def splits : PaneLayout γ → List SplitNode
  | leaf _ => []
  | split id _ children sizes => ⟨id, children.length, sizes⟩ :: splitsOf children

def splitsOf : List (PaneLayout γ) → List SplitNode
  | [] => []
  | child :: rest => child.splits ++ splitsOf rest

end

attribute [local simp] collectLeaves collectLeavesOf findPane findPaneOf updatePaneInLayout updatePaneInLayoutOf remountLeaf remountLeafOf splitAtPane
  splitAtPaneOf removePane removePaneOf mapPanes mapPanesOf splits splitsOf

/-- Induction over layouts. -/
theorem induct {motive : PaneLayout γ → Prop} (leaf : ∀ pane, motive (.leaf pane))
    (split : ∀ id direction children sizes, (∀ child ∈ children, motive child) → motive (.split id direction children sizes)) :
    ∀ layout, motive layout
  | .leaf pane => leaf pane
  | .split id direction children sizes => split id direction children sizes fun child _ => induct leaf split child

theorem collectLeaves_split (id : String) (direction : SplitDirection) (children : List (PaneLayout γ)) (sizes : List ℚ) :
    (split id direction children sizes).collectLeaves = children.flatMap collectLeaves := by
  have hof : collectLeavesOf children = children.flatMap collectLeaves := by
    induction children with
    | nil => rfl
    | cons child rest ih => simp [ih]
  rw [collectLeaves, hof]

theorem mapPanes_split (f : Pane γ → Pane δ) (id : String) (direction : SplitDirection) (children : List (PaneLayout γ)) (sizes : List ℚ) :
    (split id direction children sizes).mapPanes f = split id direction (children.map (mapPanes f)) sizes := by
  have hof : mapPanesOf f children = children.map (mapPanes f) := by
    induction children with
    | nil => rfl
    | cons child rest ih => simp [ih]
  rw [mapPanes, hof]

theorem splits_split (id : String) (direction : SplitDirection) (children : List (PaneLayout γ)) (sizes : List ℚ) :
    (split id direction children sizes).splits = ⟨id, children.length, sizes⟩ :: children.flatMap splits := by
  have hof : splitsOf children = children.flatMap splits := by
    induction children with
    | nil => rfl
    | cons child rest ih => simp [ih]
  rw [splits, hof]

theorem updatePaneInLayout_split (paneId : String) (content : γ) (id : String) (direction : SplitDirection) (children : List (PaneLayout γ))
    (sizes : List ℚ) : (split id direction children sizes).updatePaneInLayout paneId content =
      split id direction (children.map (updatePaneInLayout paneId content)) sizes := by
  have hof : updatePaneInLayoutOf paneId content children = children.map (updatePaneInLayout paneId content) := by
    induction children with
    | nil => rfl
    | cons child rest ih => simp [ih]
  rw [updatePaneInLayout, hof]

theorem splitAtPane_split (paneId : String) (direction : SplitDirection) (newContent : γ) (splitId newPaneId : String) (id : String)
    (dir : SplitDirection) (children : List (PaneLayout γ)) (sizes : List ℚ) :
    (split id dir children sizes).splitAtPane paneId direction newContent splitId newPaneId =
      split id dir (children.map (splitAtPane paneId direction newContent splitId newPaneId)) sizes := by
  have hof : splitAtPaneOf paneId direction newContent splitId newPaneId children =
      children.map (splitAtPane paneId direction newContent splitId newPaneId) := by
    induction children with
    | nil => rfl
    | cons child rest ih => simp [ih]
  rw [splitAtPane, hof]

theorem removePaneOf_eq (paneId : String) (children : List (PaneLayout γ)) : removePaneOf paneId children = children.map (removePane paneId) := by
  induction children with
  | nil => rfl
  | cons child rest ih => simp [ih]

theorem collectLeaves_mapPanes (f : Pane γ → Pane δ) (layout : PaneLayout γ) : (layout.mapPanes f).collectLeaves = layout.collectLeaves.map f := by
  induction layout using induct with
  | leaf pane => rfl
  | split id direction children sizes ih =>
    rw [mapPanes_split, collectLeaves_split, collectLeaves_split, List.flatMap_map, List.map_flatMap]
    exact List.flatMap_congr fun child hchild => ih child hchild

theorem splits_mapPanes (f : Pane γ → Pane δ) (layout : PaneLayout γ) : (layout.mapPanes f).splits = layout.splits := by
  induction layout using induct with
  | leaf pane => rfl
  | split id direction children sizes ih =>
    rw [mapPanes_split, splits_split, splits_split, List.flatMap_map, List.length_map]
    exact congrArg _ (List.flatMap_congr fun child hchild => ih child hchild)

theorem mapPanes_mapPanes {ε : Type} (f : Pane γ → Pane δ) (g : Pane δ → Pane ε) (layout : PaneLayout γ) :
    (layout.mapPanes f).mapPanes g = layout.mapPanes (g ∘ f) := by
  induction layout using induct with
  | leaf pane => rfl
  | split id direction children sizes ih =>
    rw [mapPanes_split, mapPanes_split, mapPanes_split, List.map_map]
    congr 1
    exact List.map_congr_left fun child hchild => ih child hchild

theorem mapPanes_congr {f g : Pane γ → Pane δ} {layout : PaneLayout γ} (h : ∀ pane ∈ layout.collectLeaves, f pane = g pane) :
    layout.mapPanes f = layout.mapPanes g := by
  induction layout using induct with
  | leaf pane => exact congrArg leaf (h pane List.mem_cons_self)
  | split id direction children sizes ih =>
    rw [mapPanes_split, mapPanes_split]
    congr 1
    refine List.map_congr_left fun child hchild => ih child hchild fun pane hpane => h pane ?_
    rw [collectLeaves_split]
    exact List.mem_flatMap.2 ⟨child, hchild, hpane⟩

theorem mapPanes_id (layout : PaneLayout γ) : layout.mapPanes (fun pane => pane) = layout := by
  induction layout using induct with
  | leaf pane => rfl
  | split id direction children sizes ih =>
    rw [mapPanes_split]
    congr 1
    exact (List.map_congr_left fun child hchild => ih child hchild).trans (List.map_id' children)

theorem mapPanes_eq_self {f : Pane γ → Pane γ} {layout : PaneLayout γ} (h : ∀ pane ∈ layout.collectLeaves, f pane = pane) :
    layout.mapPanes f = layout := (mapPanes_congr h).trans (mapPanes_id layout)

theorem shape_mapPanes (f : Pane γ → Pane δ) (layout : PaneLayout γ) : (layout.mapPanes f).shape = layout.shape := mapPanes_mapPanes f _ layout

theorem findPane_eq (paneId : String) (layout : PaneLayout γ) : layout.findPane paneId = layout.collectLeaves.find? (·.id = paneId) := by
  induction layout using induct with
  | leaf pane =>
    rw [findPane, collectLeaves]
    by_cases hid : pane.id = paneId <;> simp [hid]
  | split id direction children sizes ih =>
    rw [findPane, collectLeaves_split]
    induction children with
    | nil => rfl
    | cons child rest ihrest =>
      rw [findPaneOf, ih child List.mem_cons_self, ihrest fun c hc => ih c (List.mem_cons_of_mem _ hc), List.flatMap_cons, List.find?_append]

/-- Writing to the panes of an id. -/
def setContent (paneId : String) (content : γ) (pane : Pane γ) : Pane γ := if pane.id = paneId then { pane with content } else pane

theorem updatePaneInLayout_eq (paneId : String) (content : γ) (layout : PaneLayout γ) :
    layout.updatePaneInLayout paneId content = layout.mapPanes (setContent paneId content) := by
  induction layout using induct with
  | leaf pane =>
    rw [updatePaneInLayout, mapPanes, setContent]
    split <;> rfl
  | split id direction children sizes ih =>
    rw [updatePaneInLayout_split, mapPanes_split]
    congr 1
    exact List.map_congr_left fun child hchild => ih child hchild

end PaneLayout

end Purdex.Layout
