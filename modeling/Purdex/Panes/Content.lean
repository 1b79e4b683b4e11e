/-
What a pane shows, and the layout of the panes of a tab.
-/
import Mathlib.Data.List.Basic

namespace Purdex.Panes

/-! ## The record a session is rebuilt from -/

inductive TerminatedReason where
  | sessionClosed
  | tmuxRestarted
  | hostRemoved
  deriving Repr, DecidableEq

inductive CwdSource where
  | agentSessionStart
  | agentBackfill
  | paneProbe
  | user
  deriving Repr, DecidableEq

structure RebuildAgent where
  type : String
  sessionId : Option String
  tmuxPaneId : Option String
  updatedAt : Nat
  deriving Repr, DecidableEq

structure PaneRebuildRecord where
  sessionName : String
  tmuxInstance : String
  cwd : Option String
  cwdSource : Option CwdSource
  agent : Option RebuildAgent
  resumeCommandOverride : Option String
  unverified : Option Bool
  capturedAt : Nat
  deriving Repr, DecidableEq

/-! ## Contents -/

inductive ViewMode where
  | terminal
  | stream
  deriving Repr, DecidableEq

structure TmuxSessionContent where
  hostId : String
  sessionCode : String
  mode : ViewMode
  cachedName : String
  tmuxInstance : String
  terminated : Option TerminatedReason
  rebuild : Option PaneRebuildRecord
  deriving Repr, DecidableEq

inductive FileSource where
  | daemon (hostId : String)
  | local
  | inapp
  deriving Repr, DecidableEq

inductive SettingsScope where
  | global
  | workspace (workspaceId : String)
  deriving Repr, DecidableEq

inductive PaneContent where
  | newTab
  | tmuxSession (c : TmuxSessionContent)
  | dashboard
  | hosts
  | history
  | settings (scope : SettingsScope)
  | browser (url : String)
  | memoryMonitor
  | editor (source : FileSource) (filePath : String)
  | editorBuffers
  | imagePreview (source : FileSource) (filePath : String)
  | pdfPreview (source : FileSource) (filePath : String)
  | execution (executionId : String)
  deriving Repr, DecidableEq

structure Pane where
  id : String
  content : PaneContent
  deriving Repr, DecidableEq

/-! ## Layouts -/

inductive SplitDirection where
  | h
  | v
  deriving Repr, DecidableEq

inductive PaneLayout where
  | leaf (pane : Pane)
  | split (id : String) (direction : SplitDirection) (children : List PaneLayout)

namespace PaneLayout

mutual

def collectLeaves : PaneLayout → List Pane
  | leaf pane => [pane]
  | split _ _ children => collectLeavesOf children

def collectLeavesOf : List PaneLayout → List Pane
  | [] => []
  | child :: rest => child.collectLeaves ++ collectLeavesOf rest

end

mutual

/-- The layout with `f` applied to the content of each pane. -/
def mapContent (f : PaneContent → PaneContent) : PaneLayout → PaneLayout
  | leaf pane => leaf ⟨pane.id, f pane.content⟩
  | split id direction children => split id direction (mapContentOf f children)

def mapContentOf (f : PaneContent → PaneContent) : List PaneLayout → List PaneLayout
  | [] => []
  | child :: rest => child.mapContent f :: mapContentOf f rest

end

attribute [local simp] collectLeaves collectLeavesOf mapContent mapContentOf

theorem collectLeavesOf_eq (children : List PaneLayout) : collectLeavesOf children = children.flatMap collectLeaves := by
  induction children with
  | nil => rfl
  | cons child rest ih => simp [ih]

theorem mapContentOf_eq (f : PaneContent → PaneContent) (children : List PaneLayout) :
    mapContentOf f children = children.map (mapContent f) := by
  induction children with
  | nil => rfl
  | cons child rest ih => simp [ih]

theorem collectLeaves_split (id : String) (direction : SplitDirection) (children : List PaneLayout) :
    (split id direction children).collectLeaves = children.flatMap collectLeaves := by
  rw [collectLeaves, collectLeavesOf_eq]

theorem mapContent_split (f : PaneContent → PaneContent) (id : String) (direction : SplitDirection) (children : List PaneLayout) :
    (split id direction children).mapContent f = split id direction (children.map (mapContent f)) := by
  rw [mapContent, mapContentOf_eq]

/-- Induction over layouts. -/
theorem induct {motive : PaneLayout → Prop} (leaf : ∀ pane, motive (.leaf pane))
    (split : ∀ id direction children, (∀ child ∈ children, motive child) → motive (.split id direction children)) :
    ∀ layout, motive layout
  | .leaf pane => leaf pane
  | .split id direction children => split id direction children fun child _ => induct leaf split child

theorem mapContent_congr {f g : PaneContent → PaneContent} (layout : PaneLayout)
    (h : ∀ pane ∈ layout.collectLeaves, f pane.content = g pane.content) : layout.mapContent f = layout.mapContent g := by
  induction layout using induct with
  | leaf pane => rw [mapContent, mapContent, h pane (by simp [collectLeaves])]
  | split id direction children ih =>
    rw [mapContent_split, mapContent_split]
    refine congrArg _ (List.map_congr_left fun child hchild => ih child hchild fun pane hpane => h pane ?_)
    rw [collectLeaves_split]
    exact List.mem_flatMap.2 ⟨child, hchild, hpane⟩

theorem mapContent_mapContent (f g : PaneContent → PaneContent) (layout : PaneLayout) :
    (layout.mapContent f).mapContent g = layout.mapContent (g ∘ f) := by
  induction layout using induct with
  | leaf pane => rw [mapContent, mapContent, mapContent, Function.comp_apply]
  | split id direction children ih =>
    rw [mapContent_split, mapContent_split, mapContent_split, List.map_map]
    exact congrArg _ (List.map_congr_left fun child hchild => ih child hchild)

theorem mapContent_id (layout : PaneLayout) : layout.mapContent id = layout := by
  induction layout using induct with
  | leaf pane => rw [mapContent]; rfl
  | split id direction children ih =>
    rw [mapContent_split, List.map_congr_left (g := fun child => child) fun child hchild => ih child hchild, List.map_id']

end PaneLayout

structure Tab where
  id : String
  pinned : Bool
  locked : Bool
  layout : PaneLayout

end Purdex.Panes
