/-
What a pane is bound to, and the writes to every pane of the store that answers to a binding.
-/
import Purdex.Json.Record
import Purdex.Panes.Content

namespace Purdex.Panes

open Json

/-! ## Bindings -/

/-- A session on a host, under one generation of its tmux server. -/
structure SessionBinding where
  hostId : String
  sessionCode : String
  tmuxInstance : String
  deriving Repr, DecidableEq

def bindingEquals (a b : SessionBinding) : Prop :=
  a.hostId = b.hostId ∧ a.sessionCode = b.sessionCode ∧ a.tmuxInstance = b.tmuxInstance

instance (a b : SessionBinding) : Decidable (bindingEquals a b) := inferInstanceAs (Decidable (_ ∧ _))

theorem bindingEquals_iff {a b : SessionBinding} : bindingEquals a b ↔ a = b := by
  cases a
  cases b
  simp [bindingEquals]

/-- A pane that has not learnt its generation answers to any. -/
def generationMatchesLegacy (recorded expected : String) : Prop := recorded = "" ∨ recorded = expected

instance (recorded expected : String) : Decidable (generationMatchesLegacy recorded expected) :=
  inferInstanceAs (Decidable (_ ∨ _))

def TmuxSessionContent.binding (c : TmuxSessionContent) : SessionBinding := ⟨c.hostId, c.sessionCode, c.tmuxInstance⟩

/-! ## Tabs -/

abbrev Tabs := Record Tab

namespace Tabs

variable (tabs : Tabs)

/-- The tabs with `f` applied to the content of each pane. -/
def mapContent (f : PaneContent → PaneContent) : Tabs :=
  tabs.mapValues fun tab => { tab with layout := tab.layout.mapContent f }

/-- Every pane of every tab, in their order. -/
def panes : List Pane := tabs.values.flatMap fun tab => tab.layout.collectLeaves

theorem mapContent_mapContent (f g : PaneContent → PaneContent) : (tabs.mapContent f).mapContent g = tabs.mapContent (g ∘ f) := by
  unfold mapContent
  rw [Record.mapValues_mapValues]
  exact Record.mapValues_congr fun tab _ => by rw [Function.comp_apply, PaneLayout.mapContent_mapContent]

theorem mapContent_id : tabs.mapContent id = tabs := by
  unfold mapContent
  rw [Record.mapValues_congr (g := id) fun tab _ => by rw [PaneLayout.mapContent_id]; rfl, Record.mapValues_id]

theorem mapContent_congr {tabs : Tabs} {f g : PaneContent → PaneContent} (h : ∀ pane ∈ tabs.panes, f pane.content = g pane.content) :
    tabs.mapContent f = tabs.mapContent g :=
  Record.mapValues_congr fun tab htab => by
    rw [PaneLayout.mapContent_congr tab.layout fun pane hpane => h pane (List.mem_flatMap.2 ⟨tab, htab, hpane⟩)]

/-- Writing to all panes time after time is writing to each pane time after time. -/
theorem foldl_mapContent {α : Type} (write : α → PaneContent → PaneContent) (ds : List α) :
    ds.foldl (fun tabs d => tabs.mapContent (write d)) tabs = tabs.mapContent fun x => ds.foldl (fun x d => write d x) x := by
  induction ds generalizing tabs with
  | nil => exact (mapContent_id tabs).symm
  | cons d rest ih =>
    rw [List.foldl_cons, ih, mapContent_mapContent]
    rfl

end Tabs

/-! ## Writes by binding -/

/-- `update` on the sessions that `match` selects. -/
def onTmuxPane (selects : TmuxSessionContent → Prop) [DecidablePred selects] (update : TmuxSessionContent → TmuxSessionContent) :
    PaneContent → PaneContent
  | .tmuxSession c => .tmuxSession (if selects c then update c else c)
  | content => content

/-- Where no generation is expected, any will do. -/
def MarksPane (hostId sessionCode : String) (expectedTmuxInstance : Option String) (c : TmuxSessionContent) : Prop :=
  c.hostId = hostId ∧ c.sessionCode = sessionCode ∧
    (∀ expected ∈ expectedTmuxInstance, generationMatchesLegacy c.tmuxInstance expected) ∧ c.terminated = none

instance (hostId sessionCode : String) (expectedTmuxInstance : Option String) : DecidablePred (MarksPane hostId sessionCode expectedTmuxInstance) :=
  fun _ => inferInstanceAs (Decidable (_ ∧ _ ∧ _ ∧ _))

def markPanesInLayout (layout : PaneLayout) (hostId sessionCode : String) (reason : TerminatedReason)
    (expectedTmuxInstance : Option String) : PaneLayout :=
  layout.mapContent (onTmuxPane (MarksPane hostId sessionCode expectedTmuxInstance) fun c => { c with terminated := some reason })

def adoptInstanceInLayout (layout : PaneLayout) (hostId sessionCode tmuxInstance : String) : PaneLayout :=
  layout.mapContent (onTmuxPane (fun c => c.hostId = hostId ∧ c.sessionCode = sessionCode ∧ c.tmuxInstance = "")
    fun c => { c with tmuxInstance := tmuxInstance })

def markTerminatedForGeneration (hostId sessionCode expectedTmuxInstance : String) (reason : TerminatedReason) (tabs : Tabs) : Tabs :=
  tabs.mapValues fun tab =>
    { tab with layout := markPanesInLayout tab.layout hostId sessionCode reason (some expectedTmuxInstance) }

/-- An empty generation is unknown, and never stamped. -/
def adoptTmuxInstance (hostId sessionCode tmuxInstance : String) (tabs : Tabs) : Tabs :=
  if tmuxInstance = "" then tabs
  else tabs.mapValues fun tab => { tab with layout := adoptInstanceInLayout tab.layout hostId sessionCode tmuxInstance }

end Purdex.Panes
