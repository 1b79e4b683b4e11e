/-
The tab store: the tabs, their order, the active one, and those that were active before it.
-/
import Purdex.Lists.Reorder
import Purdex.Panes.Binding
import Purdex.Panes.Tree

namespace Purdex.Nav

open Json Panes Reorder

structure TabState where
  tabs : Tabs
  tabOrder : List String
  activeTabId : Option String
  visitHistory : List String

/-- A string that is not empty. -/
def truthy (s : Option String) : Option String := s.filter (· ≠ "")

/-- A tab of one pane; both ids are generated. -/
def createTab (id paneId : String) (content : PaneContent) : Tab := ⟨id, false, false, .leaf ⟨paneId, content⟩⟩

namespace TabState

variable (s : TabState)

def empty : TabState := ⟨.empty, [], none, []⟩

def isPinned (id : String) : Bool := (s.tabs.get? id).any (·.pinned)

/-- `order` with `id` behind `afterTabId`, or at the end. -/
def insertAfter (order : List String) (afterTabId : Option String) (skip : Nat → Nat) (id : String) : List String :=
  match truthy afterTabId with
  | none => order ++ [id]
  | some after =>
    match order.idxOf? after with
    | none => order ++ [id]
    | some idx => spliceAt order (skip (idx + 1)) [id]

/-- An unpinned tab goes behind all of the pinned ones. -/
def addTab (tab : Tab) (afterTabId : Option String) : TabState :=
  if (s.tabs.get? tab.id).isSome then s
  else
    let skip := fun insertIdx =>
      if tab.pinned = false ∧ afterTabId.any s.isPinned then insertIdx + ((s.tabOrder.drop insertIdx).takeWhile s.isPinned).length
      else insertIdx
    { s with
      tabs := s.tabs.set tab.id tab
      tabOrder := insertAfter s.tabOrder afterTabId skip tab.id
      activeTabId := s.activeTabId.or (some tab.id) }

def closeTab (id : String) : TabState :=
  match s.tabs.get? id with
  | none => s
  | some tab =>
    if tab.locked = true then s
    else {
      tabs := s.tabs.restrict (· ≠ id)
      tabOrder := s.tabOrder.filter (· ≠ id)
      activeTabId := if s.activeTabId = some id then none else s.activeTabId
      visitHistory := s.visitHistory.filter (· ≠ id) }

def setActiveTab : Option String → TabState
  | none => { s with activeTabId := none }
  | some id =>
    if (s.tabs.get? id).isNone then s
    else if some id = s.activeTabId then s
    else { s with activeTabId := some id, visitHistory := s.visitHistory.filter (· ≠ id) ++ s.activeTabId.toList }

/-- The tab that shows the content already, or a new one. -/
def openSingletonTab (newId newPaneId : String) (content : PaneContent) (afterTabId : Option String) : String × TabState :=
  match s.tabOrder.find? fun id => (s.tabs.get? id).any fun tab => contentMatches tab.layout.getPrimaryPane.content content with
  | some id => (id, s.setActiveTab (some id))
  | none =>
    let tab := createTab newId newPaneId content
    (tab.id, (s.addTab tab afterTabId).setActiveTab (some tab.id))

/-- The tab with another layout. -/
def setTabLayout (tabId : String) (layout : PaneLayout) : TabState :=
  match s.tabs.get? tabId with
  | none => s
  | some tab => { s with tabs := s.tabs.set tabId { tab with layout } }

/-- The last pane of a tab is closed with the tab. -/
def closePane (tabId paneId : String) : TabState :=
  match s.tabs.get? tabId with
  | none => s
  | some tab =>
    match tab.layout.removePane paneId with
    | none => s.closeTab tabId
    | some newLayout => { s with tabs := s.tabs.set tabId { tab with layout := newLayout } }

/-- The pane gets a tab of its own, unless it has one. -/
def detachPane (newId newPaneId tabId paneId : String) (afterTabId : Option String) : Option String × TabState :=
  match s.tabs.get? tabId with
  | none => (none, s)
  | some tab =>
    match tab.layout.findPane paneId with
    | none => (none, s)
    | some pane =>
      if tab.layout.isLeaf then (none, s)
      else match tab.layout.removePane paneId with
        | none => (none, s)
        | some newLayout =>
          let newTab := createTab newId newPaneId pane.content
          (some newTab.id, { s with
            tabs := (s.tabs.set tabId { tab with layout := newLayout }).set newTab.id newTab
            tabOrder := insertAfter s.tabOrder afterTabId id newTab.id })

def reorderTabs (order : List String) : TabState := { s with tabOrder := order }

/-- The tab changes sides, next to where they meet. -/
def togglePin (id : String) : TabState :=
  match s.tabs.get? id with
  | none => s
  | some tab =>
    let newOrder := s.tabOrder.filter (· ≠ id)
    { s with
      tabs := s.tabs.set id { tab with pinned := !tab.pinned }
      tabOrder := spliceAt newOrder (newOrder.findIdx fun tid => s.isPinned tid = false) [id] }

def toggleLock (id : String) : TabState :=
  match s.tabs.get? id with
  | none => s
  | some tab => { s with tabs := s.tabs.set id { tab with locked := !tab.locked } }

end TabState

/-! ## What the actions keep -/

/-- The order and the history are of the tabs there are, and no tab comes twice. -/
structure TabState.Consistent (s : TabState) : Prop where
  nodup : s.tabOrder.Nodup
  order : ∀ id, id ∈ s.tabOrder ↔ (s.tabs.get? id).isSome
  ids : ∀ id tab, s.tabs.get? id = some tab → tab.id = id
  active : ∀ id ∈ s.activeTabId, (s.tabs.get? id).isSome
  history : s.visitHistory.Nodup
  visited : ∀ id ∈ s.visitHistory, (s.tabs.get? id).isSome
  behind : ∀ id ∈ s.visitHistory, s.activeTabId ≠ some id

namespace TabState.Consistent

variable {s : TabState} {id tabId paneId : String} {tab : Tab} {afterTabId : Option String}

theorem empty : TabState.empty.Consistent := by
  refine ⟨List.nodup_nil, fun id => ?_, fun id tab h => ?_, nofun, List.nodup_nil, ?_, ?_⟩
  · simp [TabState.empty]
  · cases h
  · exact fun _ h => absurd h List.not_mem_nil
  · exact fun _ h => absurd h List.not_mem_nil

/-- A tab that is there is replaced by one of its id. -/
theorem set (h : s.Consistent) (hexists : (s.tabs.get? id).isSome) (hid : tab.id = id) : { s with tabs := s.tabs.set id tab }.Consistent := by
  have hsome : ∀ k, ((s.tabs.set id tab).get? k).isSome = (s.tabs.get? k).isSome := by
    intro k
    rw [Record.get?_set]
    split
    · subst k
      rw [hexists]
      rfl
    · rfl
  refine ⟨h.nodup, fun k => ?_, fun k t ht => ?_, fun k hk => ?_, h.history, fun k hk => ?_, h.behind⟩
  · rw [hsome]
    exact h.order k
  · replace ht : (s.tabs.set id tab).get? k = some t := ht
    rw [Record.get?_set] at ht
    split at ht
    · obtain rfl := Option.some.inj ht
      subst k
      exact hid
    · exact h.ids k t ht
  · rw [hsome]
    exact h.active k hk
  · rw [hsome]
    exact h.visited k hk

theorem reorder (h : s.Consistent) {order : List String} (hperm : order.Perm s.tabOrder) : (s.reorderTabs order).Consistent :=
  ⟨hperm.nodup_iff.2 h.nodup, fun id => hperm.mem_iff.trans (h.order id), h.ids, h.active, h.history, h.visited, h.behind⟩

theorem insertAfter_perm (order : List String) (skip : Nat → Nat) : (insertAfter order afterTabId skip id).Perm (id :: order) := by
  unfold insertAfter
  split
  · exact List.perm_append_singleton _ _
  · split
    · exact List.perm_append_singleton _ _
    · exact spliceAt_perm _ _ _

/-- A tab of a new id, wherever it goes in the order. -/
theorem insert (h : s.Consistent) (hfresh : (s.tabs.get? tab.id).isNone) {order : List String} (horder : order.Perm (tab.id :: s.tabOrder))
    {active : Option String} (hactive : active = s.activeTabId ∨ active = some tab.id) :
    { s with tabs := s.tabs.set tab.id tab, tabOrder := order, activeTabId := active }.Consistent := by
  have hkept : ∀ k, (s.tabs.get? k).isSome → ((s.tabs.set tab.id tab).get? k).isSome ∧ k ≠ tab.id := by
    intro k hk
    have hne : k ≠ tab.id := by
      rintro rfl
      rw [Option.isNone_iff_eq_none.1 hfresh] at hk
      cases hk
    rw [Record.get?_set, if_neg hne]
    exact ⟨hk, hne⟩
  refine ⟨?_, fun k => ?_, fun k t ht => ?_, fun k hk => ?_, h.history, fun k hk => (hkept k (h.visited k hk)).1, fun k hk hk' => ?_⟩
  · rw [horder.nodup_iff, List.nodup_cons]
    exact ⟨fun hmem => (hkept _ ((h.order _).1 hmem)).2 rfl, h.nodup⟩
  · rw [horder.mem_iff, List.mem_cons, h.order, Record.get?_set]
    by_cases hk : k = tab.id <;> simp [hk]
  · replace ht : (s.tabs.set tab.id tab).get? k = some t := ht
    rw [Record.get?_set] at ht
    split at ht
    · obtain rfl := Option.some.inj ht
      subst k
      rfl
    · exact h.ids k t ht
  · rcases hactive with rfl | rfl
    · exact (hkept k (h.active k hk)).1
    · obtain rfl := Option.some.inj hk
      rw [Record.get?_set, if_pos rfl]
      rfl
  · rcases hactive with rfl | rfl
    · exact h.behind k hk hk'
    · exact (hkept k (h.visited k hk)).2 (Option.some.inj hk').symm

theorem addTab (h : s.Consistent) (tab : Tab) (afterTabId : Option String) : (s.addTab tab afterTabId).Consistent := by
  unfold TabState.addTab
  split
  · exact h
  · rename_i hfresh
    refine h.insert (by simpa using hfresh) (insertAfter_perm _ _) ?_
    cases s.activeTabId with
    | none => exact .inr rfl
    | some id => exact .inl rfl

theorem setActiveTab (h : s.Consistent) (id : Option String) : (s.setActiveTab id).Consistent := by
  cases id with
  | none => exact ⟨h.nodup, h.order, h.ids, nofun, h.history, h.visited, fun _ _ => nofun⟩
  | some id =>
    unfold TabState.setActiveTab
    dsimp only
    split
    · exact h
    rename_i hexists
    split
    · exact h
    rename_i hne
    refine ⟨h.nodup, h.order, h.ids, fun k hk => ?_, ?_, fun k hk => ?_, fun k hk hactive => ?_⟩
    · obtain rfl := Option.some.inj hk
      exact Option.isSome_iff_ne_none.2 (by simpa using hexists)
    · refine List.nodup_append.2 ⟨h.history.filter _, ?_, ?_⟩
      · cases s.activeTabId with
        | none => exact List.nodup_nil
        | some _ => exact List.nodup_singleton _
      · rintro a ha b hb rfl
        exact h.behind a (List.mem_of_mem_filter ha) (Option.mem_toList.1 hb)
    · rcases List.mem_append.1 hk with hk | hk
      · exact h.visited k (List.mem_of_mem_filter hk)
      · exact h.active k (Option.mem_toList.1 hk)
    · obtain rfl := Option.some.inj hactive
      rcases List.mem_append.1 hk with hk | hk
      · exact of_decide_eq_true (List.mem_filter.1 hk).2 rfl
      · exact hne (Option.mem_toList.1 hk).symm

theorem closeTab (h : s.Consistent) (id : String) : (s.closeTab id).Consistent := by
  unfold TabState.closeTab
  split
  · exact h
  split
  · exact h
  have hkept : ∀ k, k ≠ id → (s.tabs.restrict (· ≠ id)).get? k = s.tabs.get? k := by
    intro k hk
    rw [Record.get?_restrict, if_pos (by simpa using hk)]
  refine ⟨h.nodup.filter _, fun k => ?_, fun k t ht => ?_, fun k hk => ?_, h.history.filter _, fun k hk => ?_, fun k hk hactive => ?_⟩
  · rw [List.mem_filter, h.order, Record.get?_restrict]
    by_cases hk : k = id <;> simp [hk]
  · replace ht : (s.tabs.restrict (· ≠ id)).get? k = some t := ht
    rw [Record.get?_restrict] at ht
    split at ht
    · exact h.ids k t ht
    · cases ht
  · replace hk : k ∈ if s.activeTabId = some id then none else s.activeTabId := hk
    split at hk
    · cases hk
    · rename_i hother
      rw [hkept k (by rintro rfl; exact hother hk)]
      exact h.active k hk
  · obtain ⟨hmem, hne⟩ := List.mem_filter.1 hk
    rw [hkept k (by simpa using hne)]
    exact h.visited k hmem
  · replace hactive : (if s.activeTabId = some id then none else s.activeTabId) = some k := hactive
    split at hactive
    · cases hactive
    · exact h.behind k (List.mem_of_mem_filter hk) hactive

theorem openSingletonTab (h : s.Consistent) (newId newPaneId : String) (content : PaneContent) (afterTabId : Option String) :
    (s.openSingletonTab newId newPaneId content afterTabId).2.Consistent := by
  unfold TabState.openSingletonTab
  split
  · exact h.setActiveTab (some _)
  · exact (h.addTab (createTab newId newPaneId content) afterTabId).setActiveTab (some newId)

theorem setTabLayout (h : s.Consistent) (tabId : String) (layout : PaneLayout) : (s.setTabLayout tabId layout).Consistent := by
  unfold TabState.setTabLayout
  cases htab : s.tabs.get? tabId with
  | none => exact h
  | some tab => exact h.set (by rw [htab]; rfl) (h.ids tabId tab htab)

theorem closePane (h : s.Consistent) (tabId paneId : String) : (s.closePane tabId paneId).Consistent := by
  unfold TabState.closePane
  cases htab : s.tabs.get? tabId with
  | none => exact h
  | some tab =>
    dsimp only
    split
    · exact h.closeTab tabId
    · exact h.set (by rw [htab]; rfl) (h.ids tabId tab htab)

theorem detachPane (h : s.Consistent) {newId : String} (hfresh : (s.tabs.get? newId).isNone) (newPaneId tabId paneId : String)
    (afterTabId : Option String) : (s.detachPane newId newPaneId tabId paneId afterTabId).2.Consistent := by
  unfold TabState.detachPane
  cases htab : s.tabs.get? tabId with
  | none => exact h
  | some tab =>
    dsimp only
    split
    · exact h
    split
    · exact h
    split
    · exact h
    rename_i newLayout _
    have hid : Tab.id { tab with layout := newLayout } = tabId := h.ids tabId tab htab
    have hset := h.set (by rw [htab]; rfl : (s.tabs.get? tabId).isSome) hid
    refine hset.insert ?_ (insertAfter_perm _ _) (.inl rfl)
    show ((s.tabs.set tabId _).get? newId).isNone
    rw [Record.get?_set, if_neg]
    · exact hfresh
    · rintro rfl
      rw [htab] at hfresh
      cases hfresh

theorem togglePin (h : s.Consistent) (id : String) : (s.togglePin id).Consistent := by
  unfold TabState.togglePin
  cases htab : s.tabs.get? id with
  | none => exact h
  | some tab =>
    have hid : Tab.id { tab with pinned := !tab.pinned } = id := h.ids id tab htab
    have hset := h.set (by rw [htab]; rfl : (s.tabs.get? id).isSome) hid
    exact hset.reorder ((spliceAt_perm _ _ _).trans (cons_filter_perm h.nodup ((h.order id).2 (by rw [htab]; rfl))))

theorem toggleLock (h : s.Consistent) (id : String) : (s.toggleLock id).Consistent := by
  unfold TabState.toggleLock
  cases htab : s.tabs.get? id with
  | none => exact h
  | some tab => exact h.set (by rw [htab]; rfl) (h.ids id tab htab)

end TabState.Consistent

end Purdex.Nav
