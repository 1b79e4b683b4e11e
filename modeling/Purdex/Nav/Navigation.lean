/-
The two stores together: what the tab bar shows, the handlers that act on both, and that they stay
consistent over whole runs.
-/
import Purdex.Conc.Serial
import Purdex.Nav.Workspaces

namespace Purdex.Nav

open Conc Json Panes Reorder

structure Stores where
  tabStore : TabState
  workspaceStore : WorkspaceState

namespace Stores

variable (w : Stores)

/-! ## The tab bar -/

/-- The active standalone tab alone, or the tabs of the active workspace, or what is in none; all without workspaces. -/
def getVisibleTabIds : List String :=
  let workspaces := w.workspaceStore.workspaces
  if workspaces = [] then w.tabStore.tabOrder
  else match truthy w.workspaceStore.activeWorkspaceId with
    | none => w.tabStore.tabOrder.filter (isStandaloneTab · workspaces)
    | some wsId =>
      match (truthy w.tabStore.activeTabId).filter (isStandaloneTab · workspaces) with
      | some id => [id]
      | none =>
        match workspaces.find? (·.id = wsId) with
        | some activeWs => activeWs.tabs.filter fun id => (w.tabStore.tabs.get? id).isSome
        | none => w.tabStore.tabOrder

def displayTabs : List Tab := w.getVisibleTabIds.filterMap w.tabStore.tabs.get?

/-- What a drag in the tab bar asks for: the displayed tabs, with one of them moved within the pinned or the other ones. -/
def dragOrder (displayed : List Tab) (activeId overId : String) : Option (List String) :=
  let pinnedIds := (displayed.filter fun tab => tab.pinned).map (·.id)
  let normalIds := (displayed.filter fun tab => !tab.pinned).map (·.id)
  if activeId = overId ∨ decide (activeId ∈ pinnedIds) ≠ decide (overId ∈ pinnedIds) then none
  else
    let zone := if activeId ∈ pinnedIds then pinnedIds else normalIds
    let moved := spliceAt (spliceOut zone (indexOf zone activeId)) (indexOf zone overId) [activeId]
    some (if activeId ∈ pinnedIds then moved ++ normalIds else pinnedIds ++ moved)

/-! ## Handlers -/

def handleReorderTabs (order : List String) : Stores :=
  match truthy w.workspaceStore.activeWorkspaceId with
  | some wsId => { w with workspaceStore := w.workspaceStore.reorderWorkspaceTabs wsId order }
  | none => { w with tabStore := w.tabStore.reorderTabs order }

/-- The end of a drag in the tab bar. -/
def dragTab (activeId overId : String) : Stores :=
  match dragOrder w.displayTabs activeId overId with
  | none => w
  | some order => w.handleReorderTabs order

/-- The tabs that `newOrder` names in that order, from where the first of them was. -/
def reorderStandaloneTabOrder (current newOrder : List String) : List String :=
  let filtered := knownOnce current newOrder
  if filtered = [] then current
  else
    let kept := current.filter (· ∉ filtered)
    spliceAt kept (current.findIdx (· ∈ filtered)) filtered

def handleReorderStandaloneTabs (newOrder : List String) : Stores :=
  { w with tabStore := w.tabStore.reorderTabs (reorderStandaloneTabOrder w.tabStore.tabOrder newOrder) }

def handleSelectTab (tabId : String) : Stores :=
  let tabStore := w.tabStore.setActiveTab (some tabId)
  match w.workspaceStore.findWorkspaceByTab tabId with
  | none => { w with tabStore }
  | some ws => ⟨tabStore, (w.workspaceStore.setActiveWorkspace (some ws.id)).setWorkspaceActiveTab ws.id tabId⟩

/-- The tabs among which the next one is looked for: those of the workspace, or those of none. -/
def siblings (tabId : String) : List String :=
  match w.workspaceStore.findWorkspaceByTab tabId with
  | some ws => ws.tabs
  | none => w.tabStore.tabOrder.filter (isStandaloneTab · w.workspaceStore.workspaces)

/-- The one visited last, or else the one beside the tab. -/
def nextTab (tabId : String) : Option String :=
  let remaining := (w.siblings tabId).filter (· ≠ tabId)
  match w.tabStore.visitHistory.reverse.find? (· ∈ remaining) with
  | some id => some id
  | none =>
    let i := min (indexOf (w.siblings tabId) tabId) (remaining.length - 1)
    if i < 0 then none else remaining[i.toNat]?

def closeTabInWorkspace (tabId : String) : Stores :=
  match w.tabStore.tabs.get? tabId with
  | none => w
  | some tab =>
    if tab.locked = true then w
    else
      let nextTabId := w.nextTab tabId
      let closed := w.tabStore.closeTab tabId
      let tabStore := if w.tabStore.activeTabId = some tabId then closed.setActiveTab nextTabId else closed
      match w.workspaceStore.findWorkspaceByTab tabId with
      | none => { w with tabStore }
      | some ws =>
        let removed := w.workspaceStore.removeTabFromWorkspace ws.id tabId
        match truthy nextTabId with
        | some next => ⟨tabStore, if ws.activeTabId = some tabId then removed.setWorkspaceActiveTab ws.id next else removed⟩
        | none => ⟨tabStore, removed⟩

end Stores

/-! ## Actions -/

inductive NavAction where
  | addTab (tab : Tab) (afterTabId : Option String)
  | openSingletonTab (newId newPaneId : String) (content : PaneContent) (afterTabId : Option String)
  | closeTab (id : String)
  | setActiveTab (id : Option String)
  | setTabLayout (tabId : String) (layout : PaneLayout)
  | closePane (tabId paneId : String)
  | detachPane (newId newPaneId tabId paneId : String) (afterTabId : Option String)
  | togglePin (id : String)
  | toggleLock (id : String)
  | addWorkspace (newId name : String)
  | removeWorkspace (wsId : String)
  | setActiveWorkspace (wsId : Option String)
  | addTabToWorkspace (wsId tabId : String)
  | removeTabFromWorkspace (wsId tabId : String)
  | reorderWorkspaceTabs (wsId : String) (tabIds : List String)
  | reorderWorkspaces (orderedIds : List String)
  | insertTab (tabId : String) (workspaceId afterTabId : Option (Option String))
  | closeTabInWorkspace (tabId : String)
  | dragTab (activeId overId : String)
  | handleReorderStandaloneTabs (newOrder : List String)
  | handleSelectTab (tabId : String)

/-- The stores after the action, and the tab it returns. -/
def NavAction.step (action : NavAction) (w : Stores) : Option String × Stores :=
  let ⟨tabStore, workspaceStore⟩ := w
  match action with
  | addTab tab afterTabId => (none, ⟨tabStore.addTab tab afterTabId, workspaceStore⟩)
  | openSingletonTab newId newPaneId content afterTabId =>
    let (id, tabStore) := tabStore.openSingletonTab newId newPaneId content afterTabId
    (some id, ⟨tabStore, workspaceStore⟩)
  | closeTab id => (none, ⟨tabStore.closeTab id, workspaceStore⟩)
  | setActiveTab id => (none, ⟨tabStore.setActiveTab id, workspaceStore⟩)
  | setTabLayout tabId layout => (none, ⟨tabStore.setTabLayout tabId layout, workspaceStore⟩)
  | closePane tabId paneId => (none, ⟨tabStore.closePane tabId paneId, workspaceStore⟩)
  | detachPane newId newPaneId tabId paneId afterTabId =>
    let (id, tabStore) := tabStore.detachPane newId newPaneId tabId paneId afterTabId
    (id, ⟨tabStore, workspaceStore⟩)
  | togglePin id => (none, ⟨tabStore.togglePin id, workspaceStore⟩)
  | toggleLock id => (none, ⟨tabStore.toggleLock id, workspaceStore⟩)
  | addWorkspace newId name => (none, ⟨tabStore, workspaceStore.addWorkspace newId name⟩)
  | removeWorkspace wsId => (none, ⟨tabStore, workspaceStore.removeWorkspace wsId⟩)
  | setActiveWorkspace wsId => (none, ⟨tabStore, workspaceStore.setActiveWorkspace wsId⟩)
  | addTabToWorkspace wsId tabId => (none, ⟨tabStore, workspaceStore.addTabToWorkspace wsId tabId⟩)
  | removeTabFromWorkspace wsId tabId => (none, ⟨tabStore, workspaceStore.removeTabFromWorkspace wsId tabId⟩)
  | reorderWorkspaceTabs wsId tabIds => (none, ⟨tabStore, workspaceStore.reorderWorkspaceTabs wsId tabIds⟩)
  | reorderWorkspaces orderedIds => (none, ⟨tabStore, workspaceStore.reorderWorkspaces orderedIds⟩)
  | insertTab tabId workspaceId afterTabId => (none, ⟨tabStore, workspaceStore.insertTab tabId workspaceId afterTabId⟩)
  | closeTabInWorkspace tabId => (none, w.closeTabInWorkspace tabId)
  | dragTab activeId overId => (none, w.dragTab activeId overId)
  | handleReorderStandaloneTabs newOrder => (none, w.handleReorderStandaloneTabs newOrder)
  | handleSelectTab tabId => (none, w.handleSelectTab tabId)

def emptyStores : Stores := ⟨.empty, ⟨[], none⟩⟩

abbrev NavStep := Served Stores NavAction (Option String)

abbrev NavRuns (ok : Stores → NavAction → Prop) : Stores → List NavStep → Prop := Serves NavAction.step (· = emptyStores) ok

/-! ## Consistency -/

/-- The order and the history are of the tabs there are, and each of them is in one workspace at most. -/
structure NavConsistent (w : Stores) : Prop where
  order : w.tabStore.tabOrder.Nodup ∧ w.tabStore.tabOrder.Perm w.tabStore.tabs.keys
  active : ∀ id ∈ w.tabStore.activeTabId, id ∈ w.tabStore.tabs.keys
  history : w.tabStore.visitHistory.Nodup ∧ ∀ id ∈ w.tabStore.visitHistory, id ∈ w.tabStore.tabs.keys ∧ w.tabStore.activeTabId ≠ some id
  workspaceIds : (w.workspaceStore.workspaces.map (·.id)).Nodup
  workspaceTabs : ∀ ws ∈ w.workspaceStore.workspaces, ∀ id ∈ ws.tabs,
    id ∈ w.tabStore.tabs.keys ∧ ∀ ws' ∈ w.workspaceStore.workspaces, id ∈ ws'.tabs → ws'.id = ws.id
  workspaceActive : ∀ ws ∈ w.workspaceStore.workspaces, ∀ id ∈ ws.activeTabId, id ∈ ws.tabs

/-- Closing the tab in the tab store alone takes it from no workspace. -/
def Stores.ClosesAlone (w : Stores) (id : String) : Prop :=
  ∀ tab ∈ w.tabStore.tabs.get? id, tab.locked = false → isStandaloneTab id w.workspaceStore.workspaces

/-- What an action must not meet. Generated ids are new, tabs go into workspaces when they exist, and out of a
workspace before they go; and the tab bar shows all tabs where its order becomes that of all. -/
def NavFits (w : Stores) : NavAction → Prop
  | .closeTab id => w.ClosesAlone id
  | .closePane tabId paneId => (∀ tab ∈ w.tabStore.tabs.get? tabId, (tab.layout.removePane paneId).isNone) → w.ClosesAlone tabId
  | .detachPane newId _ _ _ _ => (w.tabStore.tabs.get? newId).isNone
  | .addWorkspace newId _ => ∀ ws ∈ w.workspaceStore.workspaces, ws.id ≠ newId
  | .addTabToWorkspace wsId tabId => (∃ ws ∈ w.workspaceStore.workspaces, ws.id = wsId) →
    (w.tabStore.tabs.get? tabId).isSome ∧ ∀ ws ∈ w.workspaceStore.workspaces, tabId ∈ ws.tabs → ws.id = wsId
  | .insertTab tabId workspaceId _ => ∀ wsId ∈ w.workspaceStore.insertTarget workspaceId,
    (∃ ws ∈ w.workspaceStore.workspaces, ws.id = wsId) → (w.tabStore.tabs.get? tabId).isSome
  | .reorderWorkspaces orderedIds => orderedIds.Nodup
  | .dragTab activeId overId => truthy w.workspaceStore.activeWorkspaceId = none → (Stores.dragOrder w.displayTabs activeId overId).isSome →
    activeId ∈ w.getVisibleTabIds ∧ ∀ id ∈ w.tabStore.tabOrder, id ∈ w.getVisibleTabIds
  | _ => True

instance (w : Stores) (id : String) : Decidable (w.ClosesAlone id) := inferInstanceAs (Decidable (∀ tab ∈ _, _ → _))

instance decidableNavFits (w : Stores) : ∀ action, Decidable (NavFits w action)
  | .closeTab _ => inferInstanceAs (Decidable (w.ClosesAlone _))
  | .closePane _ _ => inferInstanceAs (Decidable ((∀ tab ∈ _, _) → w.ClosesAlone _))
  | .detachPane _ _ _ _ _ => inferInstanceAs (Decidable (_ = true))
  | .addWorkspace _ _ => inferInstanceAs (Decidable (∀ ws ∈ _, _))
  | .addTabToWorkspace _ _ => inferInstanceAs (Decidable ((∃ ws ∈ _, _) → _ ∧ ∀ ws ∈ _, _))
  | .insertTab _ _ _ => inferInstanceAs (Decidable (∀ wsId ∈ _, (∃ ws ∈ _, _) → _))
  | .reorderWorkspaces _ => inferInstanceAs (Decidable (List.Nodup _))
  | .dragTab _ _ => inferInstanceAs (Decidable (_ → _ → _ ∧ ∀ id ∈ _, _))
  | .addTab _ _ | .openSingletonTab _ _ _ _ | .setActiveTab _ | .setTabLayout _ _ | .togglePin _ | .toggleLock _ | .removeWorkspace _
  | .setActiveWorkspace _ | .removeTabFromWorkspace _ _ | .reorderWorkspaceTabs _ _ | .closeTabInWorkspace _
  | .handleReorderStandaloneTabs _ | .handleSelectTab _ => inferInstanceAs (Decidable True)

/-! ## What the actions keep -/

/-- Both stores are consistent, the workspaces with the tabs there are. -/
structure Stores.Sound (w : Stores) : Prop where
  tabs : w.tabStore.Consistent
  workspaces : w.workspaceStore.Consistent fun id => (w.tabStore.tabs.get? id).isSome

section Keeps

variable {w : Stores} {id tabId : String}

theorem Stores.Sound.consistent (h : w.Sound) : NavConsistent w where
  order := by
    refine ⟨h.tabs.nodup, (List.perm_ext_iff_of_nodup h.tabs.nodup w.tabStore.tabs.nodup).2 fun id => ?_⟩
    exact (h.tabs.order id).trans Record.mem_keys.symm
  active id hid := Record.mem_keys.2 (h.tabs.active id hid)
  history := ⟨h.tabs.history, fun id hid => ⟨Record.mem_keys.2 (h.tabs.visited id hid), h.tabs.behind id hid⟩⟩
  workspaceIds := h.workspaces.ids
  workspaceTabs ws hws id hid :=
    ⟨Record.mem_keys.2 (h.workspaces.known ws hws id hid), fun ws' hws' hid' => h.workspaces.alone ws' hws' ws hws id hid' hid⟩
  workspaceActive := h.workspaces.active

/-- A new tab store that has all of the tabs. -/
theorem Stores.Sound.grow (h : w.Sound) {tabStore : TabState} (htabs : tabStore.Consistent)
    (hkept : ∀ id, (w.tabStore.tabs.get? id).isSome → (tabStore.tabs.get? id).isSome) : (⟨tabStore, w.workspaceStore⟩ : Stores).Sound :=
  ⟨htabs, h.workspaces.mono hkept⟩

theorem isSome_set {tabs : Tabs} {k : String} {tab : Tab} (hid : (tabs.get? id).isSome) : ((tabs.set k tab).get? id).isSome := by
  rw [Record.get?_set]
  split
  · rfl
  · exact hid

theorem tabs_setActiveTab (s : TabState) (id : Option String) : (s.setActiveTab id).tabs = s.tabs := by
  unfold TabState.setActiveTab
  split
  · rfl
  · split
    · rfl
    · split <;> rfl

theorem isSome_addTab {s : TabState} {tab : Tab} {afterTabId : Option String} (hid : (s.tabs.get? id).isSome) :
    ((s.addTab tab afterTabId).tabs.get? id).isSome := by
  unfold TabState.addTab
  split
  · exact hid
  · exact isSome_set hid

theorem isSome_openSingletonTab {s : TabState} {newId newPaneId : String} {content : PaneContent} {afterTabId : Option String}
    (hid : (s.tabs.get? id).isSome) : ((s.openSingletonTab newId newPaneId content afterTabId).2.tabs.get? id).isSome := by
  unfold TabState.openSingletonTab
  split
  · rw [tabs_setActiveTab]
    exact hid
  · show (((s.addTab _ _).setActiveTab _).tabs.get? id).isSome
    rw [tabs_setActiveTab]
    exact isSome_addTab hid

/-- The tab that is closed is the only one that goes. -/
theorem isSome_closeTab {s : TabState} (hid : (s.tabs.get? id).isSome) (hne : id ≠ tabId) : ((s.closeTab tabId).tabs.get? id).isSome := by
  unfold TabState.closeTab
  split
  · exact hid
  · split
    · exact hid
    · show ((s.tabs.restrict (· ≠ tabId)).get? id).isSome
      rw [Record.get?_restrict, if_pos (by simpa using hne)]
      exact hid

theorem isSome_detachPane {s : TabState} {newId newPaneId paneId : String} {afterTabId : Option String} (hid : (s.tabs.get? id).isSome) :
    ((s.detachPane newId newPaneId tabId paneId afterTabId).2.tabs.get? id).isSome := by
  unfold TabState.detachPane
  split
  · exact hid
  · split
    · exact hid
    · split
      · exact hid
      · split
        · exact hid
        · exact isSome_set (isSome_set hid)

theorem isSome_setTabLayout {s : TabState} {layout : PaneLayout} (hid : (s.tabs.get? id).isSome) :
    ((s.setTabLayout tabId layout).tabs.get? id).isSome := by
  unfold TabState.setTabLayout
  split
  · exact hid
  · exact isSome_set hid

theorem isSome_togglePin {s : TabState} (hid : (s.tabs.get? id).isSome) : ((s.togglePin tabId).tabs.get? id).isSome := by
  unfold TabState.togglePin
  split
  · exact hid
  · exact isSome_set hid

theorem isSome_toggleLock {s : TabState} (hid : (s.tabs.get? id).isSome) : ((s.toggleLock tabId).tabs.get? id).isSome := by
  unfold TabState.toggleLock
  split
  · exact hid
  · exact isSome_set hid

/-- A tab that is closed in the tab store alone was in no workspace. -/
theorem Stores.Sound.closeTab (h : w.Sound) (halone : w.ClosesAlone id) : (⟨w.tabStore.closeTab id, w.workspaceStore⟩ : Stores).Sound := by
  refine ⟨h.tabs.closeTab id, ⟨h.workspaces.ids, fun ws hws k hk => ?_, h.workspaces.alone, h.workspaces.active⟩⟩
  have hknown := h.workspaces.known ws hws k hk
  by_cases hkid : k = id
  · subst hkid
    unfold TabState.closeTab
    cases htab : w.tabStore.tabs.get? k with
    | none =>
      rw [htab] at hknown
      cases hknown
    | some tab =>
      dsimp only
      split
      · rw [htab]
        rfl
      · rename_i hunlocked
        exact absurd hk (halone tab htab (by simpa using hunlocked) ws hws)
  · exact isSome_closeTab hknown hkid

/-! ### The tab bar -/

theorem dragOrder_perm {displayed : List Tab} {activeId overId : String} {order : List String}
    (h : Stores.dragOrder displayed activeId overId = some order) (hshown : activeId ∈ displayed.map (·.id)) :
    order.Perm (displayed.map (·.id)) := by
  have hzones : ((displayed.filter fun tab => tab.pinned).map (·.id) ++ (displayed.filter fun tab => !tab.pinned).map (·.id)).Perm
      (displayed.map (·.id)) := by
    rw [← List.map_append]
    exact (List.filter_append_perm _ _).map _
  have hin := hzones.mem_iff.2 hshown
  unfold Stores.dragOrder at h
  dsimp only at h
  split at h
  · cases h
  obtain rfl := Option.some.inj h
  refine List.Perm.trans ?_ hzones
  split
  · rename_i hpinned
    exact (splice_move_perm hpinned _).append_right _
  · rename_i hpinned
    exact (splice_move_perm ((List.mem_append.1 hin).resolve_left hpinned) _).append_left _

theorem displayTabs_ids (h : w.Sound) (hexist : ∀ id ∈ w.getVisibleTabIds, (w.tabStore.tabs.get? id).isSome) :
    w.displayTabs.map (·.id) = w.getVisibleTabIds := by
  rw [Stores.displayTabs, List.map_filterMap]
  conv_rhs => rw [← List.filterMap_some (l := w.getVisibleTabIds)]
  refine List.filterMap_congr fun id hid => ?_
  obtain ⟨tab, htab⟩ := Option.isSome_iff_exists.1 (hexist id hid)
  rw [htab, Option.map_some, h.tabs.ids id tab htab]

/-- Without an active workspace the tab bar shows tabs of the order, none of them twice. -/
theorem visible_sublist (hhome : truthy w.workspaceStore.activeWorkspaceId = none) : w.getVisibleTabIds.Sublist w.tabStore.tabOrder := by
  unfold Stores.getVisibleTabIds
  dsimp only
  split
  · exact .refl _
  · rw [hhome]
    exact List.filter_sublist

theorem Stores.Sound.dragTab (h : w.Sound) {activeId overId : String} (hfits : NavFits w (.dragTab activeId overId)) :
    (w.dragTab activeId overId).Sound := by
  unfold Stores.dragTab
  cases horder : Stores.dragOrder w.displayTabs activeId overId with
  | none => exact h
  | some order =>
    show (w.handleReorderTabs order).Sound
    unfold Stores.handleReorderTabs
    cases hactive : truthy w.workspaceStore.activeWorkspaceId with
    | some wsId => exact ⟨h.tabs, h.workspaces.reorderWorkspaceTabs wsId order⟩
    | none =>
      obtain ⟨hshown, hall⟩ := hfits hactive (by rw [horder]; rfl)
      have hsub := visible_sublist hactive
      have hids := displayTabs_ids h fun id hid => (h.tabs.order id).1 (hsub.subset hid)
      have hperm := dragOrder_perm horder (by rw [hids]; exact hshown)
      rw [hids] at hperm
      refine ⟨h.tabs.reorder (hperm.trans ((List.perm_ext_iff_of_nodup (h.tabs.nodup.sublist hsub) h.tabs.nodup).2 fun id => ?_)), h.workspaces⟩
      exact ⟨fun hid => hsub.subset hid, hall id⟩

theorem reorderStandaloneTabOrder_perm {current newOrder : List String} (hnodup : current.Nodup) :
    (Stores.reorderStandaloneTabOrder current newOrder).Perm current := by
  unfold Stores.reorderStandaloneTabOrder
  dsimp only
  split
  · exact .refl _
  · exact (spliceAt_perm _ _ _).trans (knownOnce_append_perm hnodup)

/-! ### Closing -/

theorem siblings_of_workspace {ws : Workspace} (hfind : w.workspaceStore.findWorkspaceByTab tabId = some ws) : w.siblings tabId = ws.tabs := by
  rw [Stores.siblings, hfind]

/-- The next tab is another one beside the tab. -/
theorem nextTab_sibling {next : String} (h : w.nextTab tabId = some next) : next ∈ w.siblings tabId ∧ next ≠ tabId := by
  have hremaining : next ∈ (w.siblings tabId).filter (· ≠ tabId) := by
    unfold Stores.nextTab at h
    dsimp only at h
    split at h
    · rename_i id hfind
      cases h
      have hsel := List.find?_some hfind
      exact of_decide_eq_true hsel
    · split at h
      · cases h
      · exact List.mem_of_getElem? h
  obtain ⟨hmem, hne⟩ := List.mem_filter.1 hremaining
  exact ⟨hmem, of_decide_eq_true hne⟩

theorem findWorkspaceByTab_some {ws : Workspace} (h : w.workspaceStore.findWorkspaceByTab tabId = some ws) :
    ws ∈ w.workspaceStore.workspaces ∧ tabId ∈ ws.tabs := by
  refine ⟨List.mem_of_find?_eq_some h, ?_⟩
  have hsel := List.find?_some h
  exact of_decide_eq_true hsel

theorem Stores.Sound.eq_of_id (h : w.Sound) {ws ws' : Workspace} (hws : ws ∈ w.workspaceStore.workspaces)
    (hws' : ws' ∈ w.workspaceStore.workspaces) (hid : ws.id = ws'.id) : ws = ws' :=
  List.inj_on_of_nodup_map h.workspaces.ids hws hws' hid

theorem Stores.Sound.handleSelectTab (h : w.Sound) (tabId : String) : (w.handleSelectTab tabId).Sound := by
  have htabs := h.tabs.setActiveTab (some tabId)
  have hkept : ∀ id, (w.tabStore.tabs.get? id).isSome → ((w.tabStore.setActiveTab (some tabId)).tabs.get? id).isSome := by
    intro id hid
    rw [tabs_setActiveTab]
    exact hid
  unfold Stores.handleSelectTab
  dsimp only
  split
  · exact h.grow htabs hkept
  · rename_i ws hfind
    obtain ⟨hws, hmem⟩ := findWorkspaceByTab_some hfind
    refine ⟨htabs, (((h.workspaces.setActiveWorkspace _).setWorkspaceActiveTab fun ws' hws' hid => ?_)).mono hkept⟩
    rw [h.eq_of_id hws' hws hid]
    exact hmem

/-- A tab that is closed goes out of its workspace first, and the next one takes its place. -/
theorem Stores.Sound.closeTabInWorkspace (h : w.Sound) (tabId : String) : (w.closeTabInWorkspace tabId).Sound := by
  unfold Stores.closeTabInWorkspace
  cases htab : w.tabStore.tabs.get? tabId with
  | none => exact h
  | some tab =>
    dsimp only
    split
    · exact h
    generalize hclosed : (if w.tabStore.activeTabId = some tabId then (w.tabStore.closeTab tabId).setActiveTab (w.nextTab tabId)
      else w.tabStore.closeTab tabId) = tabStore
    have htabs : tabStore.Consistent := by
      rw [← hclosed]
      split
      · exact (h.tabs.closeTab tabId).setActiveTab _
      · exact h.tabs.closeTab tabId
    have hkept : ∀ id, (w.tabStore.tabs.get? id).isSome → id ≠ tabId → (tabStore.tabs.get? id).isSome := by
      intro id hid hne
      rw [← hclosed]
      split
      · rw [tabs_setActiveTab]
        exact isSome_closeTab hid hne
      · exact isSome_closeTab hid hne
    -- workspaces that the tab is not in know their tabs as before
    have hknown : ∀ s : WorkspaceState, (s.Consistent fun id => (w.tabStore.tabs.get? id).isSome) → isStandaloneTab tabId s.workspaces →
        s.Consistent fun id => (tabStore.tabs.get? id).isSome := fun s hs hout =>
      ⟨hs.ids, fun ws hws id hid => hkept id (hs.known ws hws id hid) fun heq => hout ws hws (heq ▸ hid), hs.alone, hs.active⟩
    split
    · rename_i hfind
      refine ⟨htabs, hknown _ h.workspaces fun ws hws hmem => ?_⟩
      exact List.find?_eq_none.1 hfind ws hws (decide_eq_true hmem)
    · rename_i ws hfind
      obtain ⟨hws, hmem⟩ := findWorkspaceByTab_some hfind
      have hremoved := h.workspaces.removeTabFromWorkspace ws.id tabId
      have hout : isStandaloneTab tabId (w.workspaceStore.removeTabFromWorkspace ws.id tabId).workspaces := by
        intro _ hmapped
        obtain ⟨ws', hws', rfl⟩ := List.mem_map.1 hmapped
        split
        · exact fun hin => of_decide_eq_true (List.mem_filter.1 hin).2 rfl
        · rename_i hother
          exact fun hin => hother (h.workspaces.alone ws' hws' ws hws tabId hin hmem)
      split
      · rename_i next hnext
        split
        · have hown : ∀ ws' ∈ (w.workspaceStore.removeTabFromWorkspace ws.id tabId).workspaces, ws'.id = ws.id → next ∈ ws'.tabs := by
            intro _ hmapped hid
            obtain ⟨ws', hws', rfl⟩ := List.mem_map.1 hmapped
            obtain ⟨hsibling, hne⟩ := nextTab_sibling (Option.mem_filter_iff.1 hnext).1
            rw [siblings_of_workspace hfind] at hsibling
            by_cases hid' : ws'.id = ws.id
            · rw [if_pos hid', h.eq_of_id hws' hws hid']
              exact List.mem_filter.2 ⟨hsibling, decide_eq_true hne⟩
            · rw [if_neg hid'] at hid
              exact absurd hid hid'
          refine ⟨htabs, hknown _ (hremoved.setWorkspaceActiveTab hown) ?_⟩
          intro _ hmapped
          obtain ⟨ws', hws', rfl⟩ := List.mem_map.1 hmapped
          have hstill := hout ws' hws'
          split <;> exact hstill
        · exact ⟨htabs, hknown _ hremoved hout⟩
      · exact ⟨htabs, hknown _ hremoved hout⟩

/-! ### Steps and runs -/

theorem Stores.Sound.step (h : w.Sound) {action : NavAction} (hfits : NavFits w action) : (action.step w).2.Sound := by
  obtain ⟨tabStore, workspaceStore⟩ := w
  cases action with
  | addTab tab afterTabId => exact h.grow (h.tabs.addTab tab afterTabId) fun _ hid => isSome_addTab hid
  | openSingletonTab newId newPaneId content afterTabId =>
    exact h.grow (h.tabs.openSingletonTab newId newPaneId content afterTabId) fun _ hid => isSome_openSingletonTab hid
  | closeTab id => exact h.closeTab hfits
  | setActiveTab id => exact h.grow (h.tabs.setActiveTab id) fun _ hid => by rw [tabs_setActiveTab]; exact hid
  | setTabLayout tabId layout => exact h.grow (h.tabs.setTabLayout tabId layout) fun _ hid => isSome_setTabLayout hid
  | closePane tabId paneId =>
    show (⟨tabStore.closePane tabId paneId, workspaceStore⟩ : Stores).Sound
    have hkept := h.tabs.closePane tabId paneId
    unfold TabState.closePane at hkept ⊢
    cases htab : tabStore.tabs.get? tabId with
    | none => exact h
    | some tab =>
      rw [htab] at hkept
      dsimp only at hkept ⊢
      cases hremoved : tab.layout.removePane paneId with
      | none =>
        refine h.closeTab (hfits fun tab' htab' => ?_)
        obtain rfl := Option.some.inj (htab.symm.trans htab')
        rw [hremoved]
        rfl
      | some newLayout =>
        rw [hremoved] at hkept
        exact h.grow hkept fun _ hid => isSome_set hid
  | detachPane newId newPaneId tabId paneId afterTabId =>
    exact h.grow (h.tabs.detachPane hfits newPaneId tabId paneId afterTabId) fun _ hid => isSome_detachPane hid
  | togglePin id => exact h.grow (h.tabs.togglePin id) fun _ hid => isSome_togglePin hid
  | toggleLock id => exact h.grow (h.tabs.toggleLock id) fun _ hid => isSome_toggleLock hid
  | addWorkspace newId name => exact ⟨h.tabs, h.workspaces.addWorkspace hfits name⟩
  | removeWorkspace wsId => exact ⟨h.tabs, h.workspaces.removeWorkspace wsId⟩
  | setActiveWorkspace wsId => exact ⟨h.tabs, h.workspaces.setActiveWorkspace wsId⟩
  | addTabToWorkspace wsId tabId => exact ⟨h.tabs, h.workspaces.addTabToWorkspace hfits⟩
  | removeTabFromWorkspace wsId tabId => exact ⟨h.tabs, h.workspaces.removeTabFromWorkspace wsId tabId⟩
  | reorderWorkspaceTabs wsId tabIds => exact ⟨h.tabs, h.workspaces.reorderWorkspaceTabs wsId tabIds⟩
  | reorderWorkspaces orderedIds => exact ⟨h.tabs, h.workspaces.reorderWorkspaces hfits⟩
  | insertTab tabId workspaceId afterTabId => exact ⟨h.tabs, h.workspaces.insertTab hfits afterTabId⟩
  | closeTabInWorkspace tabId => exact h.closeTabInWorkspace tabId
  | dragTab activeId overId => exact h.dragTab hfits
  | handleReorderStandaloneTabs newOrder => exact ⟨h.tabs.reorder (reorderStandaloneTabOrder_perm h.tabs.nodup), h.workspaces⟩
  | handleSelectTab tabId => exact h.handleSelectTab tabId

end Keeps

/-- The stores are consistent in every state of every run in which the tab bar shows all tabs where it orders all of
them, and no tab is closed in the tab store while a workspace has it. -/
theorem stores_consistent {w : Stores} {t : List NavStep} (h : NavRuns NavFits w t) : NavConsistent w := by
  have hsound : w.Sound := by
    induction h with
    | init hempty =>
      subst hempty
      refine ⟨.empty, ⟨List.nodup_nil, ?_, ?_, ?_⟩⟩
      · exact fun _ h => absurd h List.not_mem_nil
      · exact fun _ h => absurd h List.not_mem_nil
      · exact fun _ h => absurd h List.not_mem_nil
    | step _ hfits ih => exact ih.step hfits
  exact hsound.consistent

/-! ## Runs -/

def hostsTab (id : String) : Tab := createTab id (id ++ "-pane") .hosts

/-- Tabs in and out of a workspace, dragged in both bars, and closed. -/
def workspaceRun : List NavAction :=
  [.addTab (hostsTab "a") none, .addTab (hostsTab "b") (some "a"), .dragTab "a" "b", .openSingletonTab "c" "c-pane" .history none,
    .addWorkspace "w" "Work", .insertTab "c" (some (some "w")) none, .handleSelectTab "c", .insertTab "b" none (some none),
    .reorderWorkspaceTabs "w" ["b"], .setActiveWorkspace none, .handleReorderStandaloneTabs ["a"], .closeTabInWorkspace "c", .togglePin "a",
    .closeTab "a"]

theorem stores_consistent_workspaceRun : NavConsistent (serveAll NavAction.step workspaceRun emptyStores []).1 := by
  have hinit : NavRuns NavFits emptyStores [] := .init rfl
  have hfits : AllOk NavAction.step NavFits workspaceRun emptyStores := by decide
  exact stores_consistent (hinit.all hfits)

/-- A drag in Home mode, where the tab bar does not show the tab of the workspace. -/
def homeDragRun : List NavAction :=
  [.addTab (hostsTab "a") none, .addTab (hostsTab "b") none, .addTab (hostsTab "c") none, .addWorkspace "w" "Work",
    .insertTab "c" (some (some "w")) none, .setActiveWorkspace none, .dragTab "a" "b"]

theorem homeDragRun_loses_tab : ¬∀ w t, NavRuns (fun _ _ => True) w t → NavConsistent w := by
  intro h
  have hinit : NavRuns (fun _ _ => True) emptyStores [] := .init rfl
  have hperm := (h _ _ (hinit.all (allOk_true _ homeDragRun _))).order.2
  have hlost : (serveAll NavAction.step homeDragRun emptyStores []).1.tabStore.tabOrder = ["b", "a"] ∧
      (serveAll NavAction.step homeDragRun emptyStores []).1.tabStore.tabs.keys.length = 3 := by
    decide
  have hlength := hperm.length_eq
  rw [hlost.1, hlost.2] at hlength
  cases hlength

end Purdex.Nav
