/-
The tabs of a deletion that closes them: which come back where, and when the undo brings everything back.
-/
import Purdex.Lifecycle.Undo

namespace Purdex.Lifecycle

open Json Nav Panes
open Purdex.Hosts (HostId HostState HostConfig)

/-! ## Closing one tab -/

/-- The tabs of each workspace. -/
def members (s : WorkspaceState) : List (String × List String) := s.workspaces.map fun ws => (ws.id, ws.tabs)

section Closing

variable {w : Stores} {tabId wsId : String} {tab : Tab} {s : WorkspaceState}

theorem filter_ne_of_not_mem {l : List String} {id : String} (h : id ∉ l) : l.filter (· ≠ id) = l :=
  List.filter_eq_self.2 fun _ hid => decide_eq_true (ne_of_mem_of_not_mem hid h)

theorem tabOrder_setActiveTab (t : TabState) (id : Option String) : (t.setActiveTab id).tabOrder = t.tabOrder := by
  cases id with
  | none => rfl
  | some id =>
    unfold TabState.setActiveTab
    dsimp only
    split
    · rfl
    · split <;> rfl

theorem members_setWorkspaceActiveTab (s : WorkspaceState) : members (s.setWorkspaceActiveTab wsId tabId) = members s := by
  unfold members WorkspaceState.setWorkspaceActiveTab WorkspaceState.onWorkspace
  rw [List.map_map]
  refine List.map_congr_left fun ws _ => ?_
  rw [Function.comp_apply]
  split <;> rfl

theorem members_addTabToWorkspace (s : WorkspaceState) : members (s.addTabToWorkspace wsId tabId) =
    (members s).map fun p => if p.1 = wsId ∧ tabId ∉ p.2 then (p.1, p.2 ++ [tabId]) else p := by
  unfold members WorkspaceState.addTabToWorkspace WorkspaceState.onWorkspace Workspace.addTab
  rw [List.map_map, List.map_map]
  refine List.map_congr_left fun ws _ => ?_
  rw [Function.comp_apply, Function.comp_apply]
  by_cases hid : ws.id = wsId
  · by_cases hmem : tabId ∈ ws.tabs
    · simp [hid, hmem]
    · simp [hid, hmem]
  · simp [hid]

theorem closeTabInWorkspace_locked (htab : w.tabStore.tabs.get? tabId = some tab) (hlocked : tab.locked = true) : w.closeTabInWorkspace tabId = w := by
  unfold Stores.closeTabInWorkspace
  rw [htab]
  exact if_pos hlocked

/-- The tab goes out of the store, out of the order and out of its workspace. -/
theorem closeTabInWorkspace_spec (h : w.Sound) (htab : w.tabStore.tabs.get? tabId = some tab) (hlocked : tab.locked = false) :
    (∀ id, (w.closeTabInWorkspace tabId).tabStore.tabs.get? id = if id = tabId then none else w.tabStore.tabs.get? id) ∧
      (w.closeTabInWorkspace tabId).tabStore.tabOrder = w.tabStore.tabOrder.filter (· ≠ tabId) ∧
        members (w.closeTabInWorkspace tabId).workspaceStore = (members w.workspaceStore).map fun p => (p.1, p.2.filter (· ≠ tabId)) := by
  have hclosed : w.tabStore.closeTab tabId = {
      tabs := w.tabStore.tabs.restrict (· ≠ tabId)
      tabOrder := w.tabStore.tabOrder.filter (· ≠ tabId)
      activeTabId := if w.tabStore.activeTabId = some tabId then none else w.tabStore.activeTabId
      visitHistory := w.tabStore.visitHistory.filter (· ≠ tabId) } := by
    unfold TabState.closeTab
    rw [htab]
    exact if_neg (by rw [hlocked]; exact Bool.false_ne_true)
  obtain ⟨tabStore, htabStore⟩ : ∃ tabStore, tabStore = if w.tabStore.activeTabId = some tabId then
      (w.tabStore.closeTab tabId).setActiveTab (w.nextTab tabId) else w.tabStore.closeTab tabId := ⟨_, rfl⟩
  have htabs : tabStore.tabs = w.tabStore.tabs.restrict (· ≠ tabId) := by
    rw [htabStore]
    split
    · rw [tabs_setActiveTab, hclosed]
    · rw [hclosed]
  have horder : tabStore.tabOrder = w.tabStore.tabOrder.filter (· ≠ tabId) := by
    rw [htabStore]
    split
    · rw [tabOrder_setActiveTab, hclosed]
    · rw [hclosed]
  have hget : ∀ id, tabStore.tabs.get? id = if id = tabId then none else w.tabStore.tabs.get? id := by
    intro id
    rw [htabs, Record.get?_restrict]
    by_cases hid : id = tabId <;> simp [hid]
  obtain ⟨result, hresult⟩ : ∃ result, result = w.closeTabInWorkspace tabId := ⟨_, rfl⟩
  rw [← hresult]
  unfold Stores.closeTabInWorkspace at hresult
  rw [htab] at hresult
  dsimp only at hresult
  rw [if_neg (by rw [hlocked]; exact Bool.false_ne_true), ← htabStore] at hresult
  cases hfind : w.workspaceStore.findWorkspaceByTab tabId with
  | none =>
    rw [hfind] at hresult
    subst hresult
    refine ⟨hget, horder, ?_⟩
    unfold members
    rw [List.map_map]
    refine List.map_congr_left fun ws hws => ?_
    have hout : tabId ∉ ws.tabs := fun hmem => List.find?_eq_none.1 hfind ws hws (decide_eq_true hmem)
    rw [Function.comp_apply, filter_ne_of_not_mem hout]
  | some ws =>
    rw [hfind] at hresult
    obtain ⟨hws, hmem⟩ := findWorkspaceByTab_some hfind
    have hremoved : members (w.workspaceStore.removeTabFromWorkspace ws.id tabId) =
        (members w.workspaceStore).map fun p => (p.1, p.2.filter (· ≠ tabId)) := by
      unfold members WorkspaceState.removeTabFromWorkspace WorkspaceState.onWorkspace
      rw [List.map_map, List.map_map]
      refine List.map_congr_left fun ws' hws' => ?_
      rw [Function.comp_apply, Function.comp_apply]
      split
      · rfl
      · rename_i hother
        have hout : tabId ∉ ws'.tabs := fun hmem' => hother (h.workspaces.alone ws' hws' ws hws tabId hmem' hmem)
        rw [filter_ne_of_not_mem hout]
    dsimp only at hresult
    split at hresult
    · subst hresult
      refine ⟨hget, horder, ?_⟩
      dsimp only
      split
      · rw [members_setWorkspaceActiveTab, hremoved]
      · exact hremoved
    · subst hresult
      exact ⟨hget, horder, hremoved⟩

end Closing

/-! ## Closing those of a host -/

/-- The workspace that has the tab. -/
def owner (s : WorkspaceState) (tabId : String) : Option String := ((members s).find? (tabId ∈ ·.2)).map Prod.fst

/-- The tabs that are remembered, with their keys. -/
def hostTabs (hostId : HostId) (entries : List (String × Tab)) : List (String × Tab) := entries.filter fun e => hasHostPane hostId e.2

def ownedBy (s : WorkspaceState) (tabId : String) : List (String × String) := ((owner s tabId).map fun wsId => (tabId, wsId)).toList

/-- The tabs of `ids` are out of everything, and nothing else has changed. -/
structure Closed (w : Stores) (ids : List String) (w' : Stores) : Prop where
  sound : w'.Sound
  tabs : ∀ id, w'.tabStore.tabs.get? id = if id ∈ ids then none else w.tabStore.tabs.get? id
  order : w'.tabStore.tabOrder = w.tabStore.tabOrder.filter (· ∉ ids)
  members : members w'.workspaceStore = (members w.workspaceStore).map fun p => (p.1, p.2.filter (· ∉ ids))

section Cascade

variable {w w' : Stores} {s : WorkspaceState} {hostId : HostId} {entries : List (String × Tab)} {e : String × Tab} {ids : List String} {id : String}

theorem owner_eq : (s.findWorkspaceByTab id).map (·.id) = owner s id := by
  unfold owner members WorkspaceState.findWorkspaceByTab
  rw [List.find?_map, Option.map_map]
  rfl

theorem closable_concat : closable hostId (entries ++ [e]) =
    closable hostId entries ++ if hasHostPane hostId e.2 && !e.2.locked then [e.1] else [] := by
  unfold closable
  rw [List.filter_append, List.map_append, List.filter_singleton]
  cases hasHostPane hostId e.2 && !e.2.locked <;> rfl

theorem hostTabs_concat : hostTabs hostId (entries ++ [e]) = hostTabs hostId entries ++ if hasHostPane hostId e.2 then [e] else [] := by
  unfold hostTabs
  rw [List.filter_append, List.filter_singleton]
  cases hasHostPane hostId e.2 <;> rfl

theorem mem_closable : id ∈ closable hostId entries ↔ ∃ e ∈ entries, e.1 = id ∧ hasHostPane hostId e.2 = true ∧ e.2.locked = false := by
  unfold closable
  rw [List.mem_map]
  refine exists_congr fun e => ?_
  rw [List.mem_filter, Bool.and_eq_true, Bool.not_eq_true']
  exact and_assoc.trans (and_congr_right fun _ => and_comm)

theorem closable_subset (h : id ∈ closable hostId entries) : id ∈ entries.map Prod.fst := by
  obtain ⟨e, he, rfl, _⟩ := mem_closable.1 h
  exact List.mem_map_of_mem he

theorem Closed.refl (h : w.Sound) : Closed w [] w := by
  refine ⟨h, fun _ => rfl, (List.filter_eq_self.2 fun _ _ => rfl).symm, ?_⟩
  rw [List.map_congr_left fun p _ => congrArg (Prod.mk p.1) (List.filter_eq_self.2 fun _ _ => rfl), List.map_id']

/-- One tab more is closed. -/
theorem Closed.closeTab (h : Closed w ids w') {tab : Tab} (htab : w'.tabStore.tabs.get? id = some tab) (hlocked : tab.locked = false) :
    Closed w (ids ++ [id]) (w'.closeTabInWorkspace id) := by
  obtain ⟨htabs, horder, hmembers⟩ := closeTabInWorkspace_spec h.sound htab hlocked
  have hfilter : ∀ l : List String, (l.filter (· ∉ ids)).filter (· ≠ id) = l.filter (· ∉ ids ++ [id]) := by
    intro l
    rw [List.filter_filter]
    refine List.filter_congr fun id' _ => ?_
    simp [and_comm]
  refine ⟨h.sound.closeTabInWorkspace id, fun id' => ?_, ?_, ?_⟩
  · rw [htabs, h.tabs]
    by_cases hid : id' = id
    · simp [hid]
    · simp [hid]
  · rw [horder, h.order, hfilter]
  · rw [hmembers, h.members, List.map_map]
    exact List.map_congr_left fun p _ => congrArg (Prod.mk p.1) (hfilter p.2)

/-- A tab that has not been closed has its workspace of before. -/
theorem Closed.owner (h : Closed w ids w') (hid : id ∉ ids) : owner w'.workspaceStore id = owner w.workspaceStore id := by
  unfold Lifecycle.owner
  rw [h.members, List.find?_map, Option.map_map]
  refine congrArg (Option.map Prod.fst) (congrArg (List.find? · _) (funext fun p => ?_))
  simp [hid]

/-- All of the tabs with a pane of the host are remembered, and those that are not locked are closed. -/
theorem closeHostTabs_spec (h : w.Sound) (hentries : ∀ e ∈ entries, w.tabStore.tabs.get? e.1 = some e.2) (hnodup : (entries.map Prod.fst).Nodup) :
    Closed w (closable hostId entries) (closeHostTabs hostId entries w).nav ∧
      (closeHostTabs hostId entries w).closedTabs = (hostTabs hostId entries).map Prod.snd ∧
        (closeHostTabs hostId entries w).tabWorkspaces = (hostTabs hostId entries).flatMap fun e => ownedBy w.workspaceStore e.1 := by
  induction entries using List.reverseRecOn with
  | nil => exact ⟨.refl h, rfl, rfl⟩
  | append_singleton entries e ih =>
    rw [List.map_append, List.map_singleton, List.nodup_append] at hnodup
    obtain ⟨hnodup, -, hdisjoint⟩ := hnodup
    obtain ⟨hclosed, htabs, howned⟩ := ih (fun e' he' => hentries e' (List.mem_append_left _ he')) hnodup
    have hfresh : e.1 ∉ closable hostId entries := fun hmem => hdisjoint _ (closable_subset hmem) _ (List.mem_singleton_self _) rfl
    have hget : (closeHostTabs hostId entries w).nav.tabStore.tabs.get? e.1 = some e.2 := by
      rw [hclosed.tabs, if_neg hfresh]
      exact hentries e (List.mem_append_right _ (List.mem_singleton_self _))
    have hstep : closeHostTabs hostId (entries ++ [e]) w = if hasHostPane hostId e.2 then
        { nav := (closeHostTabs hostId entries w).nav.closeTabInWorkspace e.1
          closedTabs := (closeHostTabs hostId entries w).closedTabs ++ [e.2]
          tabWorkspaces := (closeHostTabs hostId entries w).tabWorkspaces ++ ownedBy w.workspaceStore e.1 }
        else closeHostTabs hostId entries w := by
      unfold ownedBy
      rw [← hclosed.owner hfresh, ← owner_eq, Option.map_map]
      exact List.foldl_concat ..
    rw [hstep, closable_concat, hostTabs_concat]
    cases hpane : hasHostPane hostId e.2 with
    | false =>
      simp only [Bool.false_and, Bool.false_eq_true, if_false, List.append_nil]
      exact ⟨hclosed, htabs, howned⟩
    | true =>
      simp only [if_true, Bool.true_and, List.map_append, List.map_singleton, List.flatMap_append, List.flatMap_singleton, htabs, howned, and_true]
      cases hlocked : e.2.locked with
      | true =>
        rw [closeTabInWorkspace_locked hget hlocked]
        simpa using hclosed
      | false => exact hclosed.closeTab hget hlocked

end Cascade

/-! ## Opening them again -/

section Reopening

variable {w : Stores} {t : TabState} {hostId : HostId} {entries : List (String × Tab)} {ids : List String}

theorem addTab_fresh {tab : Tab} (h : t.tabs.get? tab.id = none) :
    (t.addTab tab none).tabs = t.tabs.set tab.id tab ∧ (t.addTab tab none).tabOrder = t.tabOrder ++ [tab.id] := by
  unfold TabState.addTab
  rw [h]
  exact ⟨rfl, rfl⟩

/-- The closed tabs are there again, behind those that stayed. -/
theorem restoreTabs_spec {tabs : Tabs} (hids : ∀ id tab, tabs.get? id = some tab → tab.id = id)
    (hentries : ∀ e ∈ entries, tabs.get? e.1 = some e.2) (hnodup : (entries.map Prod.fst).Nodup)
    (hclosed : ∀ id, t.tabs.get? id = if id ∈ ids then none else tabs.get? id)
    (hclosable : ∀ e ∈ entries, hasHostPane hostId e.2 = true → (e.1 ∈ ids ↔ e.2.locked = false)) :
    (∀ id, (restoreTabs ((hostTabs hostId entries).map Prod.snd) t).tabs.get? id =
      if id ∈ ids ∧ id ∉ closable hostId entries then none else tabs.get? id) ∧
        (restoreTabs ((hostTabs hostId entries).map Prod.snd) t).tabOrder = t.tabOrder ++ closable hostId entries := by
  induction entries using List.reverseRecOn with
  | nil =>
    refine ⟨fun id => ?_, (List.append_nil _).symm⟩
    exact (hclosed id).trans (if_congr (and_iff_left List.not_mem_nil).symm rfl rfl)
  | append_singleton entries e ih =>
    rw [List.map_append, List.map_singleton, List.nodup_append] at hnodup
    obtain ⟨hnodup, -, hdisjoint⟩ := hnodup
    obtain ⟨htabs, horder⟩ := ih (fun e' he' => hentries e' (List.mem_append_left _ he')) hnodup fun e' he' => hclosable e' (List.mem_append_left _ he')
    have hlast : e ∈ entries ++ [e] := List.mem_append_right _ (List.mem_singleton_self _)
    have hfresh : e.1 ∉ closable hostId entries := fun hmem => hdisjoint _ (closable_subset hmem) _ (List.mem_singleton_self _) rfl
    have hid := hids e.1 e.2 (hentries e hlast)
    rw [hostTabs_concat, closable_concat]
    cases hpane : hasHostPane hostId e.2 with
    | false =>
      simp only [Bool.false_and, Bool.false_eq_true, if_false, List.append_nil]
      exact ⟨htabs, horder⟩
    | true =>
      obtain ⟨before, hbefore⟩ : ∃ before, before = restoreTabs ((hostTabs hostId entries).map Prod.snd) t := ⟨_, rfl⟩
      have hstep : restoreTabs ((hostTabs hostId entries ++ [e]).map Prod.snd) t =
          if (t.tabs.get? e.1).isNone then before.addTab e.2 none else before := by
        rw [List.map_append, List.map_singleton, hbefore, ← hid]
        exact List.foldl_concat ..
      rw [if_pos rfl, hstep]
      rw [← hbefore] at htabs horder
      have hwas := hclosable e hlast hpane
      cases hlocked : e.2.locked with
      | true =>
        -- A locked tab has stayed.
        have hstayed : e.1 ∉ ids := fun hmem => Bool.false_ne_true ((hwas.1 hmem).symm.trans hlocked)
        rw [hclosed, if_neg hstayed, hentries e hlast]
        simp only [Option.isNone_some, Bool.false_eq_true, if_false, Bool.not_true, Bool.and_false, List.append_nil]
        exact ⟨htabs, horder⟩
      | false =>
        have hmem : e.1 ∈ ids := hwas.2 hlocked
        have hgone : before.tabs.get? e.2.id = none := by
          rw [hid, htabs]
          exact if_pos ⟨hmem, hfresh⟩
        rw [hclosed, if_pos hmem]
        simp only [Option.isNone_none, if_true, Bool.not_false, Bool.and_true]
        obtain ⟨hset, happend⟩ := addTab_fresh hgone
        refine ⟨fun id => ?_, by rw [happend, horder, hid, List.append_assoc]⟩
        rw [hset, Record.get?_set, hid, htabs]
        by_cases heq : id = e.1
        · subst heq
          simp [hentries e hlast]
        · simp [heq]

/-- Where every tab is there and every workspace, all of them are put in. -/
theorem restoreMembership_eq {tabs : Tabs} {tabWorkspaces : List (String × String)} {s : WorkspaceState}
    (h : ∀ p ∈ tabWorkspaces, (∃ ws ∈ s.workspaces, ws.id = p.2) ∧ (tabs.get? p.1).isSome) :
    restoreMembership tabs tabWorkspaces s = tabWorkspaces.foldl (fun acc p => acc.addTabToWorkspace p.2 p.1) s := by
  unfold restoreMembership
  refine List.foldl_ext _ _ _ fun acc p hp => if_pos (h p hp)

/-- The workspaces of a tab are the one that it was found in. -/
theorem owner_iff (h : w.Sound) {id : String} {p : String × List String} (hp : p ∈ members w.workspaceStore) :
    owner w.workspaceStore id = some p.1 ↔ id ∈ p.2 := by
  obtain ⟨ws, hws, rfl⟩ := List.mem_map.1 hp
  rw [← owner_eq]
  constructor
  · intro howner
    obtain ⟨ws', hfind, hid⟩ := Option.map_eq_some_iff.1 howner
    obtain ⟨hws', hmem⟩ := findWorkspaceByTab_some hfind
    rw [← h.eq_of_id hws' hws hid]
    exact hmem
  · intro hmem
    cases hfind : w.workspaceStore.findWorkspaceByTab id with
    | none => exact absurd (decide_eq_true hmem) (List.find?_eq_none.1 hfind ws hws)
    | some ws' =>
      obtain ⟨hws', hmem'⟩ := findWorkspaceByTab_some hfind
      exact congrArg some (h.workspaces.alone ws' hws' ws hws id hmem' hmem)

/-- The closed tabs are in their workspaces again, behind those that stayed. -/
theorem restoreMembership_spec (h : w.Sound) {s : WorkspaceState} (hnodup : (entries.map Prod.fst).Nodup)
    (hclosed : members s = (members w.workspaceStore).map fun p => (p.1, p.2.filter (· ∉ ids)))
    (hclosable : ∀ e ∈ entries, hasHostPane hostId e.2 = true → (e.1 ∈ ids ↔ e.2.locked = false)) :
    members (((hostTabs hostId entries).flatMap fun e => ownedBy w.workspaceStore e.1).foldl (fun acc p => acc.addTabToWorkspace p.2 p.1) s) =
      (members w.workspaceStore).map fun p => (p.1, p.2.filter (· ∉ ids) ++ (closable hostId entries).filter (· ∈ p.2)) := by
  induction entries using List.reverseRecOn with
  | nil => exact hclosed.trans (List.map_congr_left fun p _ => congrArg (Prod.mk p.1) (List.append_nil _).symm)
  | append_singleton entries e ih =>
    rw [List.map_append, List.map_singleton, List.nodup_append] at hnodup
    obtain ⟨hnodup, -, hdisjoint⟩ := hnodup
    replace ih := ih hnodup fun e' he' => hclosable e' (List.mem_append_left _ he')
    have hlast : e ∈ entries ++ [e] := List.mem_append_right _ (List.mem_singleton_self _)
    have hfresh : e.1 ∉ closable hostId entries := fun hmem => hdisjoint _ (closable_subset hmem) _ (List.mem_singleton_self _) rfl
    rw [hostTabs_concat, closable_concat]
    cases hpane : hasHostPane hostId e.2 with
    | false =>
      simp only [Bool.false_and, Bool.false_eq_true, if_false, List.append_nil]
      exact ih
    | true =>
      have hwas := hclosable e hlast hpane
      rw [if_pos rfl, List.flatMap_append, List.flatMap_singleton, List.foldl_append, Bool.true_and]
      cases howner : owner w.workspaceStore e.1 with
      | none =>
        rw [ownedBy, howner]
        refine ih.trans (List.map_congr_left fun p hp => congrArg (Prod.mk p.1) ?_)
        have hout : e.1 ∉ p.2 := fun hmem => by rw [(owner_iff h hp).2 hmem] at howner; cases howner
        cases e.2.locked <;> simp [hout]
      | some wsId =>
        rw [ownedBy, howner]
        refine (members_addTabToWorkspace _).trans ?_
        rw [ih, List.map_map]
        refine List.map_congr_left fun p hp => ?_
        have hin : p.1 = wsId ↔ e.1 ∈ p.2 := by
          rw [← owner_iff h hp, howner, Option.some.injEq, eq_comm]
        rw [Function.comp_apply]
        by_cases hmem : e.1 ∈ p.2
        · cases hlocked : e.2.locked with
          | true =>
            have hstayed : e.1 ∉ ids := fun hmem => Bool.false_ne_true ((hwas.1 hmem).symm.trans hlocked)
            simp [hmem, hstayed]
          | false => simp [hin.2 hmem, hmem, hwas.2 hlocked, hfresh]
        · cases e.2.locked <;> simp [hin, hmem]

theorem mem_closable_iff (hnodup : (entries.map Prod.fst).Nodup) {e : String × Tab} (he : e ∈ entries) (hpane : hasHostPane hostId e.2 = true) :
    e.1 ∈ closable hostId entries ↔ e.2.locked = false := by
  refine mem_closable.trans ⟨?_, fun hlocked => ⟨e, he, rfl, hpane, hlocked⟩⟩
  rintro ⟨e', he', heq, -, hlocked⟩
  rwa [List.inj_on_of_nodup_map hnodup he' he heq] at hlocked

theorem closable_nil (h : hostTabs hostId entries = []) : closable hostId entries = [] := by
  rw [List.eq_nil_iff_forall_not_mem]
  intro id hid
  obtain ⟨e, he, -, hpane, -⟩ := mem_closable.1 hid
  have hmem : e ∈ hostTabs hostId entries := List.mem_filter.2 ⟨he, hpane⟩
  rw [h] at hmem
  exact List.not_mem_nil hmem

/-- What a deletion has closed is open again, at the end of the order and of each workspace. -/
theorem restoreNav_closed (h : w.Sound) {x : Snapshot} (hclose : x.closeTabs = true)
    (htabs : x.closedTabs = (closeHostTabs hostId w.tabStore.tabs.entries w).closedTabs)
    (howned : x.tabWorkspaces = (closeHostTabs hostId w.tabStore.tabs.entries w).tabWorkspaces) :
    (∀ id, (x.restoreNav (closeHostTabs hostId w.tabStore.tabs.entries w).nav).tabStore.tabs.get? id = w.tabStore.tabs.get? id) ∧
      (x.restoreNav (closeHostTabs hostId w.tabStore.tabs.entries w).nav).tabStore.tabOrder =
        w.tabStore.tabOrder.filter (· ∉ closable hostId w.tabStore.tabs.entries) ++ closable hostId w.tabStore.tabs.entries ∧
      members (x.restoreNav (closeHostTabs hostId w.tabStore.tabs.entries w).nav).workspaceStore = (members w.workspaceStore).map fun p =>
        (p.1, p.2.filter (· ∉ closable hostId w.tabStore.tabs.entries) ++ (closable hostId w.tabStore.tabs.entries).filter (· ∈ p.2)) := by
  have hnodup : (w.tabStore.tabs.entries.map Prod.fst).Nodup := w.tabStore.tabs.nodup
  have hentries : ∀ e ∈ w.tabStore.tabs.entries, w.tabStore.tabs.get? e.1 = some e.2 := fun e he => (lookup_eq_some hnodup).2 he
  obtain ⟨hclosed, hclosedTabs, htabWorkspaces⟩ := @closeHostTabs_spec w hostId _ h hentries hnodup
  obtain ⟨nav, hnav⟩ : ∃ nav, nav = (closeHostTabs hostId w.tabStore.tabs.entries w).nav := ⟨_, rfl⟩
  rw [← hnav] at hclosed ⊢
  rw [hclosedTabs] at htabs
  rw [htabWorkspaces] at howned
  unfold Snapshot.restoreNav
  rw [if_pos hclose, htabs, howned]
  split
  · rename_i hnone
    have hnil := closable_nil (List.map_eq_nil_iff.1 hnone)
    rw [hnil] at hclosed ⊢
    refine ⟨fun id => (hclosed.tabs id).trans (if_neg List.not_mem_nil), hclosed.order.trans (List.append_nil _).symm, ?_⟩
    exact hclosed.members.trans (List.map_congr_left fun p _ => congrArg (Prod.mk p.1) (List.append_nil _).symm)
  · obtain ⟨hget, horder⟩ := restoreTabs_spec h.tabs.ids hentries hnodup hclosed.tabs fun e he hpane => mem_closable_iff hnodup he hpane
    obtain ⟨tabStore, htabStore⟩ : ∃ tabStore, tabStore = restoreTabs ((hostTabs hostId w.tabStore.tabs.entries).map Prod.snd) nav.tabStore :=
      ⟨_, rfl⟩
    rw [← htabStore] at hget horder ⊢
    have hback : ∀ id, tabStore.tabs.get? id = w.tabStore.tabs.get? id := fun id => (hget id).trans (if_neg fun hid => hid.2 hid.1)
    refine ⟨hback, horder.trans (congrArg (· ++ _) hclosed.order), ?_⟩
    have hthere : ∀ p ∈ (hostTabs hostId w.tabStore.tabs.entries).flatMap fun e => ownedBy w.workspaceStore e.1,
        (∃ ws ∈ nav.workspaceStore.workspaces, ws.id = p.2) ∧ (tabStore.tabs.get? p.1).isSome := by
      intro p hp
      obtain ⟨e, he, hp⟩ := List.mem_flatMap.1 hp
      obtain ⟨wsId, howner, rfl⟩ := Option.map_eq_some_iff.1 (Option.mem_toList.1 hp)
      obtain ⟨q, hfind, rfl⟩ := Option.map_eq_some_iff.1 howner
      have hq : (q.1, q.2.filter (· ∉ closable hostId w.tabStore.tabs.entries)) ∈ members nav.workspaceStore := by
        rw [hclosed.members]
        exact List.mem_map_of_mem (List.mem_of_find?_eq_some hfind)
      obtain ⟨ws, hws, heq⟩ := List.mem_map.1 hq
      refine ⟨⟨ws, hws, congrArg Prod.fst heq⟩, ?_⟩
      rw [hback, hentries e (List.mem_of_mem_filter he)]
      rfl
    dsimp only
    rw [restoreMembership_eq hthere]
    exact restoreMembership_spec h hnodup hclosed.members fun e he hpane => mem_closable_iff hnodup he hpane

end Reopening

/-- What was taken out of a list and put at its end was at its end. -/
theorem filter_append_eq_iff {l ids : List String} (h : l.Nodup) :
    l.filter (· ∉ ids) ++ ids.filter (· ∈ l) = l ↔ ids.filter (· ∈ l) <:+ l := by
  refine ⟨fun heq => ⟨_, heq⟩, ?_⟩
  rintro ⟨front, hfront⟩
  have hdisjoint : ∀ id ∈ front, id ∉ ids.filter (· ∈ l) := by
    rw [← hfront, List.nodup_append] at h
    exact fun id hid hmem => h.2.2 id hid id hmem rfl
  have hstay : front.filter (· ∉ ids) = front := by
    refine List.filter_eq_self.2 fun id hid => decide_eq_true fun hmem => hdisjoint id hid ?_
    exact List.mem_filter.2 ⟨hmem, decide_eq_true (hfront ▸ List.mem_append_left _ hid)⟩
  have hgone : (ids.filter (· ∈ l)).filter (· ∉ ids) = [] := by
    refine List.filter_eq_nil_iff.2 fun id hid => ?_
    simp [(List.mem_filter.1 hid).1]
  have hrest : l.filter (· ∉ ids) = front := by
    calc l.filter (· ∉ ids) = (front ++ ids.filter (· ∈ l)).filter (· ∉ ids) := by rw [hfront]
      _ = front := by rw [List.filter_append, hstay, hgone, List.append_nil]
  rw [hrest, hfront]

/-! ## The round trip -/

section RoundTrip

variable {w : AppStores} {hostId : HostId} {closeTabs : Bool} {x : Snapshot}

theorem renumbered_iff {s : HostState} {order : List HostId} (horder : s.hostOrder = some order) {hosts : HostId → Option HostConfig}
    (hhosts : ∀ id, hosts id = (s.hosts.lookup id).map fun host => { host with order := order.idxOf id }) :
    (∀ id, hosts id = s.hosts.lookup id) ↔
      ∀ order, s.hostOrder = some order → ∀ id host, s.hosts.lookup id = some host → host.order = order.idxOf id := by
  constructor
  · intro hsame order' horder' id host hhost
    obtain rfl := Option.some.inj (horder.symm.trans horder')
    have heq : some { host with order := order.idxOf id } = some host := by
      rw [← hhost, ← hsame, hhosts, hhost, Option.map_some]
    exact (congrArg HostConfig.order (Option.some.inj heq)).symm
  · intro hnumbered id
    rw [hhosts]
    cases hhost : s.hosts.lookup id with
    | none => rfl
    | some host =>
      rw [Option.map_some, ← hnumbered order horder id host hhost]

/-- The tabs are as before where those that were closed are the last ones. -/
theorem restoreNav_same_iff (h : Consistent w) (hclose : x.closeTabs = closeTabs)
    (htabs : closeTabs = true → x.closedTabs = (closeHostTabs hostId w.nav.tabStore.tabs.entries w.nav).closedTabs)
    (howned : closeTabs = true → x.tabWorkspaces = (closeHostTabs hostId w.nav.tabStore.tabs.entries w.nav).tabWorkspaces)
    (hmarked : closeTabs = false → x.terminatedTabPaneIds = livePanes hostId w.nav.tabStore.tabs.entries) {nav : Stores}
    (hnav : nav = (if closeTabs then closeHostTabs hostId w.nav.tabStore.tabs.entries w.nav
      else ⟨{ w.nav with tabStore := markHostTerminated w.nav.tabStore hostId .hostRemoved }, [], []⟩).nav) :
    (∀ id, (x.restoreNav nav).tabStore.tabs.get? id = w.nav.tabStore.tabs.get? id) ∧
      ((x.restoreNav nav).tabStore.tabOrder = w.nav.tabStore.tabOrder ↔
        (closeTabs = true → closable hostId w.nav.tabStore.tabs.entries <:+ w.nav.tabStore.tabOrder)) ∧
      (members (x.restoreNav nav).workspaceStore = members w.nav.workspaceStore ↔ (closeTabs = true → ∀ ws ∈ w.nav.workspaceStore.workspaces,
        (closable hostId w.nav.tabStore.tabs.entries).filter (· ∈ ws.tabs) <:+ ws.tabs)) := by
  cases closeTabs with
  | false =>
    subst hnav
    have hpanes := @unmarked hostId w.nav.tabStore h.panes
    unfold Snapshot.restoreNav
    rw [if_neg (by rw [hclose]; exact Bool.false_ne_true), hmarked rfl]
    exact ⟨fun id => (hpanes id).1, iff_of_true (hpanes "").2 nofun, iff_of_true rfl nofun⟩
  | true =>
    subst hnav
    rw [if_pos rfl]
    obtain ⟨hget, horder, hmembers⟩ := restoreNav_closed h.nav hclose (htabs rfl) (howned rfl)
    have hknown : (closable hostId w.nav.tabStore.tabs.entries).filter (· ∈ w.nav.tabStore.tabOrder) = closable hostId w.nav.tabStore.tabs.entries := by
      refine List.filter_eq_self.2 fun id hid => decide_eq_true ((h.nav.tabs.order id).2 ?_)
      exact Record.mem_keys.1 (closable_subset hid)
    refine ⟨hget, ?_, ?_⟩
    · have hlast := @filter_append_eq_iff _ (closable hostId w.nav.tabStore.tabs.entries) h.nav.tabs.nodup
      rw [hknown] at hlast
      rw [horder, forall_prop_of_true rfl]
      exact hlast
    · rw [hmembers, forall_prop_of_true rfl]
      unfold members
      rw [List.map_map, List.map_inj_left]
      refine forall₂_congr fun ws hws => ?_
      rw [← filter_append_eq_iff (h.workspaceTabs ws hws)]
      exact ⟨congrArg Prod.snd, congrArg (Prod.mk ws.id)⟩

theorem restoreAgent_rest {s : AgentState} : ∃ lastEvents statuses unread models, x.restoreAgent s = { s with lastEvents, statuses, unread, models } := by
  unfold Snapshot.restoreAgent
  split
  · exact ⟨_, _, _, _, rfl⟩
  · exact ⟨_, _, _, _, rfl⟩

theorem restoreStream_rest {s : StreamStore} : ∃ sessions, x.restoreStream s = { s with sessions } := by
  unfold Snapshot.restoreStream
  split
  · exact ⟨_, rfl⟩
  · exact ⟨_, rfl⟩

/-- What of the other hosts is not brought back was not taken either. -/
theorem untouched_iff {w' : AppStores} (hagent' : w'.agentStore = x.restoreAgent (w.agentStore.removeHost hostId))
    (hstream' : w'.streamStore = x.restoreStream (w.streamStore.clearHost hostId)) :
    Untouched hostId w w' ↔ ∀ k, OfAnother hostId w k → byHost hostId k = true →
      w.agentStore.agentTypes.get? k = none ∧ w.agentStore.subagents.get? k = none ∧ w.agentStore.oscTitles.get? k = none ∧
        w.agentStore.ccStatus.get? k = none ∧ w.streamStore.relayStatus.get? k = none ∧ w.streamStore.handoffProgress.get? k = none := by
  obtain ⟨_, _, _, _, hagent⟩ := @restoreAgent_rest x (w.agentStore.removeHost hostId)
  obtain ⟨_, hstream⟩ := @restoreStream_rest x (w.streamStore.clearHost hostId)
  rw [← hagent'] at hagent
  rw [← hstream'] at hstream
  constructor
  · rintro ⟨h₁, h₂, h₃, h₄, h₅, h₆⟩ k hother hk
    rw [hagent] at h₁ h₂ h₃ h₄
    rw [hstream] at h₅ h₆
    exact ⟨omitHost_same_at.1 (h₁ k hother) hk, omitHost_same_at.1 (h₂ k hother) hk, omitHost_same_at.1 (h₃ k hother) hk,
      omitHost_same_at.1 (h₄ k hother) hk, omitHost_same_at.1 (h₅ k hother) hk, omitHost_same_at.1 (h₆ k hother) hk⟩
  · intro h
    constructor
    all_goals
      intro k hother
      first | rw [hagent] | rw [hstream]
      refine omitHost_same_at.2 fun hk => ?_
      obtain ⟨h₁, h₂, h₃, h₄, h₅, h₆⟩ := h k hother hk
      assumption

theorem sessions_restored {s : SessionState} (id : String) : (match s.sessions.get? hostId with
    | none => s.removeHost hostId
    | some sessions => (s.removeHost hostId).replaceHost hostId sessions).sessions.get? id = s.sessions.get? id := by
  refine Eq.trans ?_ (get?_clear_set s.sessions hostId id)
  cases s.sessions.get? hostId <;> rfl

theorem settings_restored {s : HostSettings} (id : String) : Record.get? (match s.get? hostId with
    | none => s.clearHost hostId
    | some settings => Record.set (s.clearHost hostId) hostId settings) id = s.get? id := by
  refine Eq.trans ?_ (get?_clear_set s hostId id)
  cases s.get? hostId <;> rfl

/-- What the closure of a deletion remembers besides the host. -/
structure Remembers (hostId : HostId) (closeTabs : Bool) (w : AppStores) (x : Snapshot) : Prop where
  sessions : x.sessions = w.sessionStore.sessions.get? hostId
  settings : x.hostSettings = w.hostSettings.get? hostId
  events : x.agentEvents = keepHost hostId w.agentStore.lastEvents
  statuses : x.agentStatuses = keepHost hostId w.agentStore.statuses
  unread : x.agentUnread = keepHost hostId w.agentStore.unread
  models : x.agentModels = keepHost hostId w.agentStore.models
  streams : x.streamSessions = (keepHost hostId w.streamStore.sessions).mapValues PerSessionState.withoutConn
  kind : x.closeTabs = closeTabs
  closed : closeTabs = true → x.closedTabs = (closeHostTabs hostId w.nav.tabStore.tabs.entries w.nav).closedTabs
  owned : closeTabs = true → x.tabWorkspaces = (closeHostTabs hostId w.nav.tabStore.tabs.entries w.nav).tabWorkspaces
  marked : closeTabs = false → x.terminatedTabPaneIds = livePanes hostId w.nav.tabStore.tabs.entries

theorem deleteHostCascade_spec {hostStore : HostState} {hosts : Hosts.Snapshot}
    (hdelete : Hosts.deleteHostCascade hostId w.hostStore = (hostStore, some hosts)) :
    ∃ nav x, deleteHostCascade hostId closeTabs w = (⟨hostStore, w.sessionStore.removeHost hostId, w.hostSettings.clearHost hostId,
        w.agentStore.removeHost hostId, w.streamStore.clearHost hostId, nav⟩, some x) ∧
      nav = (if closeTabs then closeHostTabs hostId w.nav.tabStore.tabs.entries w.nav
        else ⟨{ w.nav with tabStore := markHostTerminated w.nav.tabStore hostId .hostRemoved }, [], []⟩).nav ∧
      x.hosts = hosts ∧ Remembers hostId closeTabs w x := by
  unfold deleteHostCascade
  rw [hdelete]
  refine ⟨_, _, rfl, rfl, rfl, rfl, rfl, rfl, rfl, rfl, rfl, rfl, rfl, ?_, ?_, ?_⟩
  all_goals
    rintro rfl
    rfl

/-- A deletion that is refused changes nothing, and the undo of any other one brings everything back exactly where it can. -/
theorem undo_restores_iff (hostId : HostId) (closeTabs : Bool) (w : AppStores) (h : Consistent w) :
    (hostId ∉ w.hostStore.hosts ∨ w.hostStore.hosts.keys.length ≤ 1 → deleteHostCascade hostId closeTabs w = (w, none)) ∧
      (hostId ∈ w.hostStore.hosts → 1 < w.hostStore.hosts.keys.length → ∃ w' x, deleteHostCascade hostId closeTabs w = (w', some x) ∧
        (SameState w (x.undo w') ∧ Untouched hostId w (x.undo w') ↔ Restorable hostId closeTabs w)) := by
  constructor
  · intro hrefused
    have hnone := @hosts_refused w.hostStore hostId (hrefused.imp_left AList.lookup_eq_none.2)
    unfold deleteHostCascade
    split
    · rfl
    · rename_i hsome
      rw [hsome] at hnone
      cases hnone
  · intro hin hmany
    obtain ⟨host, hhost⟩ := Option.isSome_iff_exists.1 (AList.lookup_isSome.2 hin)
    obtain ⟨order, horder, -⟩ := h.hosts.order
    obtain ⟨hostStore, hosts, hostStore', hdelete, hid, hgone, hundo, hhosts, horder', hactive⟩ := hosts_undone h.hosts h.hostIds hhost hmany horder
    obtain ⟨nav, x, hdeleted, hnav, hx, hr⟩ := @deleteHostCascade_spec w hostId closeTabs _ _ hdelete
    refine ⟨_, x, hdeleted, ?_⟩
    unfold Snapshot.undo
    dsimp only
    rw [hx, hid, if_neg hgone, hundo, hr.sessions, hr.settings]
    dsimp only
    obtain ⟨htabs, htabOrder, hmembership⟩ := restoreNav_same_iff h hr.kind hr.closed hr.owned hr.marked hnav
    have hnumbered := renumbered_iff horder hhosts
    have hagent := restoreAgent_iff hr.events hr.statuses hr.unread hr.models
    constructor
    · rintro ⟨hsame, huntouched⟩
      exact {
        numbered := hnumbered.1 hsame.hosts
        agent := hagent.1 ⟨hsame.events, hsame.statuses, hsame.unread, hsame.models⟩
        last := htabOrder.1 hsame.tabOrder
        lastIn := hmembership.1 hsame.membership
        apart := (untouched_iff rfl rfl).1 huntouched }
    · intro hrestorable
      obtain ⟨hevents, hstatuses, hunread, hmodels⟩ := hagent.2 hrestorable.agent
      refine ⟨?_, (untouched_iff rfl rfl).2 hrestorable.apart⟩
      exact {
        hosts := hnumbered.2 hrestorable.numbered
        hostOrder := horder'.trans horder.symm
        activeHost := hactive
        sessions := sessions_restored
        settings := settings_restored
        events := hevents
        statuses := hstatuses
        unread := hunread
        models := hmodels
        streams := restoreStream_same hr.streams
        tabs := htabs
        tabOrder := htabOrder.2 hrestorable.last
        membership := hmembership.2 hrestorable.lastIn }

end RoundTrip

/-! ## A tab of the host and one beside it -/

def studioShell : Tab := createTab "shell" "shell-pane" (.tmuxSession ⟨"studio", "abc123", .terminal, "dev", "tmux-1", none, none⟩)

def desk (order : List String) : AppStores where
  hostStore := ⟨(AList.singleton "mini" ⟨"mini", "Mini", "10.0.0.1", 7860, none, 1⟩).insert "studio" ⟨"studio", "Studio", "10.0.0.2", 7860, none, 0⟩,
    some ["studio", "mini"], some "studio"⟩
  sessionStore := ⟨.empty, some "studio", none⟩
  hostSettings := .empty
  agentStore := ⟨.empty, .empty, .empty, .empty, .empty, .empty, .empty, .empty⟩
  streamStore := ⟨.empty, .empty, .empty⟩
  nav := ⟨⟨⟨[("notes", createTab "notes" "notes-pane" .dashboard), ("shell", studioShell)], by decide⟩, order, none, []⟩,
    ⟨[⟨"home", "Home", order, none⟩], some "home"⟩⟩

theorem desk_host {order : List String} {id : HostId} {host : HostConfig} (h : (desk order).hostStore.hosts.lookup id = some host) :
    host.id = id ∧ host.order = ["studio", "mini"].idxOf id := by
  have hin : (⟨id, host⟩ : Sigma fun _ => HostConfig) ∈
      [⟨"studio", ⟨"studio", "Studio", "10.0.0.2", 7860, none, 0⟩⟩, ⟨"mini", ⟨"mini", "Mini", "10.0.0.1", 7860, none, 1⟩⟩] :=
    AList.mem_lookup_iff.1 h
  rcases List.mem_pair.1 hin with heq | heq <;> cases heq <;> exact ⟨rfl, rfl⟩

theorem desk_consistent {order : List String} (h : order.Perm ["notes", "shell"]) : Consistent (desk order) := by
  have hnodup : order.Nodup := h.nodup_iff.2 (by decide)
  have hmem : ∀ id, id ∈ order ↔ ((desk order).nav.tabStore.tabs.get? id).isSome := by
    intro id
    rw [h.mem_iff, ← Record.mem_keys]
    rfl
  have htabs : ∀ id tab, (desk order).nav.tabStore.tabs.get? id = some tab →
      (id, tab) ∈ [("notes", createTab "notes" "notes-pane" .dashboard), ("shell", studioShell)] := fun id tab htab => mem_of_lookup htab
  refine ⟨Hosts.HostState.consistent_of_perm rfl (List.Perm.refl _) (List.cons_ne_nil _ _) ?_, ?_, ⟨⟨hnodup, hmem, ?_, nofun, .nil, nofun, nofun⟩, ?_⟩, ?_, ?_⟩
  · rintro _ ⟨⟩
    exact AList.lookup_isSome.1 rfl
  · exact fun id host hhost => (desk_host hhost).1
  · intro id tab htab
    rcases List.mem_pair.1 (htabs id tab htab) with heq | heq <;> cases heq <;> rfl
  · refine ⟨List.nodup_singleton _, fun ws hws id hid => ?_, fun ws hws ws' hws' _ _ _ => ?_, fun ws hws => ?_⟩
    · rw [List.mem_singleton.1 hws] at hid
      exact (hmem id).1 hid
    · rw [List.mem_singleton.1 hws, List.mem_singleton.1 hws']
    · rw [List.mem_singleton.1 hws]
      exact nofun
  · intro id tab htab
    rcases List.mem_pair.1 (htabs id tab htab) with heq | heq <;> cases heq <;> exact List.nodup_singleton _
  · intro ws hws
    rw [List.mem_singleton.1 hws]
    exact hnodup

theorem desk_restorable : Restorable "studio" true (desk ["notes", "shell"]) := by
  refine ⟨?_, fun _ k _ => ⟨rfl, rfl, rfl⟩, fun _ => ?_, fun _ ws hws => ?_, fun k _ _ => ⟨rfl, rfl, rfl, rfl, rfl, rfl⟩⟩
  · rintro _ ⟨⟩ id host hhost
    exact (desk_host hhost).2
  · decide
  · rw [List.mem_singleton.1 hws]
    decide

theorem undo_restores_iff_desk : ∃ w' x, deleteHostCascade "studio" true (desk ["notes", "shell"]) = (w', some x) ∧
    SameState (desk ["notes", "shell"]) (x.undo w') ∧ Untouched "studio" (desk ["notes", "shell"]) (x.undo w') := by
  have hconsistent := desk_consistent (List.Perm.refl ["notes", "shell"])
  obtain ⟨w', x, hdelete, hiff⟩ := (undo_restores_iff "studio" true _ hconsistent).2 (AList.lookup_isSome.1 rfl) (by decide)
  exact ⟨w', x, hdelete, hiff.2 desk_restorable⟩

/-- The shell stood before the notes, and stands behind them after the undo. -/
theorem undo_moves_tab : ¬∀ (hostId : HostId) (closeTabs : Bool) (w : AppStores), Consistent w → hostId ∈ w.hostStore.hosts →
    1 < w.hostStore.hosts.keys.length → ∃ w' x, deleteHostCascade hostId closeTabs w = (w', some x) ∧
      SameState w (x.undo w') ∧ Untouched hostId w (x.undo w') := by
  intro h
  obtain ⟨w', x, hdelete, hsame, -⟩ := h "studio" true (desk ["shell", "notes"]) (desk_consistent (List.Perm.swap ..)) (AList.lookup_isSome.1 rfl)
    (by decide)
  have hmoved : (deleteHostCascade "studio" true (desk ["shell", "notes"])).2.map (fun x =>
      (x.undo (deleteHostCascade "studio" true (desk ["shell", "notes"])).1).nav.tabStore.tabOrder) = some ["notes", "shell"] := by
    decide
  rw [hdelete] at hmoved
  have horder := hsame.tabOrder.symm.trans (Option.some.inj hmoved)
  exact absurd horder (by decide)


end Purdex.Lifecycle
