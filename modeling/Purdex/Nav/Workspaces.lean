/-
The workspace store: which tabs are in which workspace, and which tab of it was the last active one.
-/
import Purdex.Nav.Tabs

namespace Purdex.Nav

open Reorder

structure Workspace where
  id : String
  name : String
  tabs : List String
  activeTabId : Option String
  deriving Repr, DecidableEq

structure WorkspaceState where
  workspaces : List Workspace
  activeWorkspaceId : Option String
  deriving Repr, DecidableEq

def createWorkspace (id name : String) : Workspace := ⟨id, name, [], none⟩

/-- The tab is in no workspace. -/
def isStandaloneTab (tabId : String) (workspaces : List Workspace) : Prop := ∀ ws ∈ workspaces, tabId ∉ ws.tabs

instance (tabId : String) (workspaces : List Workspace) : Decidable (isStandaloneTab tabId workspaces) :=
  inferInstanceAs (Decidable (∀ ws ∈ workspaces, _))

namespace Workspace

variable (ws : Workspace)

def addTab (tabId : String) : Workspace := if tabId ∈ ws.tabs then ws else { ws with tabs := ws.tabs ++ [tabId] }

def removeTab (tabId : String) : Workspace :=
  { ws with tabs := ws.tabs.filter (· ≠ tabId), activeTabId := if ws.activeTabId = some tabId then none else ws.activeTabId }

/-- The tabs in the order of `tabIds`, as far as it knows them. -/
def reorderTabs (tabIds : List String) : Workspace :=
  let filtered := knownOnce ws.tabs tabIds
  if filtered.length < ws.tabs.length then { ws with tabs := filtered ++ ws.tabs.filter (· ∉ filtered) } else { ws with tabs := filtered }

/-- The tab comes first where it follows `null`, and last where it follows nothing. -/
def insertTab (tabId : String) (afterTabId : Option (Option String)) : Workspace :=
  if tabId ∈ ws.tabs then { ws with activeTabId := some tabId }
  else
    let newTabs := match afterTabId with
      | some none => tabId :: ws.tabs
      | some (some after) =>
        match ws.tabs.idxOf? after with
        | some idx => spliceAt ws.tabs (idx + 1) [tabId]
        | none => ws.tabs ++ [tabId]
      | none => ws.tabs ++ [tabId]
    { ws with tabs := newTabs, activeTabId := some tabId }

end Workspace

namespace WorkspaceState

variable (s : WorkspaceState)

/-- The workspaces with `update` applied to those of the id. -/
def onWorkspace (wsId : String) (update : Workspace → Workspace) : WorkspaceState :=
  { s with workspaces := s.workspaces.map fun ws => if ws.id = wsId then update ws else ws }

def addWorkspace (newId name : String) : WorkspaceState where
  workspaces := s.workspaces ++ [createWorkspace newId name]
  activeWorkspaceId := s.activeWorkspaceId.or (some newId)

def removeWorkspace (wsId : String) : WorkspaceState :=
  if ∃ ws ∈ s.workspaces, ws.id = wsId then
    let remaining := s.workspaces.filter (·.id ≠ wsId)
    ⟨remaining, if s.activeWorkspaceId = some wsId then remaining.head?.map (·.id) else s.activeWorkspaceId⟩
  else s

def setActiveWorkspace (wsId : Option String) : WorkspaceState := { s with activeWorkspaceId := wsId }

def addTabToWorkspace (wsId tabId : String) : WorkspaceState := s.onWorkspace wsId (·.addTab tabId)

def removeTabFromWorkspace (wsId tabId : String) : WorkspaceState := s.onWorkspace wsId (·.removeTab tabId)

def setWorkspaceActiveTab (wsId tabId : String) : WorkspaceState := s.onWorkspace wsId fun ws => { ws with activeTabId := some tabId }

def reorderWorkspaceTabs (wsId : String) (tabIds : List String) : WorkspaceState := s.onWorkspace wsId (·.reorderTabs tabIds)

/-- Workspaces that the order does not know go to its end. -/
def reorderWorkspaces (orderedIds : List String) : WorkspaceState :=
  let reordered := orderedIds.filterMap fun id => s.workspaces.reverse.find? (·.id = id)
  if reordered.length < s.workspaces.length then { s with workspaces := reordered ++ s.workspaces.filter (·.id ∉ orderedIds) }
  else { s with workspaces := reordered }

def findWorkspaceByTab (tabId : String) : Option Workspace := s.workspaces.find? (tabId ∈ ·.tabs)

/-- Where no workspace is named, it is the active one. -/
def insertTarget (workspaceId : Option (Option String)) : Option String := truthy (workspaceId.getD s.activeWorkspaceId)

/-- The tab goes into the workspace, and out of any other. -/
def insertTab (tabId : String) (workspaceId afterTabId : Option (Option String)) : WorkspaceState :=
  match s.insertTarget workspaceId with
  | none => s
  | some targetWsId =>
    if ∃ ws ∈ s.workspaces, ws.id = targetWsId then
      { s with workspaces := s.workspaces.map fun ws =>
          if ws.id = targetWsId then ws.insertTab tabId afterTabId
          else if tabId ∈ ws.tabs then ws.removeTab tabId
          else ws }
    else s

end WorkspaceState

/-! ## What the actions keep -/

/-- The tabs of a workspace are known, in no other one, and its active tab is one of them. -/
structure WorkspaceState.Consistent (known : String → Prop) (s : WorkspaceState) : Prop where
  ids : (s.workspaces.map (·.id)).Nodup
  known : ∀ ws ∈ s.workspaces, ∀ id ∈ ws.tabs, known id
  alone : ∀ ws ∈ s.workspaces, ∀ ws' ∈ s.workspaces, ∀ id ∈ ws.tabs, id ∈ ws'.tabs → ws.id = ws'.id
  active : ∀ ws ∈ s.workspaces, ∀ id ∈ ws.activeTabId, id ∈ ws.tabs

/-- The tabs of one workspace may be those of another as far as its own id goes. -/
structure Workspace.Within (ws' ws : Workspace) : Prop where
  id : ws'.id = ws.id
  tabs : ∀ id ∈ ws'.tabs, id ∈ ws.tabs
  active : ∀ id ∈ ws'.activeTabId, id ∈ ws'.tabs

section Within

variable {ws : Workspace} {tabId : String}

theorem Workspace.within_refl (hactive : ∀ id ∈ ws.activeTabId, id ∈ ws.tabs) : ws.Within ws := ⟨rfl, fun _ h => h, hactive⟩

theorem Workspace.within_removeTab (hactive : ∀ id ∈ ws.activeTabId, id ∈ ws.tabs) : (ws.removeTab tabId).Within ws := by
  refine ⟨rfl, fun id hid => List.mem_of_mem_filter hid, fun id hid => ?_⟩
  replace hid : (if ws.activeTabId = some tabId then none else ws.activeTabId) = some id := hid
  split at hid
  · cases hid
  · rename_i hother
    refine List.mem_filter.2 ⟨hactive id hid, decide_eq_true ?_⟩
    rintro rfl
    exact hother hid

/-- A reordered workspace has the tabs it had. -/
theorem Workspace.mem_reorderTabs (tabIds : List String) (id : String) : id ∈ (ws.reorderTabs tabIds).tabs ↔ id ∈ ws.tabs := by
  have hsub : ∀ id ∈ knownOnce ws.tabs tabIds, id ∈ ws.tabs := fun id hid => (mem_knownOnce.1 hid).2
  unfold Workspace.reorderTabs
  dsimp only
  split
  · simp only [List.mem_append, List.mem_filter, decide_eq_true_eq]
    constructor
    · rintro (h | h)
      · exact hsub id h
      · exact h.1
    · intro h
      by_cases hknown : id ∈ knownOnce ws.tabs tabIds
      · exact .inl hknown
      · exact .inr ⟨h, hknown⟩
  · rename_i hfull
    exact ((nodup_knownOnce ws.tabs tabIds).subperm hsub |>.perm_of_length_le (not_lt.1 hfull)).mem_iff

theorem Workspace.within_reorderTabs (hactive : ∀ id ∈ ws.activeTabId, id ∈ ws.tabs) (tabIds : List String) :
    (ws.reorderTabs tabIds).Within ws := by
  have hid : (ws.reorderTabs tabIds).id = ws.id ∧ (ws.reorderTabs tabIds).activeTabId = ws.activeTabId := by
    unfold Workspace.reorderTabs
    dsimp only
    split <;> exact ⟨rfl, rfl⟩
  refine ⟨hid.1, fun id h => (mem_reorderTabs tabIds id).1 h, fun id h => (mem_reorderTabs tabIds id).2 (hactive id ?_)⟩
  rw [← hid.2]
  exact h

theorem Workspace.mem_insertTab {afterTabId : Option (Option String)} {id : String} :
    id ∈ (ws.insertTab tabId afterTabId).tabs ↔ id = tabId ∨ id ∈ ws.tabs := by
  unfold Workspace.insertTab
  split
  · rename_i hmem
    constructor
    · exact .inr
    · rintro (rfl | h)
      · exact hmem
      · exact h
  · have hlast : id ∈ ws.tabs ++ [tabId] ↔ id = tabId ∨ id ∈ ws.tabs := by
      rw [List.mem_append, List.mem_singleton, or_comm]
    split
    · exact List.mem_cons
    · split
      · exact (spliceAt_perm _ _ _).mem_iff.trans List.mem_cons
      · exact hlast
    · exact hlast

theorem Workspace.insertTab_fields (tabId : String) (afterTabId : Option (Option String)) :
    (ws.insertTab tabId afterTabId).id = ws.id ∧ (ws.insertTab tabId afterTabId).activeTabId = some tabId := by
  unfold Workspace.insertTab
  split <;> exact ⟨rfl, rfl⟩

end Within

namespace WorkspaceState.Consistent

variable {known : String → Prop} {s : WorkspaceState} {wsId tabId : String}

theorem mono {known' : String → Prop} (h : s.Consistent known) (hknown : ∀ id, known id → known' id) : s.Consistent known' :=
  ⟨h.ids, fun ws hws id hid => hknown id (h.known ws hws id hid), h.alone, h.active⟩

theorem setActiveWorkspace (h : s.Consistent known) (wsId : Option String) : (s.setActiveWorkspace wsId).Consistent known :=
  ⟨h.ids, h.known, h.alone, h.active⟩

/-- One workspace for each one before. -/
theorem map (h : s.Consistent known) {update : Workspace → Workspace} (hids : ∀ ws ∈ s.workspaces, (update ws).id = ws.id)
    (hknown : ∀ ws ∈ s.workspaces, ∀ id ∈ (update ws).tabs, known id)
    (halone : ∀ ws ∈ s.workspaces, ∀ ws' ∈ s.workspaces, ∀ id ∈ (update ws).tabs, id ∈ (update ws').tabs → ws.id = ws'.id)
    (hactive : ∀ ws ∈ s.workspaces, ∀ id ∈ (update ws).activeTabId, id ∈ (update ws).tabs) :
    { s with workspaces := s.workspaces.map update }.Consistent known := by
  refine ⟨?_, fun ws hws => ?_, fun ws hws ws' hws' => ?_, fun ws hws => ?_⟩
  · show ((s.workspaces.map update).map (·.id)).Nodup
    have hsame : (s.workspaces.map update).map (·.id) = s.workspaces.map (·.id) := by
      rw [List.map_map]
      exact List.map_congr_left hids
    rw [hsame]
    exact h.ids
  · obtain ⟨ws₀, hws₀, rfl⟩ := List.mem_map.1 hws
    exact hknown ws₀ hws₀
  · obtain ⟨ws₀, hws₀, rfl⟩ := List.mem_map.1 hws
    obtain ⟨ws₁, hws₁, rfl⟩ := List.mem_map.1 hws'
    rw [hids ws₀ hws₀, hids ws₁ hws₁]
    exact halone ws₀ hws₀ ws₁ hws₁
  · obtain ⟨ws₀, hws₀, rfl⟩ := List.mem_map.1 hws
    exact hactive ws₀ hws₀

/-- No workspace has a tab it had not. -/
theorem within (h : s.Consistent known) {update : Workspace → Workspace} (hwithin : ∀ ws ∈ s.workspaces, (update ws).Within ws) :
    { s with workspaces := s.workspaces.map update }.Consistent known :=
  h.map (fun ws hws => (hwithin ws hws).id) (fun ws hws id hid => h.known ws hws id ((hwithin ws hws).tabs id hid))
    (fun ws hws ws' hws' id hid hid' => h.alone ws hws ws' hws' id ((hwithin ws hws).tabs id hid) ((hwithin ws' hws').tabs id hid'))
    fun ws hws => (hwithin ws hws).active

theorem onWorkspace (h : s.Consistent known) {update : Workspace → Workspace}
    (hwithin : ∀ ws ∈ s.workspaces, ws.id = wsId → (update ws).Within ws) : (s.onWorkspace wsId update).Consistent known := by
  refine h.within fun ws hws => ?_
  split
  · exact hwithin ws hws ‹_›
  · exact Workspace.within_refl (h.active ws hws)

theorem removeTabFromWorkspace (h : s.Consistent known) (wsId tabId : String) : (s.removeTabFromWorkspace wsId tabId).Consistent known :=
  h.onWorkspace fun ws hws _ => Workspace.within_removeTab (h.active ws hws)

theorem reorderWorkspaceTabs (h : s.Consistent known) (wsId : String) (tabIds : List String) :
    (s.reorderWorkspaceTabs wsId tabIds).Consistent known :=
  h.onWorkspace fun ws hws _ => Workspace.within_reorderTabs (h.active ws hws) tabIds

theorem setWorkspaceActiveTab (h : s.Consistent known) (hown : ∀ ws ∈ s.workspaces, ws.id = wsId → tabId ∈ ws.tabs) :
    (s.setWorkspaceActiveTab wsId tabId).Consistent known := by
  refine h.onWorkspace fun ws hws hid => ⟨rfl, fun _ h => h, fun id hactive => ?_⟩
  obtain rfl := Option.some.inj hactive
  exact hown ws hws hid

/-- Some of the workspaces, in any order. -/
theorem select (h : s.Consistent known) {workspaces : List Workspace} {active : Option String} (hnodup : (workspaces.map (·.id)).Nodup)
    (hsub : ∀ ws ∈ workspaces, ws ∈ s.workspaces) : (⟨workspaces, active⟩ : WorkspaceState).Consistent known :=
  ⟨hnodup, fun ws hws => h.known ws (hsub ws hws), fun ws hws ws' hws' => h.alone ws (hsub ws hws) ws' (hsub ws' hws'),
    fun ws hws => h.active ws (hsub ws hws)⟩

theorem removeWorkspace (h : s.Consistent known) (wsId : String) : (s.removeWorkspace wsId).Consistent known := by
  unfold WorkspaceState.removeWorkspace
  split
  · exact h.select (h.ids.sublist (List.filter_sublist.map _)) fun ws hws => List.mem_of_mem_filter hws
  · exact h

theorem reorderWorkspaces (h : s.Consistent known) {orderedIds : List String} (hnodup : orderedIds.Nodup) :
    (s.reorderWorkspaces orderedIds).Consistent known := by
  have hfound : ∀ ws ∈ orderedIds.filterMap fun id => s.workspaces.reverse.find? (·.id = id), ws ∈ s.workspaces ∧ ws.id ∈ orderedIds := by
    intro ws hws
    obtain ⟨id, hid, hfind⟩ := List.mem_filterMap.1 hws
    have hsel : ws.id = id := by simpa using List.find?_some hfind
    exact ⟨List.mem_reverse.1 (List.mem_of_find?_eq_some hfind), hsel ▸ hid⟩
  have hids : ((orderedIds.filterMap fun id => s.workspaces.reverse.find? (·.id = id)).map (·.id)).Nodup := by
    rw [List.map_filterMap]
    refine hnodup.filterMap fun a a' b hb hb' => ?_
    obtain ⟨ws, hws, rfl⟩ := Option.map_eq_some_iff.1 hb
    obtain ⟨ws', hws', heq⟩ := Option.map_eq_some_iff.1 hb'
    have hsel : ws.id = a := by simpa using List.find?_some hws
    have hsel' : ws'.id = a' := by simpa using List.find?_some hws'
    rw [← hsel, ← hsel', heq]
  unfold WorkspaceState.reorderWorkspaces
  dsimp only
  split
  · refine h.select ?_ fun ws hws => ?_
    · rw [List.map_append]
      refine List.nodup_append.2 ⟨hids, h.ids.sublist (List.filter_sublist.map _), ?_⟩
      rintro a ha b hb rfl
      obtain ⟨ws, hws, rfl⟩ := List.mem_map.1 ha
      obtain ⟨ws', hws', heq⟩ := List.mem_map.1 hb
      have hout := of_decide_eq_true (List.mem_filter.1 hws').2
      exact hout (heq ▸ (hfound ws hws).2)
    · rcases List.mem_append.1 hws with hws | hws
      · exact (hfound ws hws).1
      · exact List.mem_of_mem_filter hws
  · exact h.select hids fun ws hws => (hfound ws hws).1

theorem addWorkspace (h : s.Consistent known) {newId : String} (hfresh : ∀ ws ∈ s.workspaces, ws.id ≠ newId) (name : String) :
    (s.addWorkspace newId name).Consistent known := by
  have hmem : ∀ ws ∈ s.workspaces ++ [createWorkspace newId name], ws ∈ s.workspaces ∨ ws = createWorkspace newId name := by
    simp
  refine ⟨?_, fun ws hws id hid => ?_, fun ws hws ws' hws' id hid hid' => ?_, fun ws hws id hid => ?_⟩
  · show ((s.workspaces ++ [createWorkspace newId name]).map (·.id)).Nodup
    rw [List.map_append]
    refine List.nodup_append.2 ⟨h.ids, List.nodup_singleton _, ?_⟩
    rintro a ha b hb rfl
    obtain ⟨ws, hws, heq⟩ := List.mem_map.1 ha
    exact hfresh ws hws (heq.trans (List.mem_singleton.1 hb))
  · rcases hmem ws hws with hws | rfl
    · exact h.known ws hws id hid
    · exact absurd hid List.not_mem_nil
  · rcases hmem ws hws with hws | rfl
    · rcases hmem ws' hws' with hws' | rfl
      · exact h.alone ws hws ws' hws' id hid hid'
      · exact absurd hid' List.not_mem_nil
    · exact absurd hid List.not_mem_nil
  · rcases hmem ws hws with hws | rfl
    · exact h.active ws hws id hid
    · cases hid

/-- A tab goes into the workspaces of one id, and is in no other then. -/
theorem put (h : s.Consistent known) (wsId : String) (hknown : known tabId) {update : Workspace → Workspace}
    (hids : ∀ ws, (update ws).id = ws.id)
    (htarget : ∀ ws ∈ s.workspaces, ws.id = wsId → ∀ id ∈ (update ws).tabs, id = tabId ∨ id ∈ ws.tabs)
    (hother : ∀ ws ∈ s.workspaces, ws.id ≠ wsId → ∀ id ∈ (update ws).tabs, id ≠ tabId ∧ id ∈ ws.tabs)
    (hactive : ∀ ws ∈ s.workspaces, ∀ id ∈ (update ws).activeTabId, id ∈ (update ws).tabs) :
    { s with workspaces := s.workspaces.map update }.Consistent known := by
  have hmem : ∀ ws ∈ s.workspaces, ∀ id ∈ (update ws).tabs, (id = tabId ∧ ws.id = wsId) ∨ id ≠ tabId ∧ id ∈ ws.tabs := by
    intro ws hws id hid
    by_cases hws_id : ws.id = wsId
    · by_cases hid_eq : id = tabId
      · exact .inl ⟨hid_eq, hws_id⟩
      · exact .inr ⟨hid_eq, (htarget ws hws hws_id id hid).resolve_left hid_eq⟩
    · exact .inr (hother ws hws hws_id id hid)
  refine h.map (fun ws _ => hids ws) (fun ws hws id hid => ?_) (fun ws hws ws' hws' id hid hid' => ?_) hactive
  · rcases hmem ws hws id hid with ⟨rfl, _⟩ | ⟨_, hid⟩
    · exact hknown
    · exact h.known ws hws id hid
  · rcases hmem ws hws id hid with ⟨heq, hid⟩ | ⟨hne, hid⟩
    · rcases hmem ws' hws' id hid' with ⟨_, hid'⟩ | ⟨hne, _⟩
      · rw [hid, hid']
      · exact absurd heq hne
    · rcases hmem ws' hws' id hid' with ⟨heq, _⟩ | ⟨_, hid'⟩
      · exact absurd heq hne
      · exact h.alone ws hws ws' hws' id hid hid'

theorem insertTab (h : s.Consistent known) {workspaceId : Option (Option String)}
    (hknown : ∀ wsId, s.insertTarget workspaceId = some wsId → (∃ ws ∈ s.workspaces, ws.id = wsId) → known tabId)
    (afterTabId : Option (Option String)) : (s.insertTab tabId workspaceId afterTabId).Consistent known := by
  unfold WorkspaceState.insertTab
  cases htarget : s.insertTarget workspaceId with
  | none => exact h
  | some targetWsId =>
    dsimp only
    split
    · rename_i hexists
      refine h.put targetWsId (hknown targetWsId htarget hexists) (fun ws => ?_) (fun ws _ hid id hmem => ?_)
        (fun ws _ hid id hmem => ?_) fun ws hws id hmem => ?_
      · split
        · exact (Workspace.insertTab_fields tabId afterTabId).1
        · split <;> rfl
      · rw [if_pos hid] at hmem
        exact Workspace.mem_insertTab.1 hmem
      · rw [if_neg hid] at hmem
        split at hmem
        · obtain ⟨hmem, hne⟩ := List.mem_filter.1 hmem
          exact ⟨of_decide_eq_true hne, hmem⟩
        · rename_i hout
          exact ⟨fun heq => hout (heq ▸ hmem), hmem⟩
      · by_cases hid : ws.id = targetWsId
        · rw [if_pos hid] at hmem ⊢
          rw [(Workspace.insertTab_fields tabId afterTabId).2] at hmem
          exact Workspace.mem_insertTab.2 (.inl (Option.some.inj hmem).symm)
        · rw [if_neg hid] at hmem ⊢
          split at hmem <;> rename_i hin
          · rw [if_pos hin]
            exact (Workspace.within_removeTab (h.active ws hws)).active id hmem
          · rw [if_neg hin]
            exact h.active ws hws id hmem
    · exact h

theorem addTabToWorkspace (h : s.Consistent known)
    (hknown : (∃ ws ∈ s.workspaces, ws.id = wsId) → known tabId ∧ ∀ ws ∈ s.workspaces, tabId ∈ ws.tabs → ws.id = wsId) :
    (s.addTabToWorkspace wsId tabId).Consistent known := by
  by_cases hexists : ∃ ws ∈ s.workspaces, ws.id = wsId
  · obtain ⟨hknown, hout⟩ := hknown hexists
    have hadd : ∀ ws : Workspace, (ws.addTab tabId).id = ws.id ∧ (ws.addTab tabId).activeTabId = ws.activeTabId ∧
        ∀ id, id ∈ (ws.addTab tabId).tabs ↔ id = tabId ∨ id ∈ ws.tabs := by
      intro ws
      unfold Workspace.addTab
      split
      · rename_i hmem
        refine ⟨rfl, rfl, fun id => ⟨.inr, ?_⟩⟩
        rintro (rfl | h)
        · exact hmem
        · exact h
      · refine ⟨rfl, rfl, fun id => ?_⟩
        rw [List.mem_append, List.mem_singleton, or_comm]
    refine h.put wsId hknown (fun ws => ?_) (fun ws _ hid id hmem => ?_) (fun ws hws hid id hmem => ?_) fun ws hws id hmem => ?_
    · split
      · exact (hadd ws).1
      · rfl
    · rw [if_pos hid] at hmem
      exact ((hadd ws).2.2 id).1 hmem
    · rw [if_neg hid] at hmem
      exact ⟨fun heq => hid (hout ws hws (heq ▸ hmem)), hmem⟩
    · by_cases hid : ws.id = wsId
      · rw [if_pos hid] at hmem ⊢
        rw [(hadd ws).2.1] at hmem
        exact ((hadd ws).2.2 id).2 (.inr (h.active ws hws id hmem))
      · rw [if_neg hid] at hmem ⊢
        exact h.active ws hws id hmem
  · refine h.onWorkspace fun ws hws hid => absurd ⟨ws, hws, hid⟩ hexists

end WorkspaceState.Consistent

end Purdex.Nav
