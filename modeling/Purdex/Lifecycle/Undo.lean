/-
When the undo of a deletion brings everything back: store by store what it leaves, and the condition on the state before that each of
them needs.
-/
import Purdex.Lifecycle.Deletion

namespace Purdex.Lifecycle

open Json Nav Panes
open Purdex.Hosts (HostId HostState HostConfig)

/-! ## What is promised -/

/-- The stores are consistent, and no pane comes twice in a tab, nor a tab in a workspace. -/
structure Consistent (w : AppStores) : Prop where
  hosts : w.hostStore.Consistent
  hostIds : ∀ id host, w.hostStore.hosts.lookup id = some host → host.id = id
  nav : w.nav.Sound
  panes : ∀ id tab, w.nav.tabStore.tabs.get? id = some tab → (tab.layout.collectLeaves.map Pane.id).Nodup
  workspaceTabs : ∀ ws ∈ w.nav.workspaceStore.workspaces, ws.tabs.Nodup

/-- Two stores with the same in them, connections and what is active in the tab bar aside. -/
structure SameState (w w' : AppStores) : Prop where
  hosts : ∀ id, w'.hostStore.hosts.lookup id = w.hostStore.hosts.lookup id
  hostOrder : w'.hostStore.hostOrder = w.hostStore.hostOrder
  activeHost : w'.hostStore.activeHostId = w.hostStore.activeHostId
  sessions : ∀ id, w'.sessionStore.sessions.get? id = w.sessionStore.sessions.get? id
  settings : ∀ id, w'.hostSettings.get? id = w.hostSettings.get? id
  events : ∀ k, w'.agentStore.lastEvents.get? k = w.agentStore.lastEvents.get? k
  statuses : ∀ k, w'.agentStore.statuses.get? k = w.agentStore.statuses.get? k
  unread : ∀ k, w'.agentStore.unread.get? k = w.agentStore.unread.get? k
  models : ∀ k, w'.agentStore.models.get? k = w.agentStore.models.get? k
  streams : ∀ k, (w'.streamStore.sessions.get? k).map PerSessionState.withoutConn = (w.streamStore.sessions.get? k).map PerSessionState.withoutConn
  tabs : ∀ id, w'.nav.tabStore.tabs.get? id = w.nav.tabStore.tabs.get? id
  tabOrder : w'.nav.tabStore.tabOrder = w.nav.tabStore.tabOrder
  membership : w'.nav.workspaceStore.workspaces.map (fun ws => (ws.id, ws.tabs)) = w.nav.workspaceStore.workspaces.map fun ws => (ws.id, ws.tabs)

/-- What another host of the store has under its own keys. -/
def OfAnother (hostId : HostId) (w : AppStores) (k : String) : Prop := ∃ other ∈ w.hostStore.hosts, other ≠ hostId ∧ byHost other k = true

/-- What there is of the other hosts besides. -/
structure Untouched (hostId : HostId) (w w' : AppStores) : Prop where
  agentTypes : ∀ k, OfAnother hostId w k → w'.agentStore.agentTypes.get? k = w.agentStore.agentTypes.get? k
  subagents : ∀ k, OfAnother hostId w k → w'.agentStore.subagents.get? k = w.agentStore.subagents.get? k
  oscTitles : ∀ k, OfAnother hostId w k → w'.agentStore.oscTitles.get? k = w.agentStore.oscTitles.get? k
  ccStatus : ∀ k, OfAnother hostId w k → w'.agentStore.ccStatus.get? k = w.agentStore.ccStatus.get? k
  relayStatus : ∀ k, OfAnother hostId w k → w'.streamStore.relayStatus.get? k = w.streamStore.relayStatus.get? k
  handoffProgress : ∀ k, OfAnother hostId w k → w'.streamStore.handoffProgress.get? k = w.streamStore.handoffProgress.get? k

/-- The tabs with a pane of the host that are not locked, as the store lists them. -/
def closable (hostId : HostId) (entries : List (String × Tab)) : List String :=
  (entries.filter fun e => hasHostPane hostId e.2 && !e.2.locked).map Prod.fst

/-- Each host is numbered by its place; nothing is known of the agents of the host without an event; the tabs that are closed are the last
ones, in the order and in their workspaces; and nothing is kept under a key that another host has as well. -/
structure Restorable (hostId : HostId) (closeTabs : Bool) (w : AppStores) : Prop where
  numbered : ∀ order, w.hostStore.hostOrder = some order → ∀ id host, w.hostStore.hosts.lookup id = some host → host.order = order.idxOf id
  agent : (∀ k, byHost hostId k = true → w.agentStore.lastEvents.get? k = none) → ∀ k, byHost hostId k = true →
    w.agentStore.statuses.get? k = none ∧ w.agentStore.unread.get? k = none ∧ w.agentStore.models.get? k = none
  last : closeTabs = true → closable hostId w.nav.tabStore.tabs.entries <:+ w.nav.tabStore.tabOrder
  lastIn : closeTabs = true → ∀ ws ∈ w.nav.workspaceStore.workspaces,
    (closable hostId w.nav.tabStore.tabs.entries).filter (· ∈ ws.tabs) <:+ ws.tabs
  apart : ∀ k, OfAnother hostId w k → byHost hostId k = true → w.agentStore.agentTypes.get? k = none ∧ w.agentStore.subagents.get? k = none ∧
    w.agentStore.oscTitles.get? k = none ∧ w.agentStore.ccStatus.get? k = none ∧ w.streamStore.relayStatus.get? k = none ∧
      w.streamStore.handoffProgress.get? k = none

/-! ## Hosts -/

section Hosts

variable {s : HostState} {hostId : HostId} {host : HostConfig}

/-- A host that is there and not the last one is deleted, and its undo numbers every host by its place. -/
theorem hosts_undone (h : s.Consistent) (hids : ∀ id host, s.hosts.lookup id = some host → host.id = id) (hhost : s.hosts.lookup hostId = some host)
    (hmany : 1 < s.hosts.keys.length) {order : List HostId} (horder : s.hostOrder = some order) :
    ∃ s' x s'', Hosts.deleteHostCascade hostId s = (s', some x) ∧ x.hostId = hostId ∧ hostId ∉ s'.hosts ∧ x.undo s' = some s'' ∧
      (∀ id, s''.hosts.lookup id = (s.hosts.lookup id).map fun host => { host with order := order.idxOf id }) ∧
        s''.hostOrder = some order ∧ s''.activeHostId = s.activeHostId := by
  obtain ⟨_, horder', hnodup, hperm⟩ := h.order
  obtain rfl := Option.some.inj (horder.symm.trans horder')
  have hid := hids hostId host hhost
  have hgone : hostId ∉ s.hosts.erase hostId := by
    rw [← AList.lookup_eq_none, AList.lookup_erase]
  have hremove : (s.removeHost hostId).getD s = ⟨s.hosts.erase hostId, some (order.filter (· ≠ hostId)),
      if s.activeHostId = some hostId then (order.filter (· ≠ hostId)).head? else s.activeHostId⟩ := by
    rw [HostState.removeHost, if_neg (not_le.2 hmany), horder]
    rfl
  have hdelete : Hosts.deleteHostCascade hostId s = ((s.removeHost hostId).getD s, some ⟨hostId, host, order, s.activeHostId⟩) := by
    rw [Hosts.deleteHostCascade, hhost, horder]
    exact if_neg (not_le.2 hmany)
  obtain ⟨removed, hremoved⟩ : ∃ removed, removed = (s.removeHost hostId).getD s := ⟨_, rfl⟩
  have hhosts : removed.hosts = s.hosts.erase hostId := by rw [hremoved, hremove]
  rw [← hremoved] at hdelete hremove
  -- The host is added at the end, and then everything is placed by the order that is remembered.
  obtain ⟨added, hadded⟩ : ∃ added : HostState, added = ⟨removed.hosts.insert host.id ⟨host.id, host.name, host.ip, host.port, host.token,
      (order.filter (· ≠ hostId)).length⟩, some (order.filter (· ≠ hostId) ++ [host.id]), removed.activeHostId⟩ := ⟨_, rfl⟩
  have hadd : removed.addHost ⟨some host.id, host.name, host.ip, host.port, host.token⟩ "" = some added := by
    rw [hadded, HostState.addHost, hhosts]
    rw [Option.getD_some, hid, if_neg hgone, hremove]
    rfl
  have hundo : (⟨hostId, host, order, s.activeHostId⟩ : Hosts.Snapshot).undo removed =
      some (if s.activeHostId = some hostId then (added.reorderHosts order).setActiveHost hostId else added.reorderHosts order) := by
    rw [Hosts.Snapshot.undo, if_neg (by rw [hhosts]; exact hgone)]
    dsimp only
    rw [hadd]
    rfl
  have hlookup : ∀ id, (added.reorderHosts order).hosts.lookup id =
      (s.hosts.lookup id).map fun host => { host with order := order.idxOf id } := by
    intro id
    change (HostState.placed added.hosts order).lookup id = _
    rw [HostState.lookup_placed hnodup, hadded, hhosts, hid]
    by_cases heq : id = hostId
    · subst heq
      have hin : id ∈ order := hperm.mem_iff.2 (AList.mem_keys.1 (AList.lookup_isSome.1 (by rw [hhost]; rfl)))
      rw [AList.lookup_insert, hhost, Option.map_some, Option.map_some, if_pos hin, ← hid]
    · rw [AList.lookup_insert_ne heq, AList.lookup_erase_ne heq]
      refine Option.map_congr fun host' hhost' => ?_
      have hin : id ∈ order := hperm.mem_iff.2 (AList.mem_keys.1 (AList.lookup_isSome.1 (by rw [hhost']; rfl)))
      rw [if_pos hin]
  refine ⟨removed, _, _, hdelete, rfl, by rw [hhosts]; exact hgone, hundo, ?_, ?_, ?_⟩
  · intro id
    split
    · unfold HostState.setActiveHost
      split <;> exact hlookup id
    · exact hlookup id
  · split
    · unfold HostState.setActiveHost
      split <;> rfl
    · rfl
  · split
    · rename_i hactive
      have hin : hostId ∈ (added.reorderHosts order).hosts := AList.lookup_isSome.1 (by rw [hlookup, hhost]; rfl)
      rw [HostState.setActiveHost, if_pos hin, hactive]
    · rename_i hactive
      change added.activeHostId = _
      rw [hadded, hremove]
      exact if_neg hactive

/-- What is refused changes nothing. -/
theorem hosts_refused (hrefused : s.hosts.lookup hostId = none ∨ s.hosts.keys.length ≤ 1) : (Hosts.deleteHostCascade hostId s).2 = none := by
  unfold Hosts.deleteHostCascade
  split
  · rename_i hhost _
    rcases hrefused with hnone | hlast
    · rw [hnone] at hhost
      cases hhost
    · rw [if_pos hlast]
  · rfl

end Hosts

/-! ## What is kept by key -/

section Keyed

variable {α : Type} {hostId : HostId} {k : String}

theorem get?_omitHost (r : Record α) (k : String) : (omitHost hostId r).get? k = if byHost hostId k then none else r.get? k := by
  rw [omitHost, Record.get?_restrict]
  cases byHost hostId k <;> rfl

theorem get?_keepHost (r : Record α) (k : String) : (keepHost hostId r).get? k = if byHost hostId k then r.get? k else none :=
  Record.get?_restrict _ _ _

theorem keys_eq_nil_iff {r : Record α} : r.keys = [] ↔ ∀ k, r.get? k = none := by
  rw [List.eq_nil_iff_forall_not_mem]
  exact forall_congr' fun k => by rw [Record.mem_keys, Option.not_isSome_iff_eq_none]

/-- The keys of a host are none. -/
theorem keys_keepHost_iff {r : Record α} : (keepHost hostId r).keys = [] ↔ ∀ k, byHost hostId k = true → r.get? k = none := by
  rw [keys_eq_nil_iff]
  refine forall_congr' fun k => ?_
  rw [get?_keepHost]
  cases byHost hostId k <;> simp

theorem get?_overlay_keepHost (r : Record α) (k : String) : ((omitHost hostId r).overlay (keepHost hostId r)).get? k = r.get? k := by
  rw [Record.get?_overlay, get?_omitHost, get?_keepHost]
  cases byHost hostId k
  · exact Option.none_or
  · exact Option.or_none

theorem omitHost_same_at {r : Record α} : (omitHost hostId r).get? k = r.get? k ↔ (byHost hostId k = true → r.get? k = none) := by
  rw [get?_omitHost]
  cases byHost hostId k with
  | true => exact ⟨fun h _ => h.symm, fun h => (h rfl).symm⟩
  | false => exact ⟨fun _ => nofun, fun _ => rfl⟩

/-- What was omitted is the same where there was nothing of the host. -/
theorem omitHost_same_iff {r : Record α} : (∀ k, (omitHost hostId r).get? k = r.get? k) ↔ ∀ k, byHost hostId k = true → r.get? k = none :=
  forall_congr' fun _ => omitHost_same_at

/-- What is cleared for one key, and set again. -/
theorem get?_clear_set (r : Record α) (key : String) (k : String) : (match r.get? key with
    | none => r.restrict (· ≠ key)
    | some a => (r.restrict (· ≠ key)).set key a).get? k = r.get? k := by
  cases hget : r.get? key with
  | none =>
    rw [Record.get?_restrict]
    by_cases hk : k = key
    · subst hk
      simp [hget]
    · simp [hk]
  | some a =>
    rw [Record.get?_set, Record.get?_restrict]
    by_cases hk : k = key
    · subst hk
      simp [hget]
    · simp [hk]

end Keyed

section Agents

variable {hostId : HostId} {x : Snapshot} {s : AgentState}

/-- The agents come back with their events; without any, they had to be unknown. -/
theorem restoreAgent_iff (hevents : x.agentEvents = keepHost hostId s.lastEvents) (hstatuses : x.agentStatuses = keepHost hostId s.statuses)
    (hunread : x.agentUnread = keepHost hostId s.unread) (hmodels : x.agentModels = keepHost hostId s.models) :
    ((∀ k, (x.restoreAgent (s.removeHost hostId)).lastEvents.get? k = s.lastEvents.get? k) ∧
      (∀ k, (x.restoreAgent (s.removeHost hostId)).statuses.get? k = s.statuses.get? k) ∧
      (∀ k, (x.restoreAgent (s.removeHost hostId)).unread.get? k = s.unread.get? k) ∧
      ∀ k, (x.restoreAgent (s.removeHost hostId)).models.get? k = s.models.get? k) ↔
    ((∀ k, byHost hostId k = true → s.lastEvents.get? k = none) → ∀ k, byHost hostId k = true →
      s.statuses.get? k = none ∧ s.unread.get? k = none ∧ s.models.get? k = none) := by
  unfold Snapshot.restoreAgent
  rw [hevents, hstatuses, hunread, hmodels]
  split
  · rename_i hnone
    have hquiet := keys_keepHost_iff.1 hnone
    constructor
    · rintro ⟨-, hs, hu, hm⟩ - k hk
      exact ⟨omitHost_same_iff.1 hs k hk, omitHost_same_iff.1 hu k hk, omitHost_same_iff.1 hm k hk⟩
    · intro h
      exact ⟨omitHost_same_iff.2 hquiet, omitHost_same_iff.2 fun k hk => (h hquiet k hk).1, omitHost_same_iff.2 fun k hk => (h hquiet k hk).2.1,
        omitHost_same_iff.2 fun k hk => (h hquiet k hk).2.2⟩
  · rename_i hsome
    refine iff_of_true ⟨?_, ?_, ?_, ?_⟩ fun hquiet => absurd (keys_keepHost_iff.2 hquiet) hsome
    all_goals exact get?_overlay_keepHost _

end Agents

/-- The stream sessions come back without their connections. -/
theorem restoreStream_same {hostId : HostId} {x : Snapshot} {s : StreamStore}
    (h : x.streamSessions = (keepHost hostId s.sessions).mapValues PerSessionState.withoutConn) (k : String) :
    ((x.restoreStream (s.clearHost hostId)).sessions.get? k).map PerSessionState.withoutConn =
      (s.sessions.get? k).map PerSessionState.withoutConn := by
  unfold Snapshot.restoreStream
  rw [h]
  split
  · rename_i hnone
    have hkeys : (keepHost hostId s.sessions).keys = [] := by
      rw [keys_eq_nil_iff] at hnone ⊢
      intro k
      have hk := hnone k
      rw [Record.get?_mapValues, Option.map_eq_none_iff] at hk
      exact hk
    exact congrArg _ (omitHost_same_iff.2 (keys_keepHost_iff.1 hkeys) k)
  · change (((omitHost hostId s.sessions).overlay ((keepHost hostId s.sessions).mapValues PerSessionState.withoutConn)).get? k).map _ = _
    rw [Record.get?_overlay, Record.get?_mapValues, get?_omitHost, get?_keepHost]
    cases byHost hostId k with
    | true => cases s.sessions.get? k <;> rfl
    | false => rfl

/-! ## Panes that are marked -/

section Marked

variable {hostId : HostId} {tabs : Tabs} {s : TabState} {tabId paneId : String} {tab : Tab} {pane : Pane} {cleared : List (String × String)}

theorem isLivePane_iff {content : PaneContent} : isLivePane hostId content = true ↔
    ∃ c, content = .tmuxSession c ∧ c.hostId = hostId ∧ c.terminated = none := by
  cases content <;> simp [isLivePane]

theorem markPane_of_not_live {content : PaneContent} {reason : TerminatedReason} (h : isLivePane hostId content = false) :
    markPane hostId reason content = content := by
  cases content with
  | tmuxSession c => exact if_neg (by simpa [isLivePane] using h)
  | _ => rfl

/-- A pane of a tab while the marks are taken back one by one. -/
def partly (hostId : HostId) (tabId : String) (cleared : List (String × String)) (pane : Pane) : PaneContent :=
  if isLivePane hostId pane.content = true ∧ (tabId, pane.id) ∉ cleared then markPane hostId .hostRemoved pane.content else pane.content

def Unmarking (hostId : HostId) (tabs : Tabs) (cleared : List (String × String)) (s : TabState) : Prop :=
  ∀ id, s.tabs.get? id = (tabs.get? id).map fun tab => { tab with layout := tab.layout.mapPanes (partly hostId id cleared) }

theorem marked_unmarking (s : TabState) : Unmarking hostId s.tabs [] (markHostTerminated s hostId .hostRemoved) := by
  intro id
  change (Tabs.mapContent s.tabs (markPane hostId .hostRemoved)).get? id = _
  rw [Tabs.mapContent, Record.get?_mapValues]
  refine Option.map_congr fun tab _ => ?_
  rw [PaneLayout.mapContent_eq_mapPanes]
  refine congrArg (fun layout => { tab with layout := layout }) (PaneLayout.mapPanes_congr _ fun pane _ => ?_)
  unfold partly
  cases hlive : isLivePane hostId pane.content with
  | true => exact (if_pos ⟨rfl, List.not_mem_nil⟩).symm
  | false =>
    rw [if_neg fun h => Bool.false_ne_true h.1]
    exact markPane_of_not_live hlive

theorem partly_cons_of_ne {p : Pane} (h : p.id ≠ paneId) : partly hostId tabId ((tabId, paneId) :: cleared) p = partly hostId tabId cleared p := by
  have hmem : (tabId, p.id) ∈ (tabId, paneId) :: cleared ↔ (tabId, p.id) ∈ cleared := by simp [h]
  exact if_congr (and_congr_right fun _ => not_congr hmem) rfl rfl

theorem partly_other {id : String} (h : id ≠ tabId) : partly hostId id ((tabId, paneId) :: cleared) = partly hostId id cleared := by
  funext p
  have hmem : (id, p.id) ∈ (tabId, paneId) :: cleared ↔ (id, p.id) ∈ cleared := by simp [h]
  exact if_congr (and_congr_right fun _ => not_congr hmem) rfl rfl

/-- A fold that only one element of the list does anything to. -/
theorem foldl_single {α β : Type} {f : β → α → β} {before behind : List α} {a : α} (h : ∀ x ∈ before ++ behind, ∀ acc, f acc x = acc) (b : β) :
    (before ++ a :: behind).foldl f b = f b a := by
  have hskip : ∀ l : List α, (∀ x ∈ l, ∀ acc, f acc x = acc) → ∀ b, l.foldl f b = b := by
    intro l
    induction l with
    | nil => exact fun _ _ => rfl
    | cons x l ih =>
      intro hl b
      obtain ⟨hx, hl⟩ := List.forall_mem_cons.1 hl
      rw [List.foldl_cons, hx, ih hl]
  obtain ⟨hbefore, hbehind⟩ := List.forall_mem_append.1 h
  rw [List.foldl_append, hskip before hbefore, List.foldl_cons, hskip behind hbehind]

/-- Taking the mark of one pane back. -/
theorem unmarkPane_eq (hget : s.tabs.get? tabId = some { tab with layout := tab.layout.mapPanes (partly hostId tabId cleared) })
    (hnodup : (tab.layout.collectLeaves.map Pane.id).Nodup) (hpane : pane ∈ tab.layout.collectLeaves) (hlive : isLivePane hostId pane.content = true) :
    unmarkPane s tabId pane.id = if (tabId, pane.id) ∈ cleared then s else setPaneContent s tabId pane.id pane.content := by
  obtain ⟨before, behind, hsplit⟩ := List.append_of_mem hpane
  have hothers : ∀ p ∈ before ++ behind, p.id ≠ pane.id := by
    rw [hsplit, List.map_append, List.map_cons, List.nodup_middle, List.nodup_cons, ← List.map_append] at hnodup
    exact fun p hp heq => hnodup.1 (heq ▸ List.mem_map_of_mem hp)
  unfold unmarkPane
  rw [hget]
  dsimp only
  rw [PaneLayout.collectLeaves_mapPanes, hsplit, List.map_append, List.map_cons, foldl_single]
  · obtain ⟨c, hc, hhost, hnone⟩ := isLivePane_iff.1 hlive
    dsimp only
    unfold partly
    by_cases hcleared : (tabId, pane.id) ∈ cleared
    · rw [if_neg fun h => h.2 hcleared, if_pos hcleared, hc]
      exact if_neg fun h => by rw [hnone] at h; cases h.2
    · rw [if_pos ⟨hlive, hcleared⟩, if_neg hcleared, hc, markPane, if_pos ⟨hhost, hnone⟩]
      dsimp only
      rw [if_pos ⟨rfl, rfl⟩, ← hnone]
  · intro p hp acc
    rw [← List.map_append] at hp
    obtain ⟨q, hq, rfl⟩ := List.mem_map.1 hp
    split
    · exact if_neg fun h => hothers q hq h.1
    · rfl

theorem get?_setPaneContent (hget : s.tabs.get? tabId = some tab) (content : PaneContent) (id : String) :
    (setPaneContent s tabId paneId content).tabs.get? id =
      if id = tabId then some { tab with layout := tab.layout.updatePaneInLayout paneId content } else s.tabs.get? id := by
  unfold setPaneContent
  rw [hget]
  exact Record.get?_set _ _ _ _

theorem tabOrder_setPaneContent (content : PaneContent) : (setPaneContent s tabId paneId content).tabOrder = s.tabOrder := by
  unfold setPaneContent
  split <;> rfl

/-- One pane more has its content of before. -/
theorem Unmarking.unmarkPane (h : Unmarking hostId tabs cleared s) (htab : tabs.get? tabId = some tab)
    (hnodup : (tab.layout.collectLeaves.map Pane.id).Nodup) (hpane : pane ∈ tab.layout.collectLeaves) (hlive : isLivePane hostId pane.content = true) :
    Unmarking hostId tabs ((tabId, pane.id) :: cleared) (unmarkPane s tabId pane.id) ∧ (unmarkPane s tabId pane.id).tabOrder = s.tabOrder := by
  have hget : s.tabs.get? tabId = some { tab with layout := tab.layout.mapPanes (partly hostId tabId cleared) } := by
    rw [h tabId, htab]
    rfl
  rw [unmarkPane_eq hget hnodup hpane hlive]
  have hsame : ∀ p ∈ tab.layout.collectLeaves, p.id = pane.id → p = pane := fun p hp heq => List.inj_on_of_nodup_map hnodup hp hpane heq
  have hself : partly hostId tabId ((tabId, pane.id) :: cleared) pane = pane.content := if_neg fun h => h.2 List.mem_cons_self
  split
  · rename_i hcleared
    refine ⟨fun id => ?_, rfl⟩
    rw [h id]
    refine Option.map_congr fun tab' htab' => ?_
    by_cases hid : id = tabId
    · subst hid
      obtain rfl := Option.some.inj (htab.symm.trans htab')
      refine congrArg (fun layout => { tab with layout := layout }) (PaneLayout.mapPanes_congr _ fun p hp => ?_)
      by_cases hp' : p.id = pane.id
      · rw [hsame p hp hp', hself]
        exact if_neg fun h => h.2 hcleared
      · exact (partly_cons_of_ne hp').symm
    · rw [partly_other hid]
  · refine ⟨fun id => ?_, tabOrder_setPaneContent _⟩
    rw [get?_setPaneContent hget]
    split
    · rename_i hid
      subst hid
      rw [htab, Option.map_some, PaneLayout.updatePaneInLayout_eq_mapPanes, PaneLayout.mapPanes_mapPanes]
      refine congrArg some (congrArg (fun layout => { tab with layout := layout }) (PaneLayout.mapPanes_congr _ fun p hp => ?_))
      by_cases hp' : p.id = pane.id
      · rw [if_pos hp', hsame p hp hp', hself]
      · rw [if_neg hp', partly_cons_of_ne hp']
    · rename_i hid
      rw [h id, partly_other hid]

/-- All of the marks that a deletion makes are taken back. -/
theorem unmarked (hpanes : ∀ id tab, s.tabs.get? id = some tab → (tab.layout.collectLeaves.map Pane.id).Nodup) (id : String) :
    ((livePanes hostId s.tabs.entries).foldl (fun acc p => unmarkPane acc p.1 p.2) (markHostTerminated s hostId .hostRemoved)).tabs.get? id =
        s.tabs.get? id ∧
      ((livePanes hostId s.tabs.entries).foldl (fun acc p => unmarkPane acc p.1 p.2) (markHostTerminated s hostId .hostRemoved)).tabOrder =
        s.tabOrder := by
  have hfold : ∀ (l : List (String × String)), (∀ p ∈ l, ∃ tab pane, s.tabs.get? p.1 = some tab ∧ pane ∈ tab.layout.collectLeaves ∧
      isLivePane hostId pane.content = true ∧ pane.id = p.2) → ∀ (cleared : List (String × String)) (t : TabState),
        Unmarking hostId s.tabs cleared t → Unmarking hostId s.tabs (l.reverse ++ cleared) (l.foldl (fun acc p => unmarkPane acc p.1 p.2) t) ∧
          (l.foldl (fun acc p => unmarkPane acc p.1 p.2) t).tabOrder = t.tabOrder := by
    intro l
    induction l with
    | nil => exact fun _ _ _ h => ⟨h, rfl⟩
    | cons p l ih =>
      intro hl cleared t h
      obtain ⟨tabId, paneId⟩ := p
      obtain ⟨⟨tab, pane, htab, hpane, hlive, hid⟩, hrecorded⟩ := List.forall_mem_cons.1 hl
      obtain rfl : pane.id = paneId := hid
      obtain ⟨hstep, horder⟩ := h.unmarkPane htab (hpanes tabId tab htab) hpane hlive
      obtain ⟨hrest, horder'⟩ := ih hrecorded _ _ hstep
      rw [List.reverse_cons, List.append_assoc, List.singleton_append, List.foldl_cons]
      exact ⟨hrest, horder'.trans horder⟩
  have hlive : ∀ p ∈ livePanes hostId s.tabs.entries, ∃ tab pane, s.tabs.get? p.1 = some tab ∧ pane ∈ tab.layout.collectLeaves ∧
      isLivePane hostId pane.content = true ∧ pane.id = p.2 := by
    intro p hp
    obtain ⟨⟨tabId, tab⟩, he, hp⟩ := List.mem_flatMap.1 hp
    obtain ⟨pane, hpane, rfl⟩ := List.mem_map.1 hp
    obtain ⟨hpane, hlive⟩ := List.mem_filter.1 hpane
    exact ⟨tab, pane, (lookup_eq_some s.tabs.nodup).2 he, hpane, hlive, rfl⟩
  obtain ⟨hdone, horder⟩ := hfold _ hlive [] _ (marked_unmarking s)
  refine ⟨?_, horder⟩
  rw [hdone id]
  cases htab : s.tabs.get? id with
  | none => rfl
  | some tab =>
    have hcontent : tab.layout.mapPanes (partly hostId id ((livePanes hostId s.tabs.entries).reverse ++ [])) = tab.layout := by
      refine Eq.trans (PaneLayout.mapPanes_congr _ fun pane hpane => if_neg ?_) tab.layout.mapPanes_content
      rintro ⟨hlive, hnot⟩
      refine hnot ?_
      rw [List.append_nil, List.mem_reverse]
      exact List.mem_flatMap.2 ⟨(id, tab), mem_of_lookup htab, List.mem_map.2 ⟨pane, List.mem_filter.2 ⟨hpane, hlive⟩, rfl⟩⟩
    rw [Option.map_some, hcontent]

end Marked

end Purdex.Lifecycle
