/-
Deleting a host with everything of it that is in the stores, and the closure that takes the deletion back.
-/
import Purdex.Hosts.Cascade
import Purdex.Nav.Navigation

namespace Purdex.Lifecycle

open Json Nav Panes
open Purdex.Hosts (HostId HostState)

/-! ## The stores -/

/-- A key that begins with the id of the host and a colon. -/
def byHost (hostId : HostId) (k : String) : Bool := (hostId ++ ":").toList.isPrefixOf k.toList

structure SessionState where
  sessions : Record (List Raw)
  activeHostId : Option HostId
  activeCode : Option String

def SessionState.replaceHost (s : SessionState) (hostId : HostId) (sessions : List Raw) : SessionState :=
  { s with sessions := s.sessions.set hostId sessions }

def SessionState.removeHost (s : SessionState) (hostId : HostId) : SessionState where
  sessions := s.sessions.restrict (· ≠ hostId)
  activeHostId := if s.activeHostId = some hostId then none else s.activeHostId
  activeCode := if s.activeHostId = some hostId then none else s.activeCode

/-- The settings of the modules, by host. -/
abbrev HostSettings := Record (Record Raw)

def HostSettings.clearHost (s : HostSettings) (hostId : HostId) : HostSettings := s.restrict (· ≠ hostId)

inductive AgentStatus where
  | running
  | waiting
  | idle
  | error
  deriving Repr, DecidableEq

structure AgentState where
  statuses : Record AgentStatus
  agentTypes : Record String
  models : Record String
  subagents : Record (List Raw)
  lastEvents : Record Raw
  oscTitles : Record String
  ccStatus : Record Raw
  unread : Record Bool

/-- `omitKeys` with the keys of a host. -/
def omitHost {α : Type} (hostId : HostId) (r : Record α) : Record α := r.restrict fun k => !byHost hostId k

def keepHost {α : Type} (hostId : HostId) (r : Record α) : Record α := r.restrict (byHost hostId)

def AgentState.removeHost (s : AgentState) (hostId : HostId) : AgentState where
  statuses := omitHost hostId s.statuses
  agentTypes := omitHost hostId s.agentTypes
  models := omitHost hostId s.models
  subagents := omitHost hostId s.subagents
  lastEvents := omitHost hostId s.lastEvents
  oscTitles := omitHost hostId s.oscTitles
  ccStatus := omitHost hostId s.ccStatus
  unread := omitHost hostId s.unread

structure SessionInfo where
  ccSessionId : String
  model : String
  deriving Repr, DecidableEq

/-- A connection is told by a number. -/
structure PerSessionState where
  messages : List Raw
  pendingControlRequests : List Raw
  isStreaming : Bool
  conn : Option Nat
  sessionInfo : SessionInfo
  cost : ℚ

def PerSessionState.withoutConn (s : PerSessionState) : PerSessionState := { s with conn := none }

structure StreamStore where
  sessions : Record PerSessionState
  relayStatus : Record Bool
  handoffProgress : Record String

/-- The connections are closed as well. -/
def StreamStore.clearHost (s : StreamStore) (hostId : HostId) : StreamStore where
  sessions := omitHost hostId s.sessions
  relayStatus := omitHost hostId s.relayStatus
  handoffProgress := omitHost hostId s.handoffProgress

structure AppStores where
  hostStore : HostState
  sessionStore : SessionState
  hostSettings : HostSettings
  agentStore : AgentState
  streamStore : StreamStore
  nav : Stores

/-! ## Panes of a host -/

def isHostPane (hostId : HostId) : PaneContent → Bool
  | .tmuxSession c => c.hostId = hostId
  | _ => false

/-- A pane of the host whose session has not ended. -/
def isLivePane (hostId : HostId) : PaneContent → Bool
  | .tmuxSession c => c.hostId = hostId ∧ c.terminated = none
  | _ => false

def hasHostPane (hostId : HostId) (tab : Tab) : Bool := tab.layout.collectLeaves.any fun pane => isHostPane hostId pane.content

/-- `markHostPanesInLayout` on one pane. -/
def markPane (hostId : HostId) (reason : TerminatedReason) : PaneContent → PaneContent
  | .tmuxSession c => if c.hostId = hostId ∧ c.terminated = none then .tmuxSession { c with terminated := some reason } else .tmuxSession c
  | content => content

def markHostTerminated (s : TabState) (hostId : HostId) (reason : TerminatedReason) : TabState :=
  { s with tabs := Tabs.mapContent s.tabs (markPane hostId reason) }

def setPaneContent (s : TabState) (tabId paneId : String) (content : PaneContent) : TabState :=
  match s.tabs.get? tabId with
  | none => s
  | some tab => { s with tabs := s.tabs.set tabId { tab with layout := tab.layout.updatePaneInLayout paneId content } }

/-! ## The cascade -/

structure Closing where
  nav : Stores
  closedTabs : List Tab
  tabWorkspaces : List (String × String)

/-- Every tab with a pane of the host is remembered and closed. One that is locked stays. -/
def closeHostTabs (hostId : HostId) (entries : List (String × Tab)) (nav : Stores) : Closing :=
  entries.foldl (fun acc e =>
    if hasHostPane hostId e.2 then
      { nav := acc.nav.closeTabInWorkspace e.1
        closedTabs := acc.closedTabs ++ [e.2]
        tabWorkspaces := acc.tabWorkspaces ++ ((acc.nav.workspaceStore.findWorkspaceByTab e.1).map fun ws => (e.1, ws.id)).toList }
    else acc) ⟨nav, [], []⟩

/-- The panes that will be marked. -/
def livePanes (hostId : HostId) (entries : List (String × Tab)) : List (String × String) :=
  entries.flatMap fun e => (e.2.layout.collectLeaves.filter fun pane => isLivePane hostId pane.content).map fun pane => (e.1, pane.id)

/-- What the closure of a deletion remembers. -/
structure Snapshot where
  hosts : Hosts.Snapshot
  sessions : Option (List Raw)
  hostSettings : Option (Record Raw)
  agentEvents : Record Raw
  agentStatuses : Record AgentStatus
  agentUnread : Record Bool
  agentModels : Record String
  streamSessions : Record PerSessionState
  closeTabs : Bool
  closedTabs : List Tab
  tabWorkspaces : List (String × String)
  terminatedTabPaneIds : List (String × String)

/-- The stores behind a deletion, with what is remembered of one that was not refused. -/
def deleteHostCascade (hostId : HostId) (closeTabs : Bool) (w : AppStores) : AppStores × Option Snapshot :=
  match Hosts.deleteHostCascade hostId w.hostStore with
  | (_, none) => (w, none)
  | (hostStore, some hosts) =>
    let entries := w.nav.tabStore.tabs.entries
    let closing := if closeTabs then closeHostTabs hostId entries w.nav
      else ⟨{ w.nav with tabStore := markHostTerminated w.nav.tabStore hostId .hostRemoved }, [], []⟩
    ({ hostStore := hostStore
       sessionStore := w.sessionStore.removeHost hostId
       hostSettings := w.hostSettings.clearHost hostId
       agentStore := w.agentStore.removeHost hostId
       streamStore := w.streamStore.clearHost hostId
       nav := closing.nav },
     some {
       hosts := hosts
       sessions := w.sessionStore.sessions.get? hostId
       hostSettings := w.hostSettings.get? hostId
       agentEvents := keepHost hostId w.agentStore.lastEvents
       agentStatuses := keepHost hostId w.agentStore.statuses
       agentUnread := keepHost hostId w.agentStore.unread
       agentModels := keepHost hostId w.agentStore.models
       streamSessions := (keepHost hostId w.streamStore.sessions).mapValues PerSessionState.withoutConn
       closeTabs := closeTabs
       closedTabs := closing.closedTabs
       tabWorkspaces := closing.tabWorkspaces
       terminatedTabPaneIds := if closeTabs then [] else livePanes hostId entries })

/-! ## The closure -/

/-- Only where there were events anything of the agents comes back. -/
def Snapshot.restoreAgent (x : Snapshot) (s : AgentState) : AgentState :=
  if x.agentEvents.keys = [] then s
  else { s with
    lastEvents := s.lastEvents.overlay x.agentEvents
    statuses := s.statuses.overlay x.agentStatuses
    unread := s.unread.overlay x.agentUnread
    models := s.models.overlay x.agentModels }

def Snapshot.restoreStream (x : Snapshot) (s : StreamStore) : StreamStore :=
  if x.streamSessions.keys = [] then s else { s with sessions := s.sessions.overlay x.streamSessions }

/-- The tabs come back unless they are there, each at the end of the order. -/
def restoreTabs (closedTabs : List Tab) (s : TabState) : TabState :=
  closedTabs.foldl (fun acc tab => if (s.tabs.get? tab.id).isNone then acc.addTab tab none else acc) s

/-- A tab that is there goes into the workspace that it was in, if there still is one. -/
def restoreMembership (tabs : Tabs) (tabWorkspaces : List (String × String)) (s : WorkspaceState) : WorkspaceState :=
  tabWorkspaces.foldl (fun acc p =>
    if (∃ ws ∈ s.workspaces, ws.id = p.2) ∧ (tabs.get? p.1).isSome then acc.addTabToWorkspace p.2 p.1 else acc) s

/-- What the deletion has marked in a pane is taken back. -/
def unmarkPane (s : TabState) (tabId paneId : String) : TabState :=
  match s.tabs.get? tabId with
  | none => s
  | some currentTab =>
    currentTab.layout.collectLeaves.foldl (fun acc pane =>
      match pane.content with
      | .tmuxSession c =>
        if pane.id = paneId ∧ c.terminated = some .hostRemoved then setPaneContent acc tabId paneId (.tmuxSession { c with terminated := none })
        else acc
      | _ => acc) s

def Snapshot.restoreNav (x : Snapshot) (nav : Stores) : Stores :=
  if x.closeTabs then
    if x.closedTabs = [] then nav
    else
      let tabStore := restoreTabs x.closedTabs nav.tabStore
      ⟨tabStore, restoreMembership tabStore.tabs x.tabWorkspaces nav.workspaceStore⟩
  else { nav with tabStore := x.terminatedTabPaneIds.foldl (fun s p => unmarkPane s p.1 p.2) nav.tabStore }

/-- Nothing is restored where the id is a host's again. -/
def Snapshot.undo (x : Snapshot) (w : AppStores) : AppStores :=
  if x.hosts.hostId ∈ w.hostStore.hosts then w
  else
    match x.hosts.undo w.hostStore with
    | none => w
    | some hostStore =>
      { hostStore := hostStore
        sessionStore := match x.sessions with
          | none => w.sessionStore
          | some sessions => w.sessionStore.replaceHost x.hosts.hostId sessions
        hostSettings := match x.hostSettings with
          | none => w.hostSettings
          | some settings => w.hostSettings.set x.hosts.hostId settings
        agentStore := x.restoreAgent w.agentStore
        streamStore := x.restoreStream w.streamStore
        nav := x.restoreNav w.nav }

end Purdex.Lifecycle
