/-
Desktop notifications for what agents report: which of them are shown, for whom, and what a click on one does.
-/
import Purdex.Client.Keys
import Purdex.Nav.Navigation

namespace Purdex.Client

open Json Nav Panes

/-! ## What an event brings -/

structure EventDetail where
  error : Option String
  notificationSilent : Bool
  notificationType : Option String
  message : Option String
  toolName : Option String
  lastAssistantMessage : Option String
  errorDetails : Option String

structure NormalizedEvent where
  agentType : String
  status : String
  rawEventName : String
  broadcastTs : Int
  detail : EventDetail

structure NotificationSettings where
  enabled : Bool
  events : Record Bool
  notifyWithoutTab : Bool
  reopenTabOnClick : Bool

def defaultSettings : NotificationSettings := ⟨true, .empty, false, false⟩

def getSettingsForAgent (agents : Record NotificationSettings) (agentType : String) : NotificationSettings :=
  (agents.get? agentType).getD defaultSettings

def normalizeEventName (raw : String) : String :=
  match raw with
  | "PdxNotification" => "Notification"
  | "PdxPermissionRequest" => "PermissionRequest"
  | "PdxStop" => "Stop"
  | "PdxStopFailure" => "StopFailure"
  | _ => raw

/-! ## The text -/

/-- Line feeds in a row become one. -/
def collapseNewlines : List Char → List Char
  | '\n' :: '\n' :: rest => collapseNewlines ('\n' :: rest)
  | c :: rest => c :: collapseNewlines rest
  | [] => []

structure NotificationContent where
  title : String
  body : String

/-- `t` is the translation of a key. -/
def buildNotificationContent (eventName : String) (detail : EventDetail) (sessionName : String)
    (t : String → List (String × String) → String) : Option NotificationContent :=
  let body := match normalizeEventName eventName with
    | "Notification" => some <|
      match truthy detail.message with
      | some message => message
      | none =>
        if detail.notificationType = some "permission_prompt" then t "notification.permission_prompt" []
        else if detail.notificationType = some "elicitation_dialog" then t "notification.elicitation_dialog" []
        else t "notification.fallback.new" []
    | "PermissionRequest" => some <|
      match truthy detail.toolName with
      | some tool => t "notification.permission_request" [("tool", tool)]
      | none => t "notification.fallback.permission" []
    | "Stop" => some ((truthy detail.lastAssistantMessage).getD (t "notification.fallback.stop" []))
    | "StopFailure" =>
      some (((truthy detail.errorDetails).or (truthy detail.error)).getD (t "notification.fallback.stopFailure" []))
    | _ => none
  body.map fun body => ⟨sessionName, String.ofList (collapseNewlines body.toList)⟩

/-! ## Which events are told -/

/-- A session that was never seen is recorded and not told. -/
def shouldDispatch (seen : Record Int) (key : String) (broadcastTs : Int) : Bool × Record Int :=
  match seen.get? key with
  | none => (false, seen.set key broadcastTs)
  | some stored => if broadcastTs ≤ stored then (false, seen) else (true, seen.set key broadcastTs)

/-- The last errors, by session, event and text, each silent until its time. -/
structure Debounce where
  entries : List ((String × String × String) × Int)
  lastSweepAt : Int

def errorNotifyWindow : Int := 60000

def maxDebounceEntries : Nat := 1000

def Debounce.sweep (d : Debounce) (now : Int) : Debounce :=
  if now - d.lastSweepAt ≥ errorNotifyWindow then ⟨d.entries.filter fun e => ¬e.2 < now - 5 * errorNotifyWindow, now⟩ else d

/-- An error is told unless it was within the window before, which then begins anew. -/
def Debounce.tell (d : Debounce) (key : String × String × String) (now : Int) : Bool × Debounce :=
  let d := d.sweep now
  let silenced := (key, now + errorNotifyWindow)
  match d.entries.lookup key with
  | some silentUntil =>
    let renewed := { d with entries := d.entries.map fun e => if e.1 = key then silenced else e }
    (decide ¬now < silentUntil, renewed)
  | none =>
    let entries := if d.entries.length ≥ maxDebounceEntries then d.entries.tail else d.entries
    (true, { d with entries := entries ++ [silenced] })

structure ShouldNotifyParams where
  status : String
  eventName : String
  compositeKey : String
  focusedCompositeKey : String
  hasTab : Bool
  settings : NotificationSettings
  notificationSilent : Bool
  errorString : String

def shouldNotify (params : ShouldNotifyParams) (hasFocus : Bool) (now : Int) (debounce : Debounce) : Bool × Debounce :=
  let eventName := normalizeEventName params.eventName
  if ¬(params.status = "waiting" ∨ params.status = "idle" ∨ params.status = "error") then (false, debounce)
  else if params.notificationSilent then (false, debounce)
  else if params.status = "idle" ∧ eventName = "Notification" then (false, debounce)
  else if ¬params.settings.enabled then (false, debounce)
  else if params.settings.events.get? eventName = some false then (false, debounce)
  else if ¬params.hasTab ∧ ¬params.settings.notifyWithoutTab then (false, debounce)
  else if params.focusedCompositeKey = params.compositeKey ∧ hasFocus then (false, debounce)
  else if params.status = "error" then debounce.tell (params.compositeKey, eventName, params.errorString) now
  else (true, debounce)

/-! ## The dispatcher -/

structure SessionRow where
  code : String
  name : String
  tmuxInstance : Option String

inductive Platform
  | electron
  | web
  | none
  deriving DecidableEq

/-- What the dispatcher reads and writes. -/
structure Desk where
  stores : Stores
  sessions : Record (List SessionRow)
  lastEvents : Record NormalizedEvent
  unread : Record Bool
  agents : Record NotificationSettings
  seen : Record Int
  debounce : Debounce
  now : Int
  hasFocus : Bool
  platform : Platform
  t : String → List (String × String) → String

/-- A notification, and the session that a click on it opens. -/
structure Shown where
  content : NotificationContent
  eventName : String
  broadcastTs : Int
  hostId : String
  sessionCode : String

/-- The session in the first pane of a tab. -/
def primarySession (tab : Tab) : Option TmuxSessionContent :=
  match tab.layout.getPrimaryPane.content with
  | .tmuxSession c => some c
  | _ => none

def findTabBySessionCode (tabs : Tabs) (sessionCode : String) : Option String :=
  (tabs.entries.find? fun e => (primarySession e.2).any (·.sessionCode = sessionCode)).map Prod.fst

/-- The host and the session of the active tab. -/
def getActiveSessionInfo (s : TabState) : Option (String × String) :=
  (((truthy s.activeTabId).bind s.tabs.get?).bind primarySession).map fun c => (c.hostId, c.sessionCode)

namespace Desk

variable (d : Desk)

/-- The dispatcher's loop behind the two things it makes of an event's key. -/
def dispatchAs (key hostId sessionCode : String) (hasTab : Bool) (event : NormalizedEvent) : Option Shown × Desk :=
  let dispatched := shouldDispatch d.seen key event.broadcastTs
  let d := { d with seen := dispatched.2 }
  if dispatched.1 = false then (none, d)
  else
    let notified := shouldNotify
      { status := event.status
        eventName := event.rawEventName
        compositeKey := key
        focusedCompositeKey := (getActiveSessionInfo d.stores.tabStore).elim "" fun active => compositeKey active.1 active.2
        hasTab
        settings := getSettingsForAgent d.agents event.agentType
        notificationSilent := event.detail.notificationSilent
        errorString := event.detail.error.getD "" } d.hasFocus d.now d.debounce
    let d := { d with debounce := notified.2 }
    if notified.1 = false then (none, d)
    else
      let session := ((d.sessions.get? hostId).getD []).find? (·.code = sessionCode)
      let sessionName := (truthy (session.map (·.name))).getD sessionCode
      match buildNotificationContent event.rawEventName event.detail sessionName d.t with
      | none => (none, d)
      | some content => (if d.platform = .none then none else some ⟨content, event.rawEventName, event.broadcastTs, hostId, sessionCode⟩, d)

/-- One event that is new in the agent store. -/
def dispatch (key : String) (event : NormalizedEvent) : Option Shown × Desk :=
  d.dispatchAs key (decompose key).1 (decompose key).2
    (findTabBySessionCode d.stores.tabStore.tabs (decompose key).2).isSome event

/-- A click goes to the tab, or opens one where the settings say so. The ids of a new tab are generated. -/
def handleNotificationClick (newTabId newPaneId hostId sessionCode : String) : Desk :=
  let tabStore := d.stores.tabStore
  let workspaceStore := d.stores.workspaceStore
  let agentType := ((d.lastEvents.get? (compositeKey hostId sessionCode)).map (·.agentType)).getD ""
  let unread := d.unread.restrict (· ≠ compositeKey hostId sessionCode)
  match findTabBySessionCode tabStore.tabs sessionCode with
  | some tabId =>
    let workspaces := match workspaceStore.findWorkspaceByTab tabId with
      | some ws => (workspaceStore.setActiveWorkspace (some ws.id)).setWorkspaceActiveTab ws.id tabId
      | none => workspaceStore.setActiveWorkspace none
    { d with stores := ⟨tabStore.setActiveTab (some tabId), workspaces⟩, unread }
  | none =>
    if (getSettingsForAgent d.agents agentType).reopenTabOnClick then
      let session := ((d.sessions.get? hostId).getD []).find? (·.code = sessionCode)
      let tab := createTab newTabId newPaneId (.tmuxSession
        { hostId, sessionCode
          mode := .stream
          cachedName := (session.map (·.name)).getD ""
          tmuxInstance := (session.bind (·.tmuxInstance)).getD ""
          terminated := none
          rebuild := none })
      let inserted := workspaceStore.insertTab tab.id none none
      let workspaces := inserted.setActiveWorkspace ((inserted.findWorkspaceByTab tab.id).map (·.id))
      { d with stores := ⟨(tabStore.addTab tab none).setActiveTab (some tab.id), workspaces⟩, unread }
    else d

end Desk

/-! ## One host's session -/

/-- The tab's first pane is the session of that code on that host. -/
def IsFor (tabs : Tabs) (hostId sessionCode id : String) : Prop :=
  ∃ tab c, tabs.get? id = some tab ∧ primarySession tab = some c ∧ c.hostId = hostId ∧ c.sessionCode = sessionCode

theorem findTab_some {tabs : Tabs} {sessionCode id : String} (h : findTabBySessionCode tabs sessionCode = some id) :
    ∃ tab c, tabs.get? id = some tab ∧ primarySession tab = some c ∧ c.sessionCode = sessionCode := by
  obtain ⟨⟨id', tab⟩, hfind, rfl⟩ := Option.map_eq_some_iff.1 h
  have hfirst := List.find?_some hfind
  obtain ⟨c, hc, hcode⟩ := (Option.any_eq_true _ _).1 hfirst
  exact ⟨tab, c, (lookup_eq_some tabs.nodup).2 (List.mem_of_find?_eq_some hfind), hc, of_decide_eq_true hcode⟩

theorem findTab_isSome {tabs : Tabs} {hostId sessionCode id : String} (h : IsFor tabs hostId sessionCode id) :
    (findTabBySessionCode tabs sessionCode).isSome := by
  obtain ⟨tab, c, htab, hc, -, hcode⟩ := h
  have hmem : (id, tab) ∈ tabs.entries := (lookup_eq_some tabs.nodup).1 htab
  unfold findTabBySessionCode
  rw [Option.isSome_map, List.find?_isSome]
  exact ⟨_, hmem, (Option.any_eq_true _ _).2 ⟨c, hc, decide_eq_true hcode⟩⟩

end Purdex.Client
