/-
What is reported of one session of one host, and what it may touch: its own notification, its own tab, its own socket, and
the entries of its own host.
-/
import Mathlib.Data.Fintype.EquivFin
import Purdex.Client.Notifications
import Purdex.Client.Streams

namespace Purdex.Client

open Hosts Json Nav Panes RelayManager

/-! ## Notifications and clicks -/

/-- What is told of a session is told as that session of that host, whose tabs are those that show it. -/
def ToldAsOwn (tabs : Tabs) (hostId sessionCode : String) : Prop :=
  ∀ (d : Desk) (event : NormalizedEvent) (hasTab : Bool), d.stores.tabStore.tabs = tabs →
    (hasTab = true ↔ ∃ id, IsFor tabs hostId sessionCode id) →
      d.dispatch (compositeKey hostId sessionCode) event =
        d.dispatchAs (compositeKey hostId sessionCode) hostId sessionCode hasTab event

/-- A click on what was told of a session goes to a tab that shows it, or to none. -/
def ClicksOwn (tabs : Tabs) (hostId sessionCode : String) : Prop :=
  ∀ (d d' : Desk) (event : NormalizedEvent) (n : Shown) (newTabId newPaneId id : String),
    (d.dispatch (compositeKey hostId sessionCode) event).1 = some n → d'.stores.tabStore.tabs = tabs → tabs.get? newTabId = none →
      (d'.handleNotificationClick newTabId newPaneId n.hostId n.sessionCode).stores.tabStore.activeTabId = some id →
        d'.stores.tabStore.activeTabId = some id ∨
          IsFor (d'.handleNotificationClick newTabId newPaneId n.hostId n.sessionCode).stores.tabStore.tabs hostId sessionCode id

theorem dispatchAs_address {d : Desk} {key hostId sessionCode : String} {hasTab : Bool} {event : NormalizedEvent} {n : Shown}
    (h : (d.dispatchAs key hostId sessionCode hasTab event).1 = some n) : n.hostId = hostId ∧ n.sessionCode = sessionCode := by
  unfold Desk.dispatchAs at h
  simp only at h
  split at h
  · cases h
  · split at h
    · cases h
    · split at h
      · cases h
      · simp only at h
        split at h
        · cases h
        · cases h
          exact ⟨rfl, rfl⟩

/-- A desk where everything is told. -/
def tellingDesk (tabs : Tabs) (key : String) : Desk where
  stores := ⟨⟨tabs, [], none, []⟩, ⟨[], none⟩⟩
  sessions := .empty
  lastEvents := .empty
  unread := .empty
  agents := Record.empty.set "cc" ⟨true, .empty, true, false⟩
  seen := Record.empty.set key 0
  debounce := ⟨[], 0⟩
  now := 0
  hasFocus := false
  platform := .electron
  t _ _ := ""

def waitingEvent : NormalizedEvent := ⟨"cc", "waiting", "Stop", 1, ⟨none, false, none, none, none, none, none⟩⟩

/-- What passes all filters is shown. -/
theorem dispatchAs_shown {d : Desk} {key hostId sessionCode : String} {hasTab : Bool} {event : NormalizedEvent}
    (hdue : (shouldDispatch d.seen key event.broadcastTs).1 = true)
    (hnotify : (shouldNotify
      { status := event.status
        eventName := event.rawEventName
        compositeKey := key
        focusedCompositeKey := (getActiveSessionInfo d.stores.tabStore).elim "" fun active => compositeKey active.1 active.2
        hasTab
        settings := getSettingsForAgent d.agents event.agentType
        notificationSilent := event.detail.notificationSilent
        errorString := event.detail.error.getD "" } d.hasFocus d.now d.debounce).1 = true)
    (hcontent : ∀ name, ∃ content, buildNotificationContent event.rawEventName event.detail name d.t = some content)
    (hplatform : d.platform ≠ .none) : ∃ n, (d.dispatchAs key hostId sessionCode hasTab event).1 = some n := by
  obtain ⟨content, hc⟩ := hcontent
    ((truthy ((((d.sessions.get? hostId).getD []).find? (·.code = sessionCode)).map (·.name))).getD sessionCode)
  unfold Desk.dispatchAs
  simp [hdue, hnotify, hc, hplatform]

theorem tellingDesk_tells (tabs : Tabs) (key hostId sessionCode : String) (hasTab : Bool) :
    ∃ n, ((tellingDesk tabs key).dispatchAs key hostId sessionCode hasTab waitingEvent).1 = some n := by
  have hsettings : getSettingsForAgent (tellingDesk tabs key).agents waitingEvent.agentType = ⟨true, .empty, true, false⟩ := by
    simp [getSettingsForAgent, tellingDesk, waitingEvent, Record.get?_set]
  refine dispatchAs_shown ?_ ?_ (fun name => ⟨_, rfl⟩) nofun
  · simp [shouldDispatch, tellingDesk, waitingEvent, Record.get?_set]
  · have hname : normalizeEventName "Stop" = "Stop" := rfl
    rw [hsettings]
    simp [shouldNotify, hname, waitingEvent, tellingDesk]

theorem click_found {d : Desk} {hostId sessionCode tabId newTabId newPaneId : String}
    (h : findTabBySessionCode d.stores.tabStore.tabs sessionCode = some tabId) :
    (d.handleNotificationClick newTabId newPaneId hostId sessionCode).stores.tabStore = d.stores.tabStore.setActiveTab (some tabId) := by
  unfold Desk.handleNotificationClick
  simp only [h]

theorem setActiveTab_tabs (s : TabState) (id : String) : (s.setActiveTab (some id)).tabs = s.tabs := by
  unfold TabState.setActiveTab
  simp only
  split
  · rfl
  · split <;> rfl

theorem setActiveTab_active {s : TabState} {id id' : String} (h : (s.setActiveTab (some id)).activeTabId = some id') :
    s.activeTabId = some id' ∨ id' = id := by
  unfold TabState.setActiveTab at h
  simp only at h
  split at h
  · exact .inl h
  · split at h
    · exact .inl h
    · exact .inr (Option.some.inj h).symm

theorem isFor_new {s : TabState} {newTabId newPaneId : String} {c : TmuxSessionContent} (hnew : s.tabs.get? newTabId = none)
    {hostId sessionCode : String} (hhost : c.hostId = hostId) (hcode : c.sessionCode = sessionCode) :
    IsFor ((s.addTab (createTab newTabId newPaneId (.tmuxSession c)) none).setActiveTab (some newTabId)).tabs hostId sessionCode
      newTabId := by
  refine ⟨createTab newTabId newPaneId (.tmuxSession c), c, ?_, rfl, hhost, hcode⟩
  rw [setActiveTab_tabs]
  unfold TabState.addTab
  have hno : ¬(s.tabs.get? (createTab newTabId newPaneId (.tmuxSession c)).id).isSome = true := by
    change ¬(s.tabs.get? newTabId).isSome = true
    rw [hnew]
    nofun
  rw [if_neg hno]
  change (s.tabs.set newTabId _).get? newTabId = _
  rw [Record.get?_set, if_pos rfl]

theorem clicksOwn_of {tabs : Tabs} {hostId sessionCode : String} (hcolon : ':' ∉ hostId.toList)
    (hfirst : ∀ id, findTabBySessionCode tabs sessionCode = some id → IsFor tabs hostId sessionCode id) :
    ClicksOwn tabs hostId sessionCode := by
  intro d d' event n newTabId newPaneId id htold htabs hfresh hactive
  obtain ⟨hhost, hcode⟩ := dispatchAs_address htold
  rw [decompose_compositeKey hcolon] at hhost hcode
  subst hhost hcode
  cases hfind : findTabBySessionCode d'.stores.tabStore.tabs n.sessionCode with
  | some tabId =>
    rw [click_found hfind] at hactive ⊢
    refine (setActiveTab_active hactive).imp_right ?_
    rintro rfl
    rw [setActiveTab_tabs, htabs]
    exact hfirst _ (htabs ▸ hfind)
  | none =>
    unfold Desk.handleNotificationClick at hactive ⊢
    simp only [hfind] at hactive ⊢
    split at hactive
    · rename_i hreopen
      have hfree : d'.stores.tabStore.tabs.get? newTabId = none := by
        rw [htabs]
        exact hfresh
      simp only [if_pos hreopen]
      rcases setActiveTab_active hactive with hbefore | rfl
      · unfold TabState.addTab at hbefore
        split at hbefore
        · exact .inl hbefore
        · cases hold : d'.stores.tabStore.activeTabId with
          | some old =>
            rw [hold] at hbefore
            exact .inl hbefore
          | none =>
            rw [hold] at hbefore
            cases hbefore
            exact .inr (isFor_new hfree rfl rfl)
      · exact .inr (isFor_new hfree rfl rfl)
    · exact .inl hactive

theorem toldAsOwn_of {tabs : Tabs} {hostId sessionCode : String} (hcolon : ':' ∉ hostId.toList)
    (hfirst : ∀ id, findTabBySessionCode tabs sessionCode = some id → IsFor tabs hostId sessionCode id) :
    ToldAsOwn tabs hostId sessionCode := by
  intro d event hasTab htabs hhas
  have hsame : (findTabBySessionCode tabs sessionCode).isSome = hasTab := by
    rw [Bool.eq_iff_iff, hhas]
    constructor
    · intro hsome
      obtain ⟨id, hid⟩ := Option.isSome_iff_exists.1 hsome
      exact ⟨id, hfirst id hid⟩
    · rintro ⟨id, hid⟩
      exact findTab_isSome hid
  unfold Desk.dispatch
  rw [decompose_compositeKey hcolon, htabs, hsame]

/-- Notifications and clicks keep to the session exactly where the id of the host has no colon and the first tab that shows
the code shows it of that host. -/
theorem toldAndClicked_iff {tabs : Tabs} {hostId sessionCode : String} :
    ToldAsOwn tabs hostId sessionCode ∧ ClicksOwn tabs hostId sessionCode ↔
      ':' ∉ hostId.toList ∧ ∀ id, findTabBySessionCode tabs sessionCode = some id → IsFor tabs hostId sessionCode id := by
  refine ⟨?_, fun ⟨hcolon, hfirst⟩ => ⟨toldAsOwn_of hcolon hfirst, clicksOwn_of hcolon hfirst⟩⟩
  rintro ⟨htold, hclicks⟩
  classical
  have hequal := htold (tellingDesk tabs (compositeKey hostId sessionCode)) waitingEvent
    (decide (∃ id, IsFor tabs hostId sessionCode id)) rfl decide_eq_true_iff
  obtain ⟨n, hn⟩ := tellingDesk_tells tabs (compositeKey hostId sessionCode) hostId sessionCode
    (decide (∃ id, IsFor tabs hostId sessionCode id))
  obtain ⟨hhost, hcode⟩ := dispatchAs_address hn
  have hn' := (congrArg Prod.fst hequal).trans hn
  obtain ⟨hhost', hcode'⟩ := dispatchAs_address hn'
  have hcolon : ':' ∉ hostId.toList :=
    decompose_compositeKey_iff.1 (Prod.ext (hhost'.symm.trans hhost) (hcode'.symm.trans hcode))
  refine ⟨hcolon, fun id hfind => ?_⟩
  -- the click of someone who is in no tab
  obtain ⟨fresh, hfresh⟩ : ∃ fresh, tabs.get? fresh = none := by
    obtain ⟨fresh, hnot⟩ := Infinite.exists_notMem_finset tabs.keys.toFinset
    exact ⟨fresh, Record.get?_eq_none (by simpa using hnot)⟩
  have hclick := hclicks (tellingDesk tabs (compositeKey hostId sessionCode)) (tellingDesk tabs (compositeKey hostId sessionCode))
    waitingEvent n fresh fresh id hn' rfl hfresh
  rw [hcode] at hclick
  rw [click_found hfind, setActiveTab_tabs] at hclick
  obtain ⟨tab, c, htab, -⟩ := findTab_some hfind
  refine (hclick ?_).resolve_left nofun
  unfold TabState.setActiveTab
  have hsome : ((tellingDesk tabs (compositeKey hostId sessionCode)).stores.tabStore.tabs.get? id).isNone = false := by
    change (tabs.get? id).isNone = false
    rw [htab]
    rfl
  simp only [hsome]
  rfl

/-! ## Sockets -/

/-- A socket for the session's relay is on the endpoint that its host had when the relay connected, and for its code; and it is
kept as the session's. -/
structure SocketsOwn (events : List Event) (hostId sessionCode : String) : Prop where
  opened : ∀ o ∈ (run events).opened, o.pending.key = compositeKey hostId sessionCode →
    o.pending.hostId = hostId ∧ o.pending.sessionCode = sessionCode ∧
      ∃ hostId' sessionCode' hosts, Event.setRelayStatus hostId' sessionCode' true hosts ∈ events ∧
        compositeKey hostId' sessionCode' = compositeKey hostId sessionCode ∧
          ∀ host, hosts.hosts.lookup hostId = some host → o.pending.wsBase = "ws://" ++ host.ip ++ ":" ++ toString host.port
  stored : ∀ i ticket p, (run events).pendingFetches[i]? = some p → p.key = compositeKey hostId sessionCode →
    ((run events).store.relayStatus.get? p.key).getD false = true →
      (((run events).onTicket i ticket).store.sessions.get? (compositeKey hostId sessionCode)).bind (·.conn) =
          some (run events).opened.length ∧
        ∀ key, key ≠ compositeKey hostId sessionCode →
          ((run events).onTicket i ticket).store.sessions.get? key = (run events).store.sessions.get? key

theorem getWsBase_of_lookup {s : HostState} {hostId : HostId} {host : HostConfig} (h : s.hosts.lookup hostId = some host) :
    s.getWsBase hostId = "ws://" ++ host.ip ++ ":" ++ toString host.port := by
  simp [HostState.getWsBase, HostState.addressed, h]

theorem socketsOwn_of {hostId : String} (hcolon : ':' ∉ hostId.toList) (events : List Event) (sessionCode : String) :
    SocketsOwn events hostId sessionCode := by
  have hfrom := fromEvents_run events
  constructor
  · intro o ho hkey
    obtain ⟨hostId', sessionCode', hosts, hevent, hp⟩ := hfrom.opened o ho
    rw [hp] at hkey ⊢
    replace hkey : compositeKey hostId' sessionCode' = compositeKey hostId sessionCode := hkey
    rw [hkey]
    unfold Pending.of
    rw [decompose_compositeKey hcolon]
    exact ⟨rfl, rfl, hostId', sessionCode', hosts, hevent, hkey, fun host hhost => getWsBase_of_lookup hhost⟩
  · intro i ticket p hp hkey hconnected
    obtain ⟨hostId', sessionCode', hosts, -, hof⟩ := hfrom.pending p (List.mem_of_getElem? hp)
    have haddress : compositeKey p.hostId p.sessionCode = compositeKey hostId sessionCode := by
      rw [hof] at hkey ⊢
      replace hkey : compositeKey hostId' sessionCode' = compositeKey hostId sessionCode := hkey
      unfold Pending.of
      rw [hkey, decompose_compositeKey hcolon]
    unfold onTicket
    rw [hp]
    simp only [hconnected, Bool.true_eq_false, if_false]
    constructor
    · change (((run events).store.sessions.set (compositeKey p.hostId p.sessionCode) _).get? _).bind _ = _
      rw [haddress, Record.get?_set, if_pos rfl]
      rfl
    · intro key hne
      change ((run events).store.sessions.set (compositeKey p.hostId p.sessionCode) _).get? key = _
      rw [haddress, Record.get?_set, if_neg hne]

/-! ## Clearing a host -/

/-- There is something of the session in the store. -/
def Kept (s : StreamStore) (key : String) : Prop :=
  (s.sessions.get? key).isSome ∨ (s.relayStatus.get? key).isSome ∨ (s.handoffProgress.get? key).isSome

/-- A clear takes all entries of the host's sessions and no others. -/
def ClearsOwn (m : RelayManager) (hostId : String) : Prop :=
  ∀ (hosts : HostState) (hostId' sessionCode : String), ':' ∉ sessionCode.toList →
    (hostId' = hostId → ¬Kept (m.step (.clearHost hostId hosts)).store (compositeKey hostId' sessionCode)) ∧
    (hostId' ≠ hostId →
      (m.step (.clearHost hostId hosts)).store.sessions.get? (compositeKey hostId' sessionCode) =
          m.store.sessions.get? (compositeKey hostId' sessionCode) ∧
        (m.step (.clearHost hostId hosts)).store.relayStatus.get? (compositeKey hostId' sessionCode) =
          m.store.relayStatus.get? (compositeKey hostId' sessionCode) ∧
        (m.step (.clearHost hostId hosts)).store.handoffProgress.get? (compositeKey hostId' sessionCode) =
          m.store.handoffProgress.get? (compositeKey hostId' sessionCode))

/-- No session that has entries is of a host whose id begins with this one and a colon, and no session of this one has a relay. -/
def ClearsApart (m : RelayManager) (hostId : String) : Prop :=
  ∀ hostId' sessionCode, ':' ∉ sessionCode.toList →
    (hostId' ≠ hostId → Kept m.store (compositeKey hostId' sessionCode) → ¬OfHost hostId hostId') ∧
    (hostId' = hostId → (m.store.relayStatus.get? (compositeKey hostId' sessionCode)).isSome = false)

theorem clearsOwn_iff {m : RelayManager} (hprev : m.prevRelay = m.store.relayStatus) (s : HostState) (hostId : String) :
    ClearsOwn m hostId ↔ ClearsApart m hostId := by
  constructor
  · intro h hostId' sessionCode hcode
    obtain ⟨hstatus, hprogress, hsessions, hback⟩ := clearHost_spec hprev hostId s (compositeKey hostId' sessionCode)
    obtain ⟨hown, hother⟩ := h s hostId' sessionCode hcode
    constructor
    · intro hne hkept hof
      have hin : OfHost hostId (compositeKey hostId' sessionCode) := (ofHost_compositeKey hcode).2 (.inr hof)
      obtain ⟨hsessions', hstatus', hprogress'⟩ := hother hne
      rw [if_pos hin] at hstatus hprogress
      have hnostatus : (m.store.relayStatus.get? (compositeKey hostId' sessionCode)) = none := hstatus'.symm.trans hstatus
      have hnosession := hsessions fun hc => by simp [hnostatus] at hc
      rw [if_pos hin, hsessions'] at hnosession
      rw [hprogress'] at hprogress
      rcases hkept with hk | hk | hk
      · simp [hnosession] at hk
      · simp [hnostatus] at hk
      · simp [hprogress] at hk
    · intro heq
      refine Bool.eq_false_iff.2 fun hsome => hown heq (.inl (hback ⟨?_, hsome⟩))
      exact (ofHost_compositeKey hcode).2 (.inl heq.symm)
  · intro h hosts hostId' sessionCode hcode
    obtain ⟨hstatus, hprogress, hsessions, -⟩ := clearHost_spec hprev hostId hosts (compositeKey hostId' sessionCode)
    obtain ⟨hother, hrelay⟩ := h hostId' sessionCode hcode
    constructor
    · intro heq
      have hin : OfHost hostId (compositeKey hostId' sessionCode) := (ofHost_compositeKey hcode).2 (.inl heq.symm)
      have hno := hsessions fun hc => by simp [hrelay heq] at hc
      rw [if_pos hin] at hno hstatus hprogress
      unfold Kept
      simp [hno, hstatus, hprogress]
    · intro hne
      by_cases hin : OfHost hostId (compositeKey hostId' sessionCode)
      · have hof : OfHost hostId hostId' := ((ofHost_compositeKey hcode).1 hin).resolve_left fun heq => hne heq.symm
        have hnone : ¬Kept m.store (compositeKey hostId' sessionCode) := fun hkept => hother hne hkept hof
        unfold Kept at hnone
        simp only [not_or, Bool.not_eq_true, Option.isSome_eq_false_iff, Option.isNone_iff_eq_none] at hnone
        obtain ⟨hs, hr, hp⟩ := hnone
        have hno := hsessions fun hc => by simp [hr] at hc
        rw [if_pos hin] at hno hstatus hprogress
        exact ⟨hno.trans hs.symm, hstatus.trans hr.symm, hprogress.trans hp.symm⟩
      · have hno := hsessions fun hc => hin hc.1
        rw [if_neg hin] at hno hstatus hprogress
        exact ⟨hno, hstatus, hprogress⟩

/-! ## All of it -/

structure OwnOnly (events : List Event) (tabs : Tabs) (hostId sessionCode : String) : Prop where
  told : ToldAsOwn tabs hostId sessionCode
  clicks : ClicksOwn tabs hostId sessionCode
  sockets : SocketsOwn events hostId sessionCode
  clears : ClearsOwn (run events) hostId

/-- What is reported of a session touches nothing else exactly where the id of its host has no colon, the first tab that shows
its code shows it of that host, and a clear of the host meets neither sessions of hosts whose ids begin with its own nor a relay. -/
theorem own_only_iff (events : List Event) (tabs : Tabs) (hostId sessionCode : String) :
    OwnOnly events tabs hostId sessionCode ↔
      ':' ∉ hostId.toList ∧ (∀ id, findTabBySessionCode tabs sessionCode = some id → IsFor tabs hostId sessionCode id) ∧
        ClearsApart (run events) hostId := by
  have hclears := clearsOwn_iff (prevRelay_run events) (createDefaultState "") hostId
  constructor
  · intro h
    obtain ⟨hcolon, hfirst⟩ := toldAndClicked_iff.1 ⟨h.told, h.clicks⟩
    exact ⟨hcolon, hfirst, hclears.1 h.clears⟩
  · rintro ⟨hcolon, hfirst, hapart⟩
    obtain ⟨htold, hclicks⟩ := toldAndClicked_iff.2 ⟨hcolon, hfirst⟩
    exact ⟨htold, hclicks, socketsOwn_of hcolon events sessionCode, hclears.2 hapart⟩

/-- The id of a daemon: its notifications are addressed to the host `mlab`. -/
theorem colon_id_misaddressed : ¬OwnOnly [] .empty "mlab:abc123" "dev001" := fun h =>
  absurd (toldAndClicked_iff.1 ⟨h.told, h.clicks⟩).1 (by decide)

end Purdex.Client
