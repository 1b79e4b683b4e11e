/-
The store of the streams, one entry a session, and the hook that opens a socket for a session whose relay connects.
-/
import Purdex.Client.Keys
import Purdex.Hosts.Store
import Purdex.Json.Record

namespace Purdex.Client

open Hosts Json

/-! ## The store -/

/-- What a session has cost is left out. A socket goes by its number. -/
structure PerSessionState where
  messages : List String
  pendingControlRequests : List String
  isStreaming : Bool
  conn : Option Nat
  ccSessionId : String
  model : String

def defaultPerSession : PerSessionState := ⟨[], [], false, none, "", ""⟩

structure StreamStore where
  sessions : Record PerSessionState
  relayStatus : Record Bool
  handoffProgress : Record String

namespace StreamStore

variable (s : StreamStore)

def empty : StreamStore := ⟨.empty, .empty, .empty⟩

/-- The actions on one session differ in `update`. -/
def act (hostId sessionCode : String) (update : PerSessionState → PerSessionState) : StreamStore :=
  let key := compositeKey hostId sessionCode
  { s with sessions := s.sessions.set key (update ((s.sessions.get? key).getD defaultPerSession)) }

def addMessage (hostId sessionCode msg : String) : StreamStore :=
  s.act hostId sessionCode fun cur => { cur with messages := cur.messages ++ [msg] }

def addControlRequest (hostId sessionCode requestId : String) : StreamStore :=
  s.act hostId sessionCode fun cur => { cur with pendingControlRequests := cur.pendingControlRequests ++ [requestId] }

def setStreaming (hostId sessionCode : String) (v : Bool) : StreamStore :=
  s.act hostId sessionCode fun cur => { cur with isStreaming := v }

def setSessionInfo (hostId sessionCode ccSessionId model : String) : StreamStore :=
  s.act hostId sessionCode fun cur => { cur with ccSessionId, model }

def setConn (hostId sessionCode : String) (conn : Option Nat) : StreamStore :=
  s.act hostId sessionCode fun cur => { cur with conn }

def setHandoffProgress (hostId sessionCode progress : String) : StreamStore :=
  { s with handoffProgress := s.handoffProgress.set (compositeKey hostId sessionCode) progress }

def setRelayStatus (hostId sessionCode : String) (connected : Bool) : StreamStore :=
  { s with relayStatus := s.relayStatus.set (compositeKey hostId sessionCode) connected }

def clearSession (hostId sessionCode : String) : StreamStore :=
  { s with sessions := s.sessions.restrict (· ≠ compositeKey hostId sessionCode) }

def clearHost (hostId : String) : StreamStore where
  sessions := s.sessions.restrict fun key => ¬OfHost hostId key
  relayStatus := s.relayStatus.restrict fun key => ¬OfHost hostId key
  handoffProgress := s.handoffProgress.restrict fun key => ¬OfHost hostId key

end StreamStore

inductive StreamMessage
  | assistant (msg : String)
  | user (msg : String)
  | result (hasCost : Bool)
  | controlRequest (requestId : String)
  | init (sessionId model : String)
  | other

def StreamStore.onMessage (s : StreamStore) (hostId sessionCode : String) : StreamMessage → StreamStore
  | .assistant msg | .user msg => s.addMessage hostId sessionCode msg
  | .result hasCost => if hasCost then s.setStreaming hostId sessionCode false else s
  | .controlRequest requestId => s.addControlRequest hostId sessionCode requestId
  | .init sessionId model => s.setSessionInfo hostId sessionCode sessionId model
  | .other => s

/-! ## The hook -/

/-- A ticket on its way, for the key of a relay that connected. -/
structure Pending where
  key : String
  hostId : String
  sessionCode : String
  wsBase : String

/-- A socket on `wsBase`, for a session of this code. -/
structure Opened where
  pending : Pending
  ticket : String

structure RelayManager where
  store : StreamStore
  prevRelay : Record Bool
  pendingFetches : List Pending
  /-- The socket of each key that has one. -/
  activeConns : List (String × Nat)
  opened : List Opened
  /-- The sockets that were asked to close. -/
  closed : List Nat

/-- What is asked for a key: the host and the code are those it comes apart into. -/
def Pending.of (hosts : HostState) (key : String) : Pending :=
  ⟨key, (decompose key).1, (decompose key).2, hosts.getWsBase (decompose key).1⟩

namespace RelayManager

variable (m : RelayManager)

def start : RelayManager := ⟨.empty, .empty, [], [], [], []⟩

/-- A relay connected: the ticket is asked of the host that the key names. -/
def connect (hosts : HostState) (key : String) : RelayManager :=
  if key ∈ m.pendingFetches.map (·.key) then m else { m with pendingFetches := m.pendingFetches ++ [.of hosts key] }

/-- A relay is no longer connected, or there is no word of it any more. -/
def drop (key : String) : RelayManager :=
  { m with
    closed := m.closed ++ (m.activeConns.lookup key).toList
    store := m.store.setConn (decompose key).1 (decompose key).2 none
    activeConns := m.activeConns.filter (·.1 ≠ key) }

/-- One entry of the status that the store has now. -/
def notice (hosts : HostState) (m : RelayManager) (entry : String × Bool) : RelayManager :=
  let wasConnected := (m.prevRelay.get? entry.1).getD false
  if entry.2 = true ∧ wasConnected = false then m.connect hosts entry.1
  else if entry.2 = false ∧ wasConnected = true then m.drop entry.1
  else m

/-- The listener, behind each change of the status. -/
def onRelayStatus (hosts : HostState) : RelayManager :=
  let relayStatus := m.store.relayStatus
  let noticed := relayStatus.entries.foldl (notice hosts) m
  let dropped := (m.prevRelay.keys.filter fun key => (relayStatus.get? key).isNone).foldl drop noticed
  { dropped with prevRelay := relayStatus }

inductive Event
  | setRelayStatus (hostId sessionCode : String) (connected : Bool) (hosts : HostState)
  | clearHost (hostId : String) (hosts : HostState)
  | clearSession (hostId sessionCode : String)
  | act (hostId sessionCode : String) (update : PerSessionState → PerSessionState)
  | setHandoffProgress (hostId sessionCode progress : String)
  | ticket (i : Nat) (ticket : String)
  | ticketFails (i : Nat)
  | message (conn : Nat) (msg : StreamMessage)
  | closes (conn : Nat)

/-- The ticket is for nothing where the relay disconnected meanwhile. -/
def onTicket (i : Nat) (ticket : String) : RelayManager :=
  match m.pendingFetches[i]? with
  | none => m
  | some p =>
    let m := { m with pendingFetches := m.pendingFetches.eraseIdx i }
    if (m.store.relayStatus.get? p.key).getD false = false then m
    else
      let conn := m.opened.length
      { m with
        opened := m.opened ++ [⟨p, ticket⟩]
        store := m.store.setConn p.hostId p.sessionCode (some conn)
        activeConns := m.activeConns.filter (·.1 ≠ p.key) ++ [(p.key, conn)] }

def onClose (conn : Nat) : RelayManager :=
  match m.opened[conn]? with
  | none => m
  | some o =>
    { m with
      store := m.store.setConn o.pending.hostId o.pending.sessionCode none
      activeConns := m.activeConns.filter (·.1 ≠ o.pending.key) }

def onMessage (conn : Nat) (msg : StreamMessage) : RelayManager :=
  match m.opened[conn]? with
  | none => m
  | some o => { m with store := m.store.onMessage o.pending.hostId o.pending.sessionCode msg }

def step (m : RelayManager) : Event → RelayManager
  | .setRelayStatus hostId sessionCode connected hosts =>
    { m with store := m.store.setRelayStatus hostId sessionCode connected }.onRelayStatus hosts
  | .clearHost hostId hosts => { m with store := m.store.clearHost hostId }.onRelayStatus hosts
  | .clearSession hostId sessionCode => { m with store := m.store.clearSession hostId sessionCode }
  | .act hostId sessionCode update => { m with store := m.store.act hostId sessionCode update }
  | .setHandoffProgress hostId sessionCode progress => { m with store := m.store.setHandoffProgress hostId sessionCode progress }
  | .ticket i ticket => m.onTicket i ticket
  | .ticketFails i => { m with pendingFetches := m.pendingFetches.eraseIdx i }
  | .message conn msg => m.onMessage conn msg
  | .closes conn => m.onClose conn

def run (events : List Event) : RelayManager := events.foldl step start

/-! ## What the listener leaves alone -/

section Frame

variable {m}

theorem relayStatus_onMessage (s : StreamStore) (hostId sessionCode : String) (msg : StreamMessage) :
    (s.onMessage hostId sessionCode msg).relayStatus = s.relayStatus := by
  cases msg with
  | result hasCost => cases hasCost <;> rfl
  | _ => rfl

/-- What the listener only reads. -/
structure Noticed (m m' : RelayManager) : Prop where
  relayStatus : m'.store.relayStatus = m.store.relayStatus
  handoffProgress : m'.store.handoffProgress = m.store.handoffProgress
  prevRelay : m'.prevRelay = m.prevRelay
  opened : m'.opened = m.opened

theorem Noticed.refl (m : RelayManager) : Noticed m m := ⟨rfl, rfl, rfl, rfl⟩

theorem Noticed.trans {m m' m'' : RelayManager} (h : Noticed m m') (h' : Noticed m' m'') : Noticed m m'' :=
  ⟨h'.relayStatus.trans h.relayStatus, h'.handoffProgress.trans h.handoffProgress, h'.prevRelay.trans h.prevRelay,
    h'.opened.trans h.opened⟩

theorem noticed_connect (hosts : HostState) (m : RelayManager) (key : String) : Noticed m (m.connect hosts key) := by
  unfold connect
  split
  · exact .refl m
  · exact ⟨rfl, rfl, rfl, rfl⟩

theorem noticed_drop (m : RelayManager) (key : String) : Noticed m (m.drop key) := ⟨rfl, rfl, rfl, rfl⟩

theorem noticed_notice (hosts : HostState) (m : RelayManager) (entry : String × Bool) : Noticed m (notice hosts m entry) := by
  unfold notice
  simp only
  split
  · exact noticed_connect hosts m entry.1
  · split
    · exact noticed_drop m entry.1
    · exact .refl m

theorem noticed_foldl {α : Type} {f : RelayManager → α → RelayManager} (hf : ∀ m a, Noticed m (f m a)) (l : List α) (m : RelayManager) :
    Noticed m (l.foldl f m) := by
  induction l generalizing m with
  | nil => exact .refl m
  | cons a l ih => exact (hf m a).trans (ih _)

/-- The listener ends with the status it was called for. -/
theorem onRelayStatus_spec (m : RelayManager) (hosts : HostState) :
    (m.onRelayStatus hosts).prevRelay = m.store.relayStatus ∧ (m.onRelayStatus hosts).store.relayStatus = m.store.relayStatus ∧
      (m.onRelayStatus hosts).store.handoffProgress = m.store.handoffProgress ∧ (m.onRelayStatus hosts).opened = m.opened := by
  have hnoticed := (noticed_foldl (noticed_notice hosts) m.store.relayStatus.entries m).trans
    (noticed_foldl noticed_drop (m.prevRelay.keys.filter fun key => (m.store.relayStatus.get? key).isNone) _)
  exact ⟨rfl, hnoticed.relayStatus, hnoticed.handoffProgress, hnoticed.opened⟩

end Frame

/-- Between events the listener knows the status as it is. -/
theorem prevRelay_step {m : RelayManager} (h : m.prevRelay = m.store.relayStatus) (event : Event) :
    (m.step event).prevRelay = (m.step event).store.relayStatus := by
  cases event with
  | setRelayStatus hostId sessionCode connected hosts =>
    obtain ⟨hprev, hstatus, -⟩ := onRelayStatus_spec { m with store := m.store.setRelayStatus hostId sessionCode connected } hosts
    exact hprev.trans hstatus.symm
  | clearHost hostId hosts =>
    obtain ⟨hprev, hstatus, -⟩ := onRelayStatus_spec { m with store := m.store.clearHost hostId } hosts
    exact hprev.trans hstatus.symm
  | ticket i ticket =>
    change (m.onTicket i ticket).prevRelay = (m.onTicket i ticket).store.relayStatus
    unfold onTicket
    cases m.pendingFetches[i]? with
    | none => exact h
    | some p =>
      simp only
      split
      · exact h
      · exact h
  | message conn msg =>
    change (m.onMessage conn msg).prevRelay = (m.onMessage conn msg).store.relayStatus
    unfold onMessage
    cases m.opened[conn]? with
    | none => exact h
    | some o => exact h.trans (relayStatus_onMessage _ _ _ msg).symm
  | closes conn =>
    change (m.onClose conn).prevRelay = (m.onClose conn).store.relayStatus
    unfold onClose
    cases m.opened[conn]? with
    | none => exact h
    | some o => exact h
  | clearSession | act | setHandoffProgress | ticketFails => exact h

theorem prevRelay_run (events : List Event) : (run events).prevRelay = (run events).store.relayStatus := by
  have hfold : ∀ (events : List Event) (m : RelayManager), m.prevRelay = m.store.relayStatus →
      (events.foldl step m).prevRelay = (events.foldl step m).store.relayStatus := by
    intro events
    induction events with
    | nil => exact fun _ h => h
    | cons event events ih => exact fun m h => ih _ (prevRelay_step h event)
  exact hfold events start rfl

/-! ## Where sockets come from -/

/-- The fetch is for a relay that was said to be connected, with the hosts as they were then. -/
def AskedIn (events : List Event) (p : Pending) : Prop :=
  ∃ hostId sessionCode hosts, Event.setRelayStatus hostId sessionCode true hosts ∈ events ∧
    p = .of hosts (compositeKey hostId sessionCode)

theorem pending_notice {hosts : HostState} {m : RelayManager} {entry : String × Bool} {p : Pending}
    (h : p ∈ (notice hosts m entry).pendingFetches) :
    p ∈ m.pendingFetches ∨ (entry.2 = true ∧ (m.prevRelay.get? entry.1).getD false = false ∧ p = .of hosts entry.1) := by
  unfold notice at h
  simp only at h
  split at h
  · rename_i hnew
    unfold connect at h
    split at h
    · exact .inl h
    · rcases List.mem_append.1 h with hold | hlast
      · exact .inl hold
      · exact .inr ⟨hnew.1, hnew.2, List.mem_singleton.1 hlast⟩
  · split at h <;> exact .inl h

theorem pending_foldl_notice {hosts : HostState} {p : Pending} (entries : List (String × Bool)) (m : RelayManager)
    (h : p ∈ (entries.foldl (notice hosts) m).pendingFetches) :
    p ∈ m.pendingFetches ∨
      ∃ entry ∈ entries, entry.2 = true ∧ (m.prevRelay.get? entry.1).getD false = false ∧ p = .of hosts entry.1 := by
  induction entries generalizing m with
  | nil => exact .inl h
  | cons entry entries ih =>
    rcases ih _ h with hfirst | ⟨later, hlater, hentry⟩
    · rcases pending_notice hfirst with hold | hnew
      · exact .inl hold
      · exact .inr ⟨entry, List.mem_cons_self, hnew⟩
    · rw [(noticed_notice hosts m entry).prevRelay] at hentry
      exact .inr ⟨later, List.mem_cons_of_mem _ hlater, hentry⟩

theorem pending_foldl_drop (keys : List String) (m : RelayManager) : (keys.foldl drop m).pendingFetches = m.pendingFetches := by
  induction keys generalizing m with
  | nil => rfl
  | cons key keys ih => exact ih _

theorem pending_onRelayStatus {hosts : HostState} {m : RelayManager} {p : Pending} (h : p ∈ (m.onRelayStatus hosts).pendingFetches) :
    p ∈ m.pendingFetches ∨
      ∃ key, m.store.relayStatus.get? key = some true ∧ (m.prevRelay.get? key).getD false = false ∧ p = .of hosts key := by
  change p ∈ ((m.prevRelay.keys.filter fun key => (m.store.relayStatus.get? key).isNone).foldl drop
    (m.store.relayStatus.entries.foldl (notice hosts) m)).pendingFetches at h
  rw [pending_foldl_drop] at h
  refine (pending_foldl_notice _ m h).imp_right ?_
  rintro ⟨⟨key, connected⟩, hentry, rfl, hprev, rfl⟩
  exact ⟨key, (lookup_eq_some m.store.relayStatus.nodup).2 hentry, hprev, rfl⟩

/-- Every fetch and every socket is for a relay that was said to be connected. -/
structure FromEvents (events : List Event) (m : RelayManager) : Prop where
  pending : ∀ p ∈ m.pendingFetches, AskedIn events p
  opened : ∀ o ∈ m.opened, AskedIn events o.pending

theorem fromEvents_step {events : List Event} {m : RelayManager} {event : Event} (h : FromEvents events m)
    (hprev : m.prevRelay = m.store.relayStatus) (hevent : event ∈ events) : FromEvents events (m.step event) := by
  cases event with
  | setRelayStatus hostId sessionCode connected hosts =>
    obtain ⟨-, -, -, hopened⟩ := onRelayStatus_spec { m with store := m.store.setRelayStatus hostId sessionCode connected } hosts
    refine ⟨fun p hp => ?_, fun o ho => h.opened o (hopened ▸ ho)⟩
    rcases pending_onRelayStatus hp with hold | ⟨key, hstatus, hbefore, rfl⟩
    · exact h.pending p hold
    · -- the status of every other key is what the listener knew
      replace hstatus : (m.store.relayStatus.set (compositeKey hostId sessionCode) connected).get? key = some true := hstatus
      rw [Record.get?_set] at hstatus
      by_cases hkey : key = compositeKey hostId sessionCode
      · rw [if_pos hkey] at hstatus
        cases hstatus
        exact ⟨hostId, sessionCode, hosts, hevent, by rw [hkey]⟩
      · rw [if_neg hkey, ← hprev] at hstatus
        rw [hstatus] at hbefore
        cases hbefore
  | clearHost hostId hosts =>
    obtain ⟨-, -, -, hopened⟩ := onRelayStatus_spec { m with store := m.store.clearHost hostId } hosts
    refine ⟨fun p hp => ?_, fun o ho => h.opened o (hopened ▸ ho)⟩
    rcases pending_onRelayStatus hp with hold | ⟨key, hstatus, hbefore, rfl⟩
    · exact h.pending p hold
    · replace hstatus : (m.store.relayStatus.restrict fun key => ¬OfHost hostId key).get? key = some true := hstatus
      rw [Record.get?_restrict, ← hprev] at hstatus
      split at hstatus
      · rw [hstatus] at hbefore
        cases hbefore
      · cases hstatus
  | ticket i ticket =>
    change FromEvents events (m.onTicket i ticket)
    unfold onTicket
    cases hp : m.pendingFetches[i]? with
    | none => exact h
    | some p =>
      have hleft : ∀ q ∈ m.pendingFetches.eraseIdx i, AskedIn events q := fun q hq => h.pending q (List.mem_of_mem_eraseIdx hq)
      simp only
      split
      · exact ⟨hleft, h.opened⟩
      · refine ⟨hleft, fun o ho => ?_⟩
        rcases List.mem_append.1 ho with hold | hlast
        · exact h.opened o hold
        · rw [List.mem_singleton.1 hlast]
          exact h.pending p (List.mem_of_getElem? hp)
  | ticketFails i => exact ⟨fun q hq => h.pending q (List.mem_of_mem_eraseIdx hq), h.opened⟩
  | message conn msg =>
    change FromEvents events (m.onMessage conn msg)
    unfold onMessage
    cases m.opened[conn]? with
    | none => exact h
    | some o => exact ⟨h.pending, h.opened⟩
  | closes conn =>
    change FromEvents events (m.onClose conn)
    unfold onClose
    cases m.opened[conn]? with
    | none => exact h
    | some o => exact ⟨h.pending, h.opened⟩
  | clearSession | act | setHandoffProgress => exact ⟨h.pending, h.opened⟩

theorem fromEvents_run (events : List Event) : FromEvents events (run events) := by
  have hfold : ∀ (l : List Event) (m : RelayManager), (∀ event ∈ l, event ∈ events) → FromEvents events m →
      m.prevRelay = m.store.relayStatus → FromEvents events (l.foldl step m) := by
    intro l
    induction l with
    | nil => exact fun _ _ h _ => h
    | cons event l ih =>
      intro m hmem h hprev
      exact ih _ (fun e he => hmem e (List.mem_cons_of_mem _ he)) (fromEvents_step h hprev (hmem event List.mem_cons_self))
        (prevRelay_step hprev event)
  exact hfold events start (fun _ h => h) ⟨nofun, nofun⟩ rfl

/-! ## Clearing a host -/

theorem get?_sessions_drop (m : RelayManager) (key key' : String) :
    (m.drop key).store.sessions.get? key' =
      if key' = compositeKey (decompose key).1 (decompose key).2 then
        some { (m.store.sessions.get? key').getD defaultPerSession with conn := none }
      else m.store.sessions.get? key' := by
  change (m.store.sessions.set _ _).get? key' = _
  rw [Record.get?_set]
  split
  · rename_i h
    rw [h]
  · rfl

/-- The keys that are dropped get an entry, or keep theirs; the others are left alone. -/
theorem sessions_foldl_drop {keys : List String} (hkeys : ∀ key ∈ keys, compositeKey (decompose key).1 (decompose key).2 = key)
    (m : RelayManager) (key : String) :
    (key ∉ keys → (keys.foldl drop m).store.sessions.get? key = m.store.sessions.get? key) ∧
      (key ∈ keys → ((keys.foldl drop m).store.sessions.get? key).isSome) := by
  induction keys generalizing m with
  | nil => exact ⟨fun _ => rfl, nofun⟩
  | cons first keys ih =>
    obtain ⟨hout, hin⟩ := ih (fun key hkey => hkeys key (List.mem_cons_of_mem _ hkey)) (m.drop first)
    have hfirst := hkeys first List.mem_cons_self
    constructor
    · intro hnot
      obtain ⟨hne, hrest⟩ : key ≠ first ∧ key ∉ keys := by simpa using hnot
      rw [List.foldl_cons, hout hrest, get?_sessions_drop, hfirst, if_neg hne]
    · intro hmem
      rw [List.foldl_cons]
      by_cases hrest : key ∈ keys
      · exact hin hrest
      · obtain rfl : key = first := (List.mem_cons.1 hmem).resolve_right hrest
        rw [hout hrest, get?_sessions_drop, hfirst, if_pos rfl]
        rfl

theorem get?_cleared {α : Type} (r : Record α) (hostId key : String) :
    (r.restrict fun key => ¬OfHost hostId key).get? key = if OfHost hostId key then none else r.get? key := by
  rw [Record.get?_restrict]
  by_cases h : OfHost hostId key <;> simp [h]

/-- No status that is left of a cleared host's is new to the listener. -/
theorem notice_clearHost {m : RelayManager} (hprev : m.prevRelay = m.store.relayStatus) (hostId : String) (hosts : HostState)
    {entry : String × Bool} (hentry : entry ∈ (m.store.clearHost hostId).relayStatus.entries) :
    notice hosts { m with store := m.store.clearHost hostId } entry = { m with store := m.store.clearHost hostId } := by
  obtain ⟨k, connected⟩ := entry
  have hget : (m.store.relayStatus.restrict fun key => ¬OfHost hostId key).get? k = some connected :=
    (lookup_eq_some (m.store.clearHost hostId).relayStatus.nodup).2 hentry
  rw [get?_cleared] at hget
  split at hget
  · cases hget
  · unfold notice
    simp only
    rw [hprev, hget]
    cases connected <;> rfl

theorem foldl_notice_clearHost {m : RelayManager} (hprev : m.prevRelay = m.store.relayStatus) (hostId : String) (hosts : HostState) :
    (m.store.clearHost hostId).relayStatus.entries.foldl (notice hosts) { m with store := m.store.clearHost hostId } =
      { m with store := m.store.clearHost hostId } := by
  have hall : ∀ l : List (String × Bool), (∀ entry ∈ l, entry ∈ (m.store.clearHost hostId).relayStatus.entries) →
      l.foldl (notice hosts) { m with store := m.store.clearHost hostId } = { m with store := m.store.clearHost hostId } := by
    intro l
    induction l with
    | nil => exact fun _ => rfl
    | cons entry l ih =>
      intro hmem
      rw [List.foldl_cons, notice_clearHost hprev hostId hosts (hmem entry List.mem_cons_self)]
      exact ih fun e he => hmem e (List.mem_cons_of_mem _ he)
  exact hall _ fun _ h => h

/-- The keys that the listener misses are those of the host that had a status. -/
theorem mem_missed {m : RelayManager} (hprev : m.prevRelay = m.store.relayStatus) (hostId k : String) :
    k ∈ (m.prevRelay.keys.filter fun key => ((m.store.clearHost hostId).relayStatus.get? key).isNone) ↔
      OfHost hostId k ∧ (m.store.relayStatus.get? k).isSome := by
  rw [List.mem_filter, Record.mem_keys, hprev]
  change _ ∧ ((m.store.relayStatus.restrict fun key => ¬OfHost hostId key).get? k).isNone = true ↔ _
  rw [get?_cleared]
  by_cases h : OfHost hostId k
  · simp [h]
  · cases hk : m.store.relayStatus.get? k <;> simp [h]

/-- What a clear leaves: nothing of the host, but that each of its sessions with a relay has an entry again when the listener
is through. -/
theorem clearHost_spec {m : RelayManager} (hprev : m.prevRelay = m.store.relayStatus) (hostId : String) (hosts : HostState)
    (key : String) :
    (m.step (.clearHost hostId hosts)).store.relayStatus.get? key = (if OfHost hostId key then none else m.store.relayStatus.get? key) ∧
      (m.step (.clearHost hostId hosts)).store.handoffProgress.get? key =
        (if OfHost hostId key then none else m.store.handoffProgress.get? key) ∧
      (¬(OfHost hostId key ∧ (m.store.relayStatus.get? key).isSome) →
        (m.step (.clearHost hostId hosts)).store.sessions.get? key = if OfHost hostId key then none else m.store.sessions.get? key) ∧
      (OfHost hostId key ∧ (m.store.relayStatus.get? key).isSome →
        ((m.step (.clearHost hostId hosts)).store.sessions.get? key).isSome) := by
  obtain ⟨-, hstatus, hprogress, -⟩ := onRelayStatus_spec { m with store := m.store.clearHost hostId } hosts
  have hcolon : ∀ k ∈ (m.prevRelay.keys.filter fun key => ((m.store.clearHost hostId).relayStatus.get? key).isNone),
      compositeKey (decompose k).1 (decompose k).2 = k := fun k hk =>
    compositeKey_decompose ((mem_missed hprev hostId k).1 hk).1.colon_mem
  obtain ⟨hout, hin⟩ := sessions_foldl_drop hcolon { m with store := m.store.clearHost hostId } key
  have hsessions : (m.step (.clearHost hostId hosts)).store.sessions =
      ((m.prevRelay.keys.filter fun key => ((m.store.clearHost hostId).relayStatus.get? key).isNone).foldl drop
        { m with store := m.store.clearHost hostId }).store.sessions := by
    change ((m.prevRelay.keys.filter fun key => ((m.store.clearHost hostId).relayStatus.get? key).isNone).foldl drop
      ((m.store.clearHost hostId).relayStatus.entries.foldl (notice hosts) { m with store := m.store.clearHost hostId })).store.sessions = _
    rw [foldl_notice_clearHost hprev]
  refine ⟨?_, ?_, fun hno => ?_, fun hyes => ?_⟩
  · exact (congrArg (·.get? key) hstatus).trans (get?_cleared _ _ _)
  · exact (congrArg (·.get? key) hprogress).trans (get?_cleared _ _ _)
  · rw [hsessions, hout fun h => hno ((mem_missed hprev hostId key).1 h)]
    exact get?_cleared _ _ _
  · rw [hsessions]
    exact hin ((mem_missed hprev hostId key).2 hyes)

end RelayManager

end Purdex.Client
