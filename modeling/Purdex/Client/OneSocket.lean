/-
One socket for a connected relay: what every state keeps as long as a socket is told of its close in time.
-/
import Purdex.Client.Sockets
import Purdex.Json.Fields

namespace Purdex.Client

open Hosts Json Conc

/-! ## The entries of the store -/

theorem get?_act (s : StreamStore) (hostId sessionCode : String) (update : PerSessionState → PerSessionState) (key : String) :
    (s.act hostId sessionCode update).sessions.get? key =
      if key = compositeKey hostId sessionCode then some (update ((s.sessions.get? key).getD defaultPerSession)) else s.sessions.get? key := by
  change (s.sessions.set _ _).get? key = _
  rw [Record.get?_set]
  split
  · rename_i h
    rw [h]
  · rfl

theorem conn_getD (s : StreamStore) (key : String) : ((s.sessions.get? key).getD defaultPerSession).conn = s.connOf key := by
  unfold StreamStore.connOf
  cases s.sessions.get? key <;> rfl

theorem connOf_act {s : StreamStore} {update : PerSessionState → PerSessionState} (hconn : ∀ cur, (update cur).conn = cur.conn)
    (hostId sessionCode key : String) : (s.act hostId sessionCode update).connOf key = s.connOf key := by
  rw [StreamStore.connOf, get?_act]
  split
  · exact (hconn _).trans (conn_getD s key)
  · rfl

theorem connOf_setConn (s : StreamStore) (hostId sessionCode : String) (conn : Option Nat) (key : String) :
    (s.setConn hostId sessionCode conn).connOf key = if key = compositeKey hostId sessionCode then conn else s.connOf key := by
  rw [StreamStore.setConn, StreamStore.connOf, get?_act]
  split <;> rfl

/-- What a message changes of an entry. -/
theorem onMessage_act (s : StreamStore) (hostId sessionCode : String) (msg : StreamMessage) :
    ∃ update, (∀ cur : PerSessionState, (update cur).conn = cur.conn) ∧
      (s.onMessage hostId sessionCode msg = s ∨ s.onMessage hostId sessionCode msg = s.act hostId sessionCode update) := by
  cases msg with
  | assistant msg | user msg => exact ⟨fun cur => { cur with messages := cur.messages ++ [msg] }, fun _ => rfl, .inr rfl⟩
  | result hasCost =>
    cases hasCost
    · exact ⟨id, fun _ => rfl, .inl rfl⟩
    · exact ⟨fun cur => { cur with isStreaming := false }, fun _ => rfl, .inr rfl⟩
  | controlRequest requestId =>
    exact ⟨fun cur => { cur with pendingControlRequests := cur.pendingControlRequests ++ [requestId] }, fun _ => rfl, .inr rfl⟩
  | init ccSessionId model => exact ⟨fun cur => { cur with ccSessionId, model }, fun _ => rfl, .inr rfl⟩
  | other => exact ⟨id, fun _ => rfl, .inl rfl⟩

theorem connOf_onMessage (s : StreamStore) (hostId sessionCode key : String) (msg : StreamMessage) :
    (s.onMessage hostId sessionCode msg).connOf key = s.connOf key := by
  obtain ⟨update, hconn, h | h⟩ := onMessage_act s hostId sessionCode msg
  · rw [h]
  · rw [h, connOf_act hconn]

theorem connOf_clearSession {s : StreamStore} {hostId sessionCode key : String} (h : key ≠ compositeKey hostId sessionCode) :
    (s.clearSession hostId sessionCode).connOf key = s.connOf key := by
  change ((s.sessions.restrict _).get? key).bind _ = _
  rw [Record.get?_restrict, if_pos (by simpa using h)]
  rfl

theorem connOf_clearHost {s : StreamStore} {hostId key : String} (h : ¬OfHost hostId key) :
    (s.clearHost hostId).connOf key = s.connOf key := by
  change ((s.sessions.restrict _).get? key).bind _ = _
  rw [Record.get?_restrict, if_pos (by simpa using h)]
  rfl

/-- An entry that a close event is to leave alone has no connection. -/
theorem setConn_none_eq_iff (s : StreamStore) (hostId sessionCode : String) :
    (s.setConn hostId sessionCode none).sessions.get? (compositeKey hostId sessionCode) = s.sessions.get? (compositeKey hostId sessionCode) ↔
      ∃ cur, s.sessions.get? (compositeKey hostId sessionCode) = some cur ∧ cur.conn = none := by
  rw [StreamStore.setConn, get?_act, if_pos rfl]
  cases s.sessions.get? (compositeKey hostId sessionCode) with
  | none => exact ⟨nofun, fun ⟨_, h, _⟩ => nomatch h⟩
  | some cur =>
    constructor
    · intro h
      exact ⟨cur, rfl, (congrArg PerSessionState.conn (Option.some.inj h)).symm⟩
    · rintro ⟨_, hcur, hconn⟩
      cases hcur
      change some { cur with conn := none } = some cur
      rw [← hconn]

/-! ## The sockets of a session -/

namespace RelayManager

variable {m : RelayManager} {n : Nat} {key : String}

theorem keyOf_lt (h : m.keyOf n = some key) : n < m.opened.length := by
  obtain ⟨o, ho, -⟩ := Option.map_eq_some_iff.1 h
  exact (List.getElem?_eq_some_iff.1 ho).1

theorem mem_socketsOf : n ∈ m.socketsOf key ↔ m.keyOf n = some key := by
  unfold socketsOf
  rw [List.mem_filter, List.mem_range, decide_eq_true_iff]
  exact ⟨And.right, fun h => ⟨keyOf_lt h, h⟩⟩

theorem nodup_socketsOf (m : RelayManager) (key : String) : (m.socketsOf key).Nodup := List.nodup_range.filter _

theorem keyOf_newest (h : m.newest key = some n) : m.keyOf n = some key := mem_socketsOf.1 (List.mem_of_getLast? h)

theorem keyOf_congr {m' : RelayManager} (h : m'.opened = m.opened) : m'.keyOf = m.keyOf := by
  unfold keyOf
  rw [h]

theorem newest_congr {m' : RelayManager} (h : m'.opened = m.opened) : m'.newest = m.newest := by
  unfold newest socketsOf
  rw [keyOf_congr h, h]

section Opened

variable {m' : RelayManager} {o : Opened}

theorem keyOf_open (h : m'.opened = m.opened ++ [o]) (n : Nat) :
    m'.keyOf n = if n = m.opened.length then some o.pending.key else m.keyOf n := by
  unfold keyOf
  rw [h, List.getElem?_append]
  split
  · rename_i hlt
    rw [if_neg (Nat.ne_of_lt hlt)]
  · rename_i hge
    by_cases heq : n = m.opened.length
    · simp [heq]
    · rw [if_neg heq, List.getElem?_eq_none (by simp; omega), List.getElem?_eq_none (Nat.le_of_not_lt hge)]

theorem newest_open (h : m'.opened = m.opened ++ [o]) (key : String) :
    m'.newest key = if o.pending.key = key then some m.opened.length else m.newest key := by
  have hold : (List.range m.opened.length).filter (fun n => decide (m'.keyOf n = some key)) = m.socketsOf key := by
    refine List.filter_congr fun n hn => ?_
    rw [keyOf_open h, if_neg (Nat.ne_of_lt (List.mem_range.1 hn))]
  have hsockets : m'.socketsOf key = m.socketsOf key ++ if o.pending.key = key then [m.opened.length] else [] := by
    unfold socketsOf
    rw [h, List.length_append, List.length_singleton, List.range_succ, List.filter_append, hold]
    congr 1
    by_cases hkey : o.pending.key = key
    · rw [if_pos hkey, List.filter_cons_of_pos (by rw [keyOf_open h, if_pos rfl, hkey]; simp), List.filter_nil]
    · rw [if_neg hkey, List.filter_cons_of_neg (by rw [keyOf_open h, if_pos rfl]; simpa using hkey), List.filter_nil]
  unfold newest
  rw [hsockets]
  by_cases hkey : o.pending.key = key
  · rw [if_pos hkey, if_pos hkey, List.getLast?_append, List.getLast?_singleton, Option.some_or]
  · rw [if_neg hkey, if_neg hkey, List.append_nil]

end Opened

/-! ## What the listener does -/

theorem lookup_drop (m : RelayManager) (key key' : String) :
    (m.drop key).activeConns.lookup key' = if key' = key then none else m.activeConns.lookup key' := by
  change (m.activeConns.filter (·.1 ≠ key)).lookup key' = _
  split
  · rename_i h
    exact Fields.lookup_eq_none_of_keys fun hmem => by simp [h] at hmem
  · rename_i h
    exact Fields.lookup_filter_ne h m.activeConns

/-- A ticket for a relay that is connected. -/
def openOn (m : RelayManager) (i : Nat) (p : Pending) (ticket : String) : RelayManager :=
  { m with
    pendingFetches := m.pendingFetches.eraseIdx i
    opened := m.opened ++ [⟨p, ticket⟩]
    store := m.store.setConn p.hostId p.sessionCode (some m.opened.length)
    activeConns := m.activeConns.filter (·.1 ≠ p.key) ++ [(p.key, m.opened.length)] }

theorem onTicket_eq {i : Nat} {p : Pending} (hp : m.pendingFetches[i]? = some p) (ticket : String) :
    m.onTicket i ticket =
      if m.store.relayStatus.get? p.key = some true then m.openOn i p ticket
      else { m with pendingFetches := m.pendingFetches.eraseIdx i } := by
  unfold onTicket
  rw [hp]
  simp only
  cases m.store.relayStatus.get? p.key with
  | none => rfl
  | some connected => cases connected <;> rfl

theorem keyOf_openOn (m : RelayManager) (i : Nat) (p : Pending) (ticket : String) (n : Nat) :
    (m.openOn i p ticket).keyOf n = if n = m.opened.length then some p.key else m.keyOf n :=
  @keyOf_open m (m.openOn i p ticket) ⟨p, ticket⟩ rfl n

theorem newest_openOn (m : RelayManager) (i : Nat) (p : Pending) (ticket key : String) :
    (m.openOn i p ticket).newest key = if p.key = key then some m.opened.length else m.newest key :=
  @newest_open m (m.openOn i p ticket) ⟨p, ticket⟩ rfl key

theorem lookup_openOn (m : RelayManager) (i : Nat) (p : Pending) (ticket key : String) :
    (m.openOn i p ticket).activeConns.lookup key = if key = p.key then some m.opened.length else m.activeConns.lookup key := by
  change (m.activeConns.filter (·.1 ≠ p.key) ++ [(p.key, m.opened.length)]).lookup key = _
  rw [List.lookup_append]
  have hold : (m.activeConns.filter (·.1 ≠ p.key)).lookup key = if key = p.key then none else m.activeConns.lookup key :=
    lookup_drop m p.key key
  rw [hold]
  by_cases h : key = p.key
  · rw [if_pos h, if_pos h, Option.none_or, h, List.lookup_cons_self]
  · rw [if_neg h, if_neg h, Fields.lookup_cons_eq, if_neg (Ne.symm h), List.lookup_nil, Option.or_none]

/-- The listener does nothing for a status that it knows. -/
theorem notice_known (hosts : HostState) {m : RelayManager} {entry : String × Bool} (h : m.prevRelay.get? entry.1 = some entry.2) :
    notice hosts m entry = m := by
  unfold notice
  simp only
  rw [h]
  obtain ⟨key, connected⟩ := entry
  cases connected <;> rfl

/-- What the listener does when one status was set. -/
theorem step_setRelayStatus (hprev : m.prevRelay = m.store.relayStatus) (hostId sessionCode : String) (connected : Bool)
    (hosts : HostState) :
    m.step (.setRelayStatus hostId sessionCode connected hosts) =
      { notice hosts { m with store := m.store.setRelayStatus hostId sessionCode connected } (compositeKey hostId sessionCode, connected) with
        prevRelay := m.store.relayStatus.set (compositeKey hostId sessionCode) connected } := by
  have hget := fun key => Record.get?_set m.store.relayStatus (compositeKey hostId sessionCode) connected key
  have hnodup := (m.store.relayStatus.set (compositeKey hostId sessionCode) connected).nodup
  have hone : (m.store.setRelayStatus hostId sessionCode connected).relayStatus.entries.foldl (notice hosts)
      { m with store := m.store.setRelayStatus hostId sessionCode connected } = _ :=
    Fields.foldl_one (P := fun m' => m'.prevRelay = m.prevRelay) (fun entry hentry hne m' hm' => by
        refine notice_known hosts ?_
        have hold := (hget entry.1).symm.trans ((lookup_eq_some hnodup).2 hentry)
        rw [if_neg hne] at hold
        rw [hm', hprev]
        exact hold)
      hnodup ((lookup_eq_some hnodup).1 ((hget _).trans (if_pos rfl))) rfl (noticed_notice hosts _ _).prevRelay
  have hnone : m.prevRelay.keys.filter (fun key =>
      ((m.store.setRelayStatus hostId sessionCode connected).relayStatus.get? key).isNone) = [] := by
    refine List.filter_eq_nil_iff.2 fun key hkey hnot => ?_
    rw [hprev, Record.mem_keys] at hkey
    change ((m.store.relayStatus.set _ _).get? key).isNone = true at hnot
    rw [Record.get?_set] at hnot
    split at hnot
    · cases hnot
    · rw [Option.isNone_iff_eq_none.1 hnot] at hkey
      cases hkey
  change RelayManager.onRelayStatus _ hosts = _
  unfold onRelayStatus
  simp only
  rw [hone, hnone]
  rfl

theorem step_clearHost (hprev : m.prevRelay = m.store.relayStatus) (hostId : String) (hosts : HostState) :
    m.step (.clearHost hostId hosts) =
      { (m.prevRelay.keys.filter fun key => ((m.store.clearHost hostId).relayStatus.get? key).isNone).foldl drop
          { m with store := m.store.clearHost hostId } with
        prevRelay := (m.store.clearHost hostId).relayStatus } := by
  have hfold := foldl_notice_clearHost hprev hostId hosts
  change RelayManager.onRelayStatus _ hosts = _
  unfold onRelayStatus
  simp only
  rw [hfold]

end RelayManager

/-! ## What every state keeps -/

namespace Sockets

variable {w w' : Sockets} {up up' : String → Prop} {n : Nat} {key : String}

theorem isOpen_iff : w.isOpen n = true ↔ n ∉ w.manager.closed ∧ n ∉ w.byPeer ∧ n ∉ w.byClear := by
  unfold isOpen
  simp only [Bool.and_eq_true, decide_eq_true_eq, and_assoc]

/-- `up` has the keys whose relay is connected, as far as the listener is through with them. -/
structure Kept (up : String → Prop) (w : Sockets) : Prop where
  composed : ∀ p ∈ w.manager.pendingFetches ++ w.manager.opened.map (·.pending), compositeKey p.hostId p.sessionCode = p.key
  askedOnce : (w.manager.pendingFetches.map (·.key)).Nodup
  asked : ∀ p ∈ w.manager.pendingFetches, ∀ n, w.manager.keyOf n = some p.key → w.isOpen n = false
  opens : ∀ n key, w.manager.keyOf n = some key → w.isOpen n = true → w.unmounted = false ∧ up key ∧
    w.manager.activeConns.lookup key = some n ∧ w.manager.store.connOf key = some n ∧ w.manager.newest key = some n
  active : ∀ entry ∈ w.manager.activeConns, w.manager.keyOf entry.2 = some entry.1
  bound : ∀ n ∈ w.manager.closed, n < w.manager.opened.length
  current : w.unmounted = false → ∀ n ∈ w.current, ∀ key, w.manager.keyOf n = some key → up key → n ∉ w.manager.closed

theorem Kept.keyOf_active (h : Kept up w) (hn : w.manager.activeConns.lookup key = some n) : w.manager.keyOf n = some key :=
  h.active (key, n) (mem_of_lookup hn)

theorem kept_initial : Kept up initial where
  composed := nofun
  askedOnce := List.nodup_nil
  asked := nofun
  opens := fun n _ hkey _ => nomatch (RelayManager.keyOf_lt hkey : n < 0)
  active := nofun
  bound := nofun
  current := nofun

/-- A move that opens nothing, and leaves the connections of open sockets alone. -/
theorem Kept.keep (h : Kept up w) (hopened : w'.manager.opened = w.manager.opened) (hactive : w'.manager.activeConns = w.manager.activeConns)
    (hclosed : w'.manager.closed = w.manager.closed) (hpending : w'.manager.pendingFetches.Sublist w.manager.pendingFetches)
    (hunmounted : w'.unmounted = w.unmounted) (hcurrent : w'.current ⊆ w.current) (hopen : ∀ n, w'.isOpen n = true → w.isOpen n = true)
    (hconn : ∀ n key, w.manager.keyOf n = some key → w'.isOpen n = true →
      w'.manager.store.connOf key = w.manager.store.connOf key) : Kept up w' where
  composed := fun p hp => h.composed p (by
    rw [hopened] at hp
    exact (hpending.append_right _).subset hp)
  askedOnce := (hpending.map _).nodup h.askedOnce
  asked := fun p hp n hn => by
    rw [RelayManager.keyOf_congr hopened] at hn
    refine eq_false_of_ne_true fun hopen' => ?_
    exact Bool.false_ne_true ((h.asked p (hpending.subset hp) n hn).symm.trans (hopen n hopen'))
  opens := fun n key hn hopen' => by
    rw [RelayManager.keyOf_congr hopened] at hn
    rw [hunmounted, hactive, hconn n key hn hopen', RelayManager.newest_congr hopened]
    exact h.opens n key hn (hopen n hopen')
  active := by
    rw [hactive, RelayManager.keyOf_congr hopened]
    exact h.active
  bound := by
    rw [hclosed, hopened]
    exact h.bound
  current := fun hmounted n hn key hkey => by
    rw [RelayManager.keyOf_congr hopened] at hkey
    rw [hclosed]
    exact h.current (hunmounted ▸ hmounted) n (hcurrent hn) key hkey

/-- A relay that connects has no socket of an earlier connection that is taken for one of this. -/
theorem Kept.raise (h : Kept up w) (hup : ∀ key, up key → up' key)
    (hcurrent : w.unmounted = false → ∀ n ∈ w.current, ∀ key, w.manager.keyOf n = some key → up key) : Kept up' w :=
  { h with
    opens := fun n key hn hopen => (h.opens n key hn hopen).imp_right fun hrest => ⟨hup key hrest.1, hrest.2⟩
    current := fun hmounted n hn key hkey _ => h.current hmounted n hn key hkey (hcurrent hmounted n hn key hkey) }

theorem Kept.lower (h : Kept up w) (hup : ∀ key, up' key → up key)
    (hopen : ∀ n key, w.manager.keyOf n = some key → w.isOpen n = true → up key → up' key) : Kept up' w :=
  { h with
    opens := fun n key hn hopen' =>
      (h.opens n key hn hopen').imp_right fun hrest => ⟨hopen n key hn hopen' hrest.1, hrest.2⟩
    current := fun hmounted n hn key hkey hkey' => h.current hmounted n hn key hkey (hup key hkey') }

theorem Kept.drop (h : Kept up w) (hkey : compositeKey (decompose key).1 (decompose key).2 = key) :
    Kept (fun k => up k ∧ k ≠ key) { w with manager := w.manager.drop key } := by
  have hopen : ∀ n, Sockets.isOpen { w with manager := w.manager.drop key } n = true →
      w.isOpen n = true ∧ w.manager.activeConns.lookup key ≠ some n := by
    intro n hn
    obtain ⟨hclosed, hrest⟩ := isOpen_iff.1 hn
    replace hclosed : n ∉ w.manager.closed ++ (w.manager.activeConns.lookup key).toList := hclosed
    rw [List.mem_append, not_or, Option.mem_toList] at hclosed
    exact ⟨isOpen_iff.2 ⟨hclosed.1, hrest⟩, hclosed.2⟩
  refine ⟨h.composed, h.askedOnce, fun p hp n hn => ?_, fun n k hn hn' => ?_,
    fun entry hentry => h.active entry (List.mem_filter.1 hentry).1, fun n hn => ?_, fun hmounted n hn k hk hup => ?_⟩
  · refine eq_false_of_ne_true fun hn' => ?_
    exact Bool.false_ne_true ((h.asked p hp n hn).symm.trans (hopen n hn').1)
  · obtain ⟨hmounted, hup, hactive, hconn, hnewest⟩ := h.opens n k hn (hopen n hn').1
    have hne : k ≠ key := fun heq => (hopen n hn').2 (heq ▸ hactive)
    refine ⟨hmounted, ⟨hup, hne⟩, ?_, ?_, hnewest⟩
    · exact (RelayManager.lookup_drop w.manager key k).trans ((if_neg hne).trans hactive)
    · refine (connOf_setConn _ _ _ none k).trans ?_
      rw [hkey, if_neg hne]
      exact hconn
  · rcases List.mem_append.1 hn with hn | hn
    · exact h.bound n hn
    · exact RelayManager.keyOf_lt (h.keyOf_active (Option.mem_toList.1 hn))
  · intro hclosed
    rcases List.mem_append.1 hclosed with hclosed | hclosed
    · exact h.current hmounted n hn k hk hup.1 hclosed
    · have hk' : w.manager.keyOf n = some k := hk
      rw [h.keyOf_active (Option.mem_toList.1 hclosed)] at hk'
      exact hup.2 (Option.some.inj hk').symm

theorem Kept.dropAll {keys : List String} (hkeys : ∀ key ∈ keys, compositeKey (decompose key).1 (decompose key).2 = key) (h : Kept up w) :
    Kept (fun k => up k ∧ k ∉ keys) { w with manager := keys.foldl RelayManager.drop w.manager } := by
  induction keys generalizing w up with
  | nil => exact h.lower (fun _ => And.left) fun _ _ _ _ hup => ⟨hup, List.not_mem_nil⟩
  | cons key keys ih =>
    refine (ih (fun k hk => hkeys k (List.mem_cons_of_mem _ hk)) (h.drop (hkeys key List.mem_cons_self))).lower ?_ ?_
    · exact fun k hk => ⟨⟨hk.1, fun heq => hk.2 (heq ▸ List.mem_cons_self)⟩, fun hmem => hk.2 (List.mem_cons_of_mem _ hmem)⟩
    · exact fun _ k _ _ hk => ⟨hk.1.1, fun hmem => (List.mem_cons.1 hmem).elim hk.1.2 hk.2⟩

theorem Kept.connect (h : Kept up w) (hkey : compositeKey (decompose key).1 (decompose key).2 = key)
    (hnone : ∀ n, w.manager.keyOf n = some key → w.isOpen n = false) (hosts : HostState) :
    Kept up { w with manager := w.manager.connect hosts key } := by
  unfold RelayManager.connect
  split
  · exact h
  · rename_i hnew
    refine ⟨fun p hp => ?_, ?_, fun p hp => ?_, h.opens, h.active, h.bound, h.current⟩
    · rw [List.append_assoc, List.mem_append] at hp
      rcases hp with hp | hp
      · exact h.composed p (List.mem_append_left _ hp)
      · rcases List.mem_append.1 hp with hp | hp
        · rw [List.mem_singleton.1 hp]
          exact hkey
        · exact h.composed p (List.mem_append_right _ hp)
    · rw [List.map_append, List.map_singleton]
      exact List.nodup_append.2 ⟨h.askedOnce, List.nodup_singleton _, fun k hk k' hk' heq => hnew (by
        rw [heq, List.mem_singleton.1 hk'] at hk
        exact hk)⟩
    · rcases List.mem_append.1 hp with hp | hp
      · exact h.asked p hp
      · rw [List.mem_singleton.1 hp]
        exact hnone

/-- The socket that a ticket opens is the only one of its session. -/
theorem Kept.opened (h : Kept up w) (hmounted : w.unmounted = false) {i : Nat} {p : Pending} (hp : w.manager.pendingFetches[i]? = some p)
    (hup : up p.key) (ticket : String) :
    Kept up { w with manager := w.manager.openOn i p ticket, current := w.current ++ [w.manager.opened.length] } := by
  have hmem : p ∈ w.manager.pendingFetches := List.mem_of_getElem? hp
  have hcomposed : compositeKey p.hostId p.sessionCode = p.key := h.composed p (List.mem_append_left _ hmem)
  have hfresh : w.manager.opened.length ∉ w.manager.closed := fun hclosed => Nat.lt_irrefl _ (h.bound _ hclosed)
  have hother : ∀ q ∈ w.manager.pendingFetches.eraseIdx i, q.key ≠ p.key := by
    intro q hq heq
    obtain ⟨j, hji, hj⟩ := List.mem_eraseIdx_iff_getElem?.1 hq
    have hi' : (w.manager.pendingFetches.map (·.key))[i]? = some p.key := by rw [List.getElem?_map, hp]; rfl
    have hj' : (w.manager.pendingFetches.map (·.key))[j]? = some p.key := by rw [List.getElem?_map, hj, ← heq]; rfl
    exact hji ((List.getElem?_inj (List.getElem?_eq_some_iff.1 hj').1 h.askedOnce).1 (hj'.trans hi'.symm))
  have hkeyOf := w.manager.keyOf_openOn i p ticket
  have hlookup := w.manager.lookup_openOn i p ticket
  refine ⟨fun q hq => ?_, ((List.eraseIdx_sublist _ _).map _).nodup h.askedOnce, fun q hq n hn => ?_, fun n k hn hopen => ?_,
    fun entry hentry => ?_, fun n hn => ?_, fun _ n hn k hk hk' => ?_⟩
  · change q ∈ w.manager.pendingFetches.eraseIdx i ++ (w.manager.opened ++ ([⟨p, ticket⟩] : List Opened)).map (·.pending) at hq
    rw [List.map_append, ← List.append_assoc, List.mem_append] at hq
    rcases hq with hq | hq
    · exact h.composed q (((List.eraseIdx_sublist _ _).append_right _).subset hq)
    · rw [List.mem_singleton.1 hq]
      exact hcomposed
  · rw [hkeyOf] at hn
    split at hn
    · exact absurd (Option.some.inj hn).symm (hother q hq)
    · exact h.asked q (List.mem_of_mem_eraseIdx hq) n hn
  · rw [hkeyOf] at hn
    refine ⟨hmounted, ?_⟩
    rw [hlookup, RelayManager.newest_openOn]
    change up k ∧ _ ∧ (w.manager.store.setConn p.hostId p.sessionCode _).connOf k = _ ∧ _
    rw [connOf_setConn, hcomposed]
    split at hn
    · rename_i hlast
      cases hn
      subst hlast
      rw [if_pos rfl, if_pos rfl, if_pos rfl]
      exact ⟨hup, rfl, rfl, rfl⟩
    · -- an open socket of the session would have kept the ticket from being asked for
      have hne : k ≠ p.key := by
        rintro rfl
        exact Bool.false_ne_true ((h.asked p hmem n hn).symm.trans hopen)
      rw [if_neg hne, if_neg hne, if_neg (Ne.symm hne)]
      exact (h.opens n k hn hopen).2
  · rw [hkeyOf]
    rcases List.mem_append.1 hentry with hentry | hentry
    · have hold := h.active entry (List.mem_filter.1 hentry).1
      rw [if_neg (Nat.ne_of_lt (RelayManager.keyOf_lt hold))]
      exact hold
    · rw [List.mem_singleton.1 hentry, if_pos rfl]
  · refine Nat.lt_of_lt_of_le (h.bound n hn) ?_
    change _ ≤ (w.manager.opened ++ _).length
    rw [List.length_append]
    exact Nat.le_add_right _ _
  · rw [hkeyOf] at hk
    split at hk
    · rename_i hlast
      exact hlast ▸ hfresh
    · rename_i hne
      rcases List.mem_append.1 hn with hn | hn
      · exact h.current hmounted n hn k hk hk'
      · exact absurd (List.mem_singleton.1 hn) hne

theorem Kept.unmount (h : Kept up w) : Kept up' w.unmount := by
  have hopen : ∀ n k, w.manager.keyOf n = some k → w.unmount.isOpen n = false := by
    intro n k hn
    refine eq_false_of_ne_true fun hopen => ?_
    obtain ⟨hclosed, hrest⟩ := isOpen_iff.1 hopen
    replace hclosed : n ∉ w.manager.closed ++ w.manager.activeConns.map (·.2) := hclosed
    rw [List.mem_append, not_or] at hclosed
    obtain ⟨-, -, hactive, -⟩ := h.opens n k hn (isOpen_iff.2 ⟨hclosed.1, hrest⟩)
    exact hclosed.2 (List.mem_map.2 ⟨(k, n), mem_of_lookup hactive, rfl⟩)
  refine ⟨h.composed, h.askedOnce, fun p _ n hn => hopen n p.key hn, fun n k hn hn' => ?_, nofun, fun n hn => ?_, nofun⟩
  · exact absurd ((hopen n k hn).symm.trans hn') Bool.false_ne_true
  · rcases List.mem_append.1 hn with hn | hn
    · exact h.bound n hn
    · obtain ⟨entry, hentry, rfl⟩ := List.mem_map.1 hn
      exact RelayManager.keyOf_lt (h.active entry hentry)

theorem Kept.onClose (h : Kept up w) (hclosed : w.isOpen n = false) (hkey : w.manager.keyOf n = some key)
    (htimely : w.manager.newest key = some n ∨ w.manager.store.connOf key = none) :
    Kept up { w with manager := w.manager.onClose n, told := w.told ++ [n] } := by
  obtain ⟨o, ho, rfl⟩ := Option.map_eq_some_iff.1 hkey
  have hcomposed : compositeKey o.pending.hostId o.pending.sessionCode = o.pending.key :=
    h.composed o.pending (List.mem_append_right _ (List.mem_map.2 ⟨o, List.mem_of_getElem? ho, rfl⟩))
  unfold RelayManager.onClose
  rw [ho]
  refine ⟨h.composed, h.askedOnce, h.asked, fun n' k hn hopen => ?_, fun entry hentry => h.active entry (List.mem_filter.1 hentry).1,
    h.bound, h.current⟩
  obtain ⟨hmounted, hup, hactive, hconn, hnewest⟩ := h.opens n' k hn hopen
  have hne : k ≠ o.pending.key := by
    rintro rfl
    rcases htimely with htimely | htimely
    · rw [Option.some.inj (htimely.symm.trans hnewest)] at hclosed
      exact Bool.false_ne_true (hclosed.symm.trans hopen)
    · exact nomatch htimely.symm.trans hconn
  refine ⟨hmounted, hup, ?_, ?_, hnewest⟩
  · exact (RelayManager.lookup_drop w.manager o.pending.key k).trans ((if_neg hne).trans hactive)
  · refine (connOf_setConn _ _ _ none k).trans ?_
    rw [hcomposed, if_neg hne]
    exact hconn

/-- What the listener knows, and the status, are not of the sockets. -/
theorem Kept.listener {m : RelayManager} (h : Kept up { w with manager := m }) {s : StreamStore} (hs : s.sessions = m.store.sessions)
    (prevRelay : Record Bool) : Kept up { w with manager := { m with store := s, prevRelay := prevRelay } } := by
  have hconn : s.connOf = m.store.connOf := by
    unfold StreamStore.connOf
    rw [hs]
  refine ⟨h.composed, h.askedOnce, h.asked, fun n key hn hopen => ?_, h.active, h.bound, h.current⟩
  have hold := h.opens n key hn hopen
  rw [← hconn] at hold
  exact hold

theorem Kept.unmounted (h : Kept up w) (hunmounted : w.unmounted = true) : Kept up' w :=
  { h with
    opens := fun n key hn hopen => nomatch hunmounted.symm.trans (h.opens n key hn hopen).1
    current := fun hmounted => nomatch hunmounted.symm.trans hmounted }

structure Inv (w : Sockets) : Prop where
  kept : Kept (fun key => w.manager.store.relayStatus.get? key = some true) w
  prev : w.unmounted = false → w.manager.prevRelay = w.manager.store.relayStatus
  connected : w.unmounted = false → ∀ n ∈ w.current, ∀ key, w.manager.keyOf n = some key → w.manager.store.relayStatus.get? key = some true

theorem inv_relay {m : RelayManager} (h : Kept (fun key => m.store.relayStatus.get? key = some true) { w with manager := m })
    (hprev : w.unmounted = false → m.prevRelay = m.store.relayStatus) : Inv (w.relay m) := by
  refine ⟨?_, hprev, fun _ n hn key hkey => ?_⟩
  · exact { h with current := fun hmounted n hn => h.current hmounted n (List.mem_filter.1 hn).1 }
  · have hconnected : m.isConnected n = true := (List.mem_filter.1 hn).2
    have hkey' : m.keyOf n = some key := hkey
    unfold RelayManager.isConnected at hconnected
    rw [hkey'] at hconnected
    exact of_decide_eq_true hconnected

/-! ## What a move keeps -/

theorem Kept.congr (h : Kept up w) (hup : ∀ key, up key ↔ up' key) : Kept up' w :=
  h.lower (fun key => (hup key).2) fun _ key _ _ => (hup key).1

theorem Kept.notice (h : Kept up w) (hkey : compositeKey (decompose key).1 (decompose key).2 = key)
    (hprev : (w.manager.prevRelay.get? key).getD false = true ↔ up key)
    (hcurrent : w.unmounted = false → ∀ n ∈ w.current, ∀ key, w.manager.keyOf n = some key → up key) {connected : Bool}
    (hup : ∀ k, up' k ↔ if k = key then connected = true else up k) (hosts : HostState) :
    Kept up' { w with manager := RelayManager.notice hosts w.manager (key, connected) } := by
  unfold RelayManager.notice
  simp only
  split
  · rename_i hnew
    have hnot : ¬up key := fun hkey' => Bool.false_ne_true (hnew.2.symm.trans (hprev.2 hkey'))
    have hnone : ∀ n, w.manager.keyOf n = some key → w.isOpen n = false := fun n hn =>
      eq_false_of_ne_true fun hopen => hnot (h.opens n key hn hopen).2.1
    refine (h.connect hkey hnone hosts).raise (fun k hk => (hup k).2 ?_) ?_
    · split
      · exact hnew.1
      · exact hk
    · unfold RelayManager.connect
      split <;> exact hcurrent
  · rename_i hnew
    split
    · rename_i hold
      refine (h.drop hkey).congr fun k => ?_
      rw [hup, hold.1]
      by_cases hk : k = key <;> simp [hk]
    · rename_i hold
      refine h.congr fun k => ?_
      rw [hup]
      split
      · rename_i hk
        have hsame : (w.manager.prevRelay.get? key).getD false = connected := by
          cases connected
          · exact eq_false_of_ne_true fun hwas => hold ⟨rfl, hwas⟩
          · exact eq_true_of_ne_false fun hwas => hnew ⟨rfl, hwas⟩
        rw [hk, ← hprev, hsame]
      · exact Iff.rfl

theorem composed_compositeKey (hostId sessionCode : String) :
    compositeKey (decompose (compositeKey hostId sessionCode)).1 (decompose (compositeKey hostId sessionCode)).2 =
      compositeKey hostId sessionCode := by
  refine compositeKey_decompose ?_
  rw [toList_compositeKey]
  simp [Joined.join]

theorem inv_setRelayStatus (h : Inv w) (hostId sessionCode : String) (connected : Bool) (hosts : HostState)
    (hs : step (.setRelayStatus hostId sessionCode connected hosts) w = some w') : Inv w' := by
  change (if w.unmounted = true then _ else _) = some w' at hs
  have hkept := h.kept.listener (m := w.manager) (s := w.manager.store.setRelayStatus hostId sessionCode connected) rfl w.manager.prevRelay
  split at hs
  · rename_i hunmounted
    cases hs
    exact inv_relay (hkept.unmounted hunmounted) fun hmounted => nomatch hunmounted.symm.trans hmounted
  · rename_i hmounted
    cases hs
    have hprev := h.prev (eq_false_of_ne_true hmounted)
    rw [RelayManager.step_setRelayStatus hprev]
    have hstatus := (RelayManager.noticed_notice hosts
      { w.manager with store := w.manager.store.setRelayStatus hostId sessionCode connected } (compositeKey hostId sessionCode, connected)).relayStatus
    refine inv_relay ?_ fun _ => hstatus.symm
    refine Kept.listener (hkept.notice (composed_compositeKey hostId sessionCode) ?_ h.connected (fun k => ?_) hosts) rfl _
    · change (w.manager.prevRelay.get? _).getD false = true ↔ _
      rw [hprev]
      cases w.manager.store.relayStatus.get? (compositeKey hostId sessionCode) <;> simp
    · simp only
      rw [hstatus]
      change (w.manager.store.relayStatus.set _ _).get? k = some true ↔ _
      rw [Record.get?_set]
      split <;> simp

/-- A socket that is open is not one of those that a clear closes. -/
theorem isOpen_clear {l : List Nat} (hopen : Sockets.isOpen { w with byClear := w.byClear ++ l } n = true) : w.isOpen n = true ∧ n ∉ l := by
  obtain ⟨hclosed, hpeer, hclear⟩ := isOpen_iff.1 hopen
  replace hclear : n ∉ w.byClear ++ l := hclear
  rw [List.mem_append, not_or] at hclear
  exact ⟨isOpen_iff.2 ⟨hclosed, hpeer, hclear.1⟩, hclear.2⟩

theorem inv_clearHost (h : Inv w) (hostId : String) (hosts : HostState) (hs : step (.clearHost hostId hosts) w = some w') : Inv w' := by
  change (if w.unmounted = true then _ else _) = some w' at hs
  have hkept : Kept (fun key => w.manager.store.relayStatus.get? key = some true)
      { w with
        manager := { w.manager with store := w.manager.store.clearHost hostId }
        byClear := w.byClear ++ w.manager.clearedHost hostId } := by
    refine h.kept.keep rfl rfl rfl (.refl _) rfl (List.Subset.refl _) (fun n hopen => (isOpen_clear hopen).1) fun n key hn hopen => ?_
    refine connOf_clearHost fun hof => (isOpen_clear hopen).2 ?_
    obtain ⟨-, -, -, hconn, -⟩ := h.kept.opens n key hn (isOpen_clear hopen).1
    obtain ⟨cur, hcur, hconn⟩ := Option.bind_eq_some_iff.1 hconn
    exact List.mem_filterMap.2 ⟨(key, cur), List.mem_filter.2 ⟨mem_of_lookup hcur, decide_eq_true hof⟩, hconn⟩
  split at hs
  · rename_i hunmounted
    cases hs
    exact inv_relay (hkept.unmounted hunmounted) fun hmounted => nomatch hunmounted.symm.trans hmounted
  · rename_i hmounted
    cases hs
    have hprev := h.prev (eq_false_of_ne_true hmounted)
    have hmissed := fun key => RelayManager.mem_missed hprev hostId key
    have hdropped := hkept.dropAll fun key hkey => compositeKey_decompose ((hmissed key).1 hkey).1.colon_mem
    have hstatus := (RelayManager.noticed_foldl RelayManager.noticed_drop
      (w.manager.prevRelay.keys.filter fun key => ((w.manager.store.clearHost hostId).relayStatus.get? key).isNone)
      { w.manager with store := w.manager.store.clearHost hostId }).relayStatus
    refine inv_relay ?_ fun _ => ?_
    · change Kept _ { w with manager := w.manager.step (.clearHost hostId hosts), byClear := w.byClear ++ w.manager.clearedHost hostId }
      rw [RelayManager.step_clearHost hprev]
      refine Kept.listener (hdropped.congr fun key => ?_) rfl _
      simp only
      rw [hstatus, hmissed]
      change _ ↔ (w.manager.store.relayStatus.restrict fun key => ¬OfHost hostId key).get? key = some true
      rw [RelayManager.get?_cleared]
      by_cases hof : OfHost hostId key
      · rw [if_pos hof]
        refine ⟨fun hup => absurd ⟨hof, ?_⟩ hup.2, nofun⟩
        rw [hup.1]
        rfl
      · rw [if_neg hof]
        exact and_iff_left fun hboth => hof hboth.1
    · change (w.manager.step (.clearHost hostId hosts)).prevRelay = (w.manager.step (.clearHost hostId hosts)).store.relayStatus
      rw [RelayManager.step_clearHost hprev]
      exact hstatus.symm

/-! ## Every run -/

/-- A close event comes while the socket is the newest of its session, or the session has an entry, and neither that nor the hook has a
connection of it. -/
def Timely (w : Sockets) : Move → Prop
  | .closeEvent n => ∀ key, w.manager.keyOf n = some key → w.manager.newest key = some n ∨
      (∃ cur, w.manager.store.sessions.get? key = some cur ∧ cur.conn = none) ∧ w.manager.activeConns.lookup key = none
  | _ => True

theorem inv_ticket (h : Inv w) {i : Nat} {ticket : String} (hs : step (.ticket i ticket) w = some w') : Inv w' := by
  change (if _ then none else if w.unmounted = true then _ else _) = some w' at hs
  have hdiscard : Inv { w with manager := { w.manager with pendingFetches := w.manager.pendingFetches.eraseIdx i } } :=
    ⟨h.kept.keep rfl rfl rfl (List.eraseIdx_sublist _ _) rfl (List.Subset.refl _) (fun _ => id) fun _ _ _ _ => rfl, h.prev, h.connected⟩
  split at hs
  · cases hs
  rename_i hlt
  split at hs
  · cases hs
    exact hdiscard
  · rename_i hmounted
    have hp := List.getElem?_eq_getElem (Nat.lt_of_not_le hlt)
    have hstep : w.manager.step (.ticket i ticket) = _ := RelayManager.onTicket_eq hp ticket
    cases hs
    rw [hstep]
    split
    · rename_i hstatus
      have hdrop : (List.range (w.manager.openOn i w.manager.pendingFetches[i] ticket).opened.length).drop w.manager.opened.length =
          [w.manager.opened.length] := by
        change (List.range (w.manager.opened ++ [_]).length).drop _ = _
        rw [List.length_append, List.length_singleton, List.range_succ, List.drop_left' List.length_range]
      rw [hdrop]
      refine ⟨h.kept.opened (eq_false_of_ne_true hmounted) hp hstatus ticket, h.prev, fun hmounted n hn key hkey => ?_⟩
      rw [RelayManager.keyOf_openOn] at hkey
      split at hkey
      · cases hkey
        exact hstatus
      · rename_i hne
        exact h.connected hmounted n ((List.mem_append.1 hn).resolve_right fun hlast => hne (List.mem_singleton.1 hlast)) key hkey
    · have hdrop : (List.range w.manager.opened.length).drop w.manager.opened.length = [] :=
        List.drop_eq_nil_of_le (Nat.le_of_eq List.length_range)
      simp only
      rw [hdrop, List.append_nil]
      exact hdiscard

theorem inv_step {move : Move} (h : Inv w) (hok : Timely w move) (hs : step move w = some w') : Inv w' := by
  cases move with
  | setRelayStatus hostId sessionCode connected hosts => exact inv_setRelayStatus h hostId sessionCode connected hosts hs
  | clearHost hostId hosts => exact inv_clearHost h hostId hosts hs
  | clearSession hostId sessionCode =>
    cases hs
    refine ⟨?_, h.prev, h.connected⟩
    refine h.kept.keep rfl rfl rfl (.refl _) rfl (List.Subset.refl _) (fun n hopen => (isOpen_clear hopen).1) fun n key hn hopen => ?_
    refine connOf_clearSession fun heq => (isOpen_clear hopen).2 ?_
    obtain ⟨-, -, -, hconn, -⟩ := h.kept.opens n key hn (isOpen_clear hopen).1
    exact Option.mem_toList.2 (heq ▸ hconn)
  | act hostId sessionCode update hconn =>
    cases hs
    exact ⟨h.kept.keep rfl rfl rfl (.refl _) rfl (List.Subset.refl _) (fun _ => id) fun _ key _ _ => connOf_act hconn hostId sessionCode key,
      h.prev, h.connected⟩
  | ticket i ticket => exact inv_ticket h hs
  | ticketFails i =>
    change (if _ then none else some _) = some w' at hs
    split at hs
    · cases hs
    · cases hs
      exact ⟨h.kept.keep rfl rfl rfl (List.eraseIdx_sublist _ _) rfl (List.Subset.refl _) (fun _ => id) fun _ _ _ _ => rfl, h.prev,
        h.connected⟩
  | message n msg =>
    cases hs
    change Inv { w with manager := w.manager.onMessage n msg }
    unfold RelayManager.onMessage
    cases w.manager.opened[n]? with
    | none => exact h
    | some o =>
      have hstatus := RelayManager.relayStatus_onMessage w.manager.store o.pending.hostId o.pending.sessionCode msg
      refine ⟨?_, fun hmounted => (h.prev hmounted).trans hstatus.symm, ?_⟩
      · simp only
        rw [hstatus]
        exact h.kept.keep rfl rfl rfl (.refl _) rfl (List.Subset.refl _) (fun _ => id) fun _ key _ _ => connOf_onMessage _ _ _ key msg
      · simp only
        rw [hstatus]
        exact h.connected
  | peerCloses n =>
    change (if _ then some _ else none) = some w' at hs
    split at hs
    · cases hs
      refine ⟨h.kept.keep rfl rfl rfl (.refl _) rfl (List.Subset.refl _) (fun k hopen => ?_) fun _ _ _ _ => rfl, h.prev, h.connected⟩
      obtain ⟨hclosed, hpeer, hclear⟩ := isOpen_iff.1 hopen
      exact isOpen_iff.2 ⟨hclosed, fun hmem => hpeer (List.mem_append_left _ hmem), hclear⟩
    · cases hs
  | closeEvent n =>
    change (if _ then some _ else none) = some w' at hs
    split at hs
    · rename_i hevent
      cases hs
      have hkey : w.manager.keyOf n = some w.manager.opened[n].pending.key := by
        rw [RelayManager.keyOf, List.getElem?_eq_getElem hevent.1]
        rfl
      have hkept := h.kept.onClose hevent.2.1 hkey ((hok _ hkey).imp_right fun hspared => by
        obtain ⟨⟨cur, hcur, hnone⟩, -⟩ := hspared
        rw [StreamStore.connOf, hcur]
        exact hnone)
      change Inv { w with manager := w.manager.onClose n, told := w.told ++ [n] }
      have hsame : (w.manager.onClose n).store.relayStatus = w.manager.store.relayStatus ∧
          (w.manager.onClose n).prevRelay = w.manager.prevRelay ∧ (w.manager.onClose n).opened = w.manager.opened := by
        unfold RelayManager.onClose
        cases w.manager.opened[n]? <;> exact ⟨rfl, rfl, rfl⟩
      refine ⟨?_, fun hmounted => ?_, fun hmounted k hk key hkey => ?_⟩
      · simp only
        rw [hsame.1]
        exact hkept
      · exact hsame.2.1.trans ((h.prev hmounted).trans hsame.1.symm)
      · rw [RelayManager.keyOf_congr hsame.2.2] at hkey
        rw [hsame.1]
        exact h.connected hmounted k hk key hkey
    · cases hs
  | unmount =>
    cases hs
    exact ⟨h.kept.unmount, nofun, nofun⟩

theorem reaches_inv (hr : Reach step initial Timely w) : Inv w :=
  hr.invariant (P := Inv) ⟨kept_initial, fun _ => rfl, nofun⟩ fun _ _ _ _ h hok hs => inv_step h hok hs

/-- What holds of a session: the newest socket is open for a connected relay, and no other; and none is without one. -/
structure OneSocket (w : Sockets) (key : String) : Prop where
  one : w.unmounted = false → w.manager.store.relayStatus.get? key = some true → key ∉ w.manager.pendingFetches.map (·.key) →
    ∀ n ∈ w.current, w.manager.newest key = some n → n ∉ w.byPeer → n ∉ w.byClear →
      w.openOf key = [n] ∧ w.manager.store.connOf key = some n
  none : w.unmounted = true ∨ w.manager.store.relayStatus.get? key ≠ some true → w.openOf key = []

/-- The close event of the socket leaves the session's entry alone, and the connection that the hook has. -/
def LeavesEntry (w w' : Sockets) (key : String) : Prop :=
  w'.manager.store.sessions.get? key = w.manager.store.sessions.get? key ∧
    w'.manager.activeConns.lookup key = w.manager.activeConns.lookup key

/-- It leaves the entry of a newer socket alone exactly where it comes in time. -/
theorem late_iff (h : Inv w) (hs : step (.closeEvent n) w = some w') (hkey : w.manager.keyOf n = some key)
    (hnewer : w.manager.newest key ≠ some n) : LeavesEntry w w' key ↔ Timely w (.closeEvent n) := by
  obtain ⟨o, ho, rfl⟩ := Option.map_eq_some_iff.1 hkey
  have hcomposed : compositeKey o.pending.hostId o.pending.sessionCode = o.pending.key :=
    h.kept.composed o.pending (List.mem_append_right _ (List.mem_map.2 ⟨o, List.mem_of_getElem? ho, rfl⟩))
  have hmanager : w'.manager = w.manager.onClose n := by
    change (if _ then some _ else none) = some w' at hs
    split at hs
    · cases hs
      rfl
    · cases hs
  have hclose : w.manager.onClose n = { w.manager with
      store := w.manager.store.setConn o.pending.hostId o.pending.sessionCode none
      activeConns := w.manager.activeConns.filter (·.1 ≠ o.pending.key) } := by
    unfold RelayManager.onClose
    rw [ho]
  have hlookup : w'.manager.activeConns.lookup o.pending.key = none := by
    rw [hmanager, hclose]
    exact (RelayManager.lookup_drop w.manager o.pending.key o.pending.key).trans (if_pos rfl)
  have hentry := setConn_none_eq_iff w.manager.store o.pending.hostId o.pending.sessionCode
  rw [hcomposed] at hentry
  unfold LeavesEntry
  rw [hlookup, hmanager, hclose]
  refine (and_congr hentry eq_comm).trans ⟨fun hspared k hk => ?_, fun htimely => ?_⟩
  · rw [hkey] at hk
    cases hk
    exact .inr hspared
  · exact (htimely _ hkey).resolve_left hnewer

/-- As long as close events come in time, every session has its one socket, and the event of an earlier one leaves its entry alone. -/
theorem one_socket_run (hr : Reach step initial Timely w) : (∀ key, OneSocket w key) ∧
    ∀ n w' key, step (.closeEvent n) w = some w' → w.manager.keyOf n = some key → w.manager.newest key ≠ some n →
      (LeavesEntry w w' key ↔ Timely w (.closeEvent n)) := by
  have h := reaches_inv hr
  refine ⟨fun key => ⟨fun hmounted hstatus _ n hn hnewest hpeer hclear => ?_, fun hgone => ?_⟩,
    fun n w' key hs hkey hnewer => late_iff h hs hkey hnewer⟩
  · have hkey := RelayManager.keyOf_newest hnewest
    have hopen : w.isOpen n = true := isOpen_iff.2 ⟨h.kept.current hmounted n hn key hkey hstatus, hpeer, hclear⟩
    obtain ⟨-, -, hactive, hconn, -⟩ := h.kept.opens n key hkey hopen
    refine ⟨?_, hconn⟩
    have hnodup : (w.openOf key).Nodup := (RelayManager.nodup_socketsOf _ _).filter _
    have hmem : ∀ k, k ∈ w.openOf key ↔ k = n := by
      intro k
      unfold openOf
      rw [List.mem_filter, RelayManager.mem_socketsOf]
      refine ⟨fun hk => ?_, fun hk => hk ▸ ⟨hkey, hopen⟩⟩
      exact Option.some.inj ((h.kept.opens k key hk.1 hk.2).2.2.1.symm.trans hactive)
    exact List.perm_singleton.1 ((List.perm_ext_iff_of_nodup hnodup (List.nodup_singleton n)).2 fun k => by
      rw [hmem, List.mem_singleton])
  · refine List.filter_eq_nil_iff.2 fun n hn hopen => ?_
    obtain ⟨hmounted, hstatus, -⟩ := h.kept.opens n key (RelayManager.mem_socketsOf.1 hn) hopen
    rcases hgone with hgone | hgone
    · exact nomatch hgone.symm.trans hmounted
    · exact hgone hstatus

def opens (_ : Sockets) : Move → Bool
  | .setRelayStatus .. | .ticket .. => true
  | _ => false

def connects : List Move := [.setRelayStatus "h" "s" true (createDefaultState "h"), .ticket 0 "t"]

theorem connects_goes : (playAll step opens connects initial).isSome = true := by decide

theorem one_socket_connects : OneSocket ((playAll step opens connects initial).get connects_goes) "h:s" ∧
    ((playAll step opens connects initial).get connects_goes).openOf "h:s" = [0] := by
  have hok : ∀ w m, opens w m = true → Timely w m := by
    intro w m hm
    cases m with
    | closeEvent => cases hm
    | _ => trivial
  exact ⟨(one_socket_run (Reach.init.playAll hok (Option.some_get connects_goes).symm)).1 "h:s", by decide⟩

/-- The socket of an earlier connection is told of its close behind the ticket of the next. -/
def overtaken : List Move :=
  [.setRelayStatus "h" "s" true (createDefaultState "h"), .ticket 0 "t", .setRelayStatus "h" "s" false (createDefaultState "h"),
    .setRelayStatus "h" "s" true (createDefaultState "h"), .ticket 0 "u", .closeEvent 0]

theorem overtaken_goes : (playAll step (fun _ _ => true) overtaken initial).isSome = true := by decide

/-- The connection is lost to the store and to the hook, and nothing closes the socket any more. -/
theorem one_socket_overtaken : ∃ w, Reach step initial (fun _ _ => True) w ∧ ¬OneSocket w "h:s" ∧
    ∃ w', step (.setRelayStatus "h" "s" false (createDefaultState "h")) w = some w' ∧ ¬OneSocket w' "h:s" ∧ ¬OneSocket w'.unmount "h:s" := by
  have hreach : Reach step initial (fun _ _ => True) ((playAll step (fun _ _ => true) overtaken initial).get overtaken_goes) :=
    Reach.init.playAll (fun _ _ _ => trivial) (Option.some_get overtaken_goes).symm
  refine ⟨_, hreach, fun h => ?_, _, rfl, fun h => ?_, fun h => ?_⟩
  · obtain ⟨-, hconn⟩ := h.one (by decide) (by decide) (by decide) 1 (by decide) (by decide)
      (by decide) (by decide)
    exact absurd hconn (by decide)
  · exact absurd (h.none (.inr (by decide))) (by decide)
  · exact absurd (h.none (.inl rfl)) (by decide)

end Sockets

end Purdex.Client
