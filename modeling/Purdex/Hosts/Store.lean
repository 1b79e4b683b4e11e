/-
The store of the hosts: the hosts by their ids, the order they are shown in, and the one that is active. An id is taken
for no name that every object has (`constructor` and the like).
-/
import Mathlib.Data.List.AList

namespace Purdex.Hosts

abbrev HostId := String

/-- A token is absent, cleared (`null`), or there. -/
structure HostConfig where
  id : HostId
  name : String
  ip : String
  port : Int
  token : Option (Option String)
  order : Nat
  deriving DecidableEq

abbrev HostMap := AList fun _ : HostId => HostConfig

/-- `hostOrder` is `undefined` where a payload that was taken over had none; `undefined` and `null` are not told apart in
`activeHostId`. -/
structure HostState where
  hosts : HostMap
  hostOrder : Option (List HostId)
  activeHostId : Option HostId

def createDefaultState (id : HostId) : HostState where
  hosts := AList.singleton id ⟨id, "mlab", "100.64.0.2", 7860, none, 0⟩
  hostOrder := some [id]
  activeHostId := some id

structure HostOpts where
  id : Option HostId
  name : String
  ip : String
  port : Int
  token : Option (Option String)

namespace HostState

variable (s : HostState)

/-- `generated` is what `generateId` answers. The length of an order that is `undefined` is an error, and nothing is set. -/
def addHost (opts : HostOpts) (generated : HostId) : Option HostState :=
  let id := opts.id.getD generated
  if id ∈ s.hosts then some s
  else s.hostOrder.map fun hostOrder =>
    { s with
      hosts := s.hosts.insert id ⟨id, opts.name, opts.ip, opts.port, opts.token, hostOrder.length⟩
      hostOrder := some (hostOrder ++ [id]) }

structure HostUpdates where
  name : Option String
  ip : Option String
  port : Option Int
  token : Option (Option (Option String))

def updateHost (hostId : HostId) (updates : HostUpdates) : HostState :=
  match s.hosts.lookup hostId with
  | none => s
  | some host =>
    { s with
      hosts := s.hosts.replace hostId
        { host with
          name := updates.name.getD host.name
          ip := updates.ip.getD host.ip
          port := updates.port.getD host.port
          token := updates.token.getD host.token } }

def removeHost (hostId : HostId) : Option HostState :=
  if s.hosts.keys.length ≤ 1 then some s
  else s.hostOrder.map fun hostOrder =>
    let newOrder := hostOrder.filter (· ≠ hostId)
    { hosts := s.hosts.erase hostId
      hostOrder := some newOrder
      activeHostId := if s.activeHostId = some hostId then newOrder.head? else s.activeHostId }

/-- The hosts with the places that `orderedIds` gives them. -/
def placed (hosts : HostMap) (orderedIds : List HostId) : HostMap :=
  orderedIds.zipIdx.foldl (fun hosts p => match hosts.lookup p.1 with
    | none => hosts
    | some host => hosts.replace p.1 { host with order := p.2 }) hosts

def reorderHosts (orderedIds : List HostId) : HostState :=
  { s with hosts := placed s.hosts orderedIds, hostOrder := some orderedIds }

def setActiveHost (hostId : HostId) : HostState :=
  if hostId ∈ s.hosts then { s with activeHostId := some hostId } else s

/-- The host an address is made of: the one asked for, else the active one or the first. -/
def addressed (hostId : HostId) : Option HostConfig :=
  s.hosts.lookup hostId <|> ((s.activeHostId <|> (s.hostOrder.getD []).head?).bind s.hosts.lookup)

def getDaemonBase (hostId : HostId) : String :=
  match s.addressed hostId with
  | none => "http://127.0.0.1:7860"
  | some host => "http://" ++ host.ip ++ ":" ++ toString host.port

def getWsBase (hostId : HostId) : String :=
  match s.addressed hostId with
  | none => "ws://127.0.0.1:7860"
  | some host => "ws://" ++ host.ip ++ ":" ++ toString host.port

/-- An empty token is no token. -/
def getAuthHeaders (hostId : HostId) : List (String × String) :=
  match (s.hosts.lookup hostId).bind fun host => host.token.join with
  | none => []
  | some token => if token = "" then [] else [("Authorization", "Bearer " ++ token)]

/-! ## Consistent stores -/

/-- The order lists the hosts, each once; there is one, and the active one is one. -/
structure Consistent : Prop where
  order : ∃ hostOrder, s.hostOrder = some hostOrder ∧ hostOrder.Nodup ∧ hostOrder.Perm s.hosts.keys
  some_host : s.hosts.keys ≠ []
  active : ∀ id, s.activeHostId = some id → id ∈ s.hosts

variable {s}

theorem consistent_of_perm {hostOrder : List HostId} (horder : s.hostOrder = some hostOrder)
    (hperm : hostOrder.Perm s.hosts.keys) (hne : s.hosts.keys ≠ [])
    (hactive : ∀ id, s.activeHostId = some id → id ∈ s.hosts) : s.Consistent :=
  ⟨⟨hostOrder, horder, hperm.nodup_iff.2 s.hosts.keys_nodup, hperm⟩, hne, hactive⟩

theorem createDefaultState_consistent (id : HostId) : (createDefaultState id).Consistent := by
  refine consistent_of_perm rfl (List.Perm.refl _) (List.cons_ne_nil _ _) fun active h => ?_
  cases h
  exact List.mem_singleton_self _

/-- The keys and what is in them. -/
theorem mem_of_perm_keys {hosts hosts' : HostMap} (h : hosts.keys.Perm hosts'.keys) {id : HostId} :
    id ∈ hosts ↔ id ∈ hosts' := by
  rw [AList.mem_keys, AList.mem_keys, h.mem_iff]

theorem keys_insert_new {hosts : HostMap} {id : HostId} {host : HostConfig} (h : id ∉ hosts) :
    (hosts.insert id host).keys = id :: hosts.keys := by
  rw [AList.keys_insert, List.erase_of_not_mem h]

theorem keys_placed (hosts : HostMap) (orderedIds : List HostId) : (placed hosts orderedIds).keys = hosts.keys := by
  have hfold : ∀ (l : List (HostId × Nat)) (hosts : HostMap), (l.foldl (fun hosts p => match hosts.lookup p.1 with
      | none => hosts
      | some host => hosts.replace p.1 { host with order := p.2 }) hosts).keys = hosts.keys := by
    intro l
    induction l with
    | nil => exact fun _ => rfl
    | cons p l ih =>
      intro hosts
      rw [List.foldl_cons, ih]
      cases hosts.lookup p.1 with
      | none => rfl
      | some host => exact AList.keys_replace _ _ _
  exact hfold _ _

theorem lookup_replace (hosts : HostMap) (id : HostId) (host : HostConfig) (id' : HostId) :
    (hosts.replace id host).lookup id' = if id' = id then (hosts.lookup id).map (fun _ => host) else hosts.lookup id' := by
  change List.dlookup id' (List.kreplace id host hosts.entries) =
    if id' = id then (List.dlookup id hosts.entries).map (fun _ => host) else List.dlookup id' hosts.entries
  unfold List.kreplace
  induction hosts.entries with
  | nil => simp
  | cons e l ih =>
    obtain ⟨k, v⟩ := e
    by_cases hk : id = k
    · subst hk
      rw [List.lookmap_cons_some _ _ (by simp : (if id = id then some (⟨id, host⟩ : Sigma fun _ => HostConfig) else none) = some ⟨id, host⟩)]
      by_cases hid : id' = id
      · subst hid
        simp
      · rw [if_neg hid, List.dlookup_cons_ne _ _ hid, List.dlookup_cons_ne _ _ hid]
    · rw [List.lookmap_cons_none _ _ (by simp [hk])]
      by_cases hid : id' = k
      · subst hid
        simp [Ne.symm hk]
      · rw [List.dlookup_cons_ne _ _ hid, ih, List.dlookup_cons_ne _ _ hk, List.dlookup_cons_ne _ _ hid]

/-- Each host of the order gets its place there. -/
theorem lookup_placed {hosts : HostMap} {orderedIds : List HostId} (hnodup : orderedIds.Nodup) (id : HostId) :
    (placed hosts orderedIds).lookup id =
      (hosts.lookup id).map fun host => if id ∈ orderedIds then { host with order := orderedIds.idxOf id } else host := by
  have hfold : ∀ (ids : List HostId) (n : Nat) (hosts : HostMap), ids.Nodup → ((ids.zipIdx n).foldl (fun hosts p => match hosts.lookup p.1 with
      | none => hosts
      | some host => hosts.replace p.1 { host with order := p.2 }) hosts).lookup id =
        (hosts.lookup id).map fun host => if id ∈ ids then { host with order := n + ids.idxOf id } else host := by
    intro ids
    induction ids with
    | nil => intro n hosts _; simp
    | cons a ids ih =>
      intro n hosts hnodup
      obtain ⟨ha, hids⟩ := List.nodup_cons.1 hnodup
      rw [List.zipIdx_cons, List.foldl_cons, ih (n + 1) _ hids]
      have hstep : (match hosts.lookup a with
          | none => hosts
          | some host => hosts.replace a { host with order := n }).lookup id =
            (hosts.lookup id).map fun host => if id = a then { host with order := n } else host := by
        cases hlookup : hosts.lookup a with
        | none =>
          dsimp only
          by_cases hid : id = a
          · subst hid
            rw [hlookup]
            rfl
          · simp [hid]
        | some host =>
          dsimp only
          rw [lookup_replace]
          by_cases hid : id = a
          · subst hid
            simp [hlookup]
          · simp [hid]
      change ((match hosts.lookup a with
          | none => hosts
          | some host => hosts.replace a { host with order := n }).lookup id).map _ = _
      rw [hstep, Option.map_map]
      refine Option.map_congr fun host _ => ?_
      by_cases hid : id = a
      · subst hid
        simp [ha]
      · have hcons : id ∈ a :: ids ↔ id ∈ ids := by simp [hid]
        rw [Function.comp_apply, if_neg hid]
        by_cases hmem : id ∈ ids
        · rw [if_pos hmem, if_pos (hcons.2 hmem), List.idxOf_cons_ne _ (Ne.symm hid), Nat.add_right_comm, Nat.add_assoc]
        · rw [if_neg hmem, if_neg fun h => hmem (hcons.1 h)]
  have hplaced := hfold orderedIds 0 hosts hnodup
  simp only [Nat.zero_add] at hplaced
  exact hplaced

/-! ## What the operations keep -/

/-- What adding leaves: the keys with the new one, and the active host as it was. -/
theorem addHost_spec {opts : HostOpts} {generated : HostId} {s' : HostState} (h : s.addHost opts generated = some s') :
    s'.hosts.keys = s.hosts.keys.insert (opts.id.getD generated) ∧ s'.activeHostId = s.activeHostId := by
  unfold addHost at h
  by_cases hknown : opts.id.getD generated ∈ s.hosts
  · rw [if_pos hknown] at h
    cases h
    exact ⟨(List.insert_of_mem (AList.mem_keys.1 hknown)).symm, rfl⟩
  · rw [if_neg hknown] at h
    obtain ⟨hostOrder, -, rfl⟩ := Option.map_eq_some_iff.1 h
    refine ⟨?_, rfl⟩
    rw [keys_insert_new hknown, List.insert_of_not_mem hknown]

theorem Consistent.addHost {opts : HostOpts} {generated : HostId} {s' : HostState} (h : s.Consistent)
    (hadd : s.addHost opts generated = some s') : s'.Consistent := by
  unfold HostState.addHost at hadd
  by_cases hknown : opts.id.getD generated ∈ s.hosts
  · rw [if_pos hknown] at hadd
    cases hadd
    exact h
  · rw [if_neg hknown] at hadd
    obtain ⟨hostOrder, horder, -, hperm⟩ := h.order
    rw [horder] at hadd
    cases hadd
    refine consistent_of_perm rfl ?_ ?_ fun id hid => ?_
    · rw [keys_insert_new hknown]
      exact List.perm_append_comm.trans (hperm.cons _)
    · rw [keys_insert_new hknown]
      exact List.cons_ne_nil _ _
    · exact (AList.mem_insert _).2 (.inr (h.active id hid))

theorem Consistent.addHost_some (h : s.Consistent) (opts : HostOpts) (generated : HostId) : ∃ s', s.addHost opts generated = some s' := by
  obtain ⟨hostOrder, horder, -⟩ := h.order
  unfold HostState.addHost
  rw [horder]
  by_cases hknown : opts.id.getD generated ∈ s.hosts
  · exact ⟨s, if_pos hknown⟩
  · exact ⟨_, if_neg hknown⟩

theorem Consistent.updateHost (h : s.Consistent) (hostId : HostId) (updates : HostUpdates) :
    (s.updateHost hostId updates).Consistent := by
  unfold HostState.updateHost
  cases s.hosts.lookup hostId with
  | none => exact h
  | some host =>
    obtain ⟨hostOrder, horder, -, hperm⟩ := h.order
    refine consistent_of_perm horder ?_ ?_ fun id hid => ?_
    · rw [AList.keys_replace]
      exact hperm
    · rw [AList.keys_replace]
      exact h.some_host
    · exact AList.mem_replace.2 (h.active id hid)

/-- The last host is not removed, so that the order has one for the active host to be. -/
theorem Consistent.removeHost {hostId : HostId} {s' : HostState} (h : s.Consistent) (hremove : s.removeHost hostId = some s') :
    s'.Consistent := by
  unfold HostState.removeHost at hremove
  by_cases hlast : s.hosts.keys.length ≤ 1
  · rw [if_pos hlast] at hremove
    cases hremove
    exact h
  · rw [if_neg hlast] at hremove
    obtain ⟨hostOrder, horder, hnodup, hperm⟩ := h.order
    rw [horder] at hremove
    cases hremove
    have hkept : (hostOrder.filter (· ≠ hostId)).Perm (s.hosts.erase hostId).keys := by
      have herase : hostOrder.erase hostId = hostOrder.filter (· ≠ hostId) := by
        rw [hnodup.erase_eq_filter]
        exact List.filter_congr fun a _ => by simp [bne, BEq.beq]
      rw [AList.keys_erase, ← herase]
      exact hperm.erase hostId
    have hne : (s.hosts.erase hostId).keys ≠ [] := by
      rw [AList.keys_erase]
      intro hnil
      have hlength := List.length_erase (a := hostId) (l := s.hosts.keys)
      rw [hnil, List.length_nil] at hlength
      split at hlength <;> omega
    refine consistent_of_perm rfl hkept hne fun id hid => ?_
    change (if s.activeHostId = some hostId then (hostOrder.filter (· ≠ hostId)).head? else s.activeHostId) = some id at hid
    by_cases hactive : s.activeHostId = some hostId
    · rw [if_pos hactive] at hid
      exact hkept.subset (List.mem_of_head? hid)
    · rw [if_neg hactive] at hid
      refine AList.mem_erase.2 ⟨?_, h.active id hid⟩
      rintro rfl
      exact hactive hid

theorem Consistent.setActiveHost (h : s.Consistent) (hostId : HostId) : (s.setActiveHost hostId).Consistent := by
  unfold HostState.setActiveHost
  by_cases hknown : hostId ∈ s.hosts
  · rw [if_pos hknown]
    refine ⟨h.order, h.some_host, fun id hid => ?_⟩
    cases hid
    exact hknown
  · rw [if_neg hknown]
    exact h

/-- An order is as good as the hosts it lists. -/
theorem reorderHosts_consistent_iff {orderedIds : List HostId} (hne : s.hosts.keys ≠ [])
    (hactive : ∀ id, s.activeHostId = some id → id ∈ s.hosts) :
    (s.reorderHosts orderedIds).Consistent ↔ orderedIds.Perm s.hosts.keys := by
  have hkeys := keys_placed s.hosts orderedIds
  constructor
  · intro h
    obtain ⟨hostOrder, horder, -, hperm⟩ := h.order
    cases horder
    exact hkeys ▸ hperm
  · intro h
    refine consistent_of_perm rfl (hkeys.symm ▸ h) (hkeys.symm ▸ hne) fun id hid => ?_
    exact (mem_of_perm_keys (List.Perm.of_eq hkeys)).2 (hactive id hid)

end HostState

end Purdex.Hosts
