/-
The host store over time: hosts are added and removed, what other devices wrote is taken over, and a deletion can be taken
back at any later moment, by a closure that remembers the order of then.
-/
import Mathlib.Data.List.Induction
import Purdex.Hosts.Store

namespace Purdex.Hosts

open HostState

/-! ## What is taken over -/

/-- What a payload holds of the store; a field may be missing. -/
structure HostsData where
  hosts : Option HostMap
  hostOrder : Option (List HostId)
  activeHostId : Option (Option HostId)

/-- `field-merge` says which fields are taken from the other side. -/
inductive MergeStrategy
  | fullReplace
  | fieldMerge (hosts hostOrder activeHostId : Bool)

/-- The hosts that come in, each with the token of the known host at the same address. -/
def mergeHostsPreservingTokens (current incoming : HostMap) : HostMap where
  entries := incoming.entries.map fun p =>
    ⟨p.1, { p.2 with token := match current.lookup p.1 with
      | none => some none
      | some known => if known.ip = p.2.ip ∧ known.port = p.2.port then known.token else some none }⟩
  nodupKeys := by
    have hkeys := incoming.nodupKeys
    simpa [List.NodupKeys, List.keys, Function.comp_def] using hkeys

theorem keys_mergeHosts (current incoming : HostMap) : (mergeHostsPreservingTokens current incoming).keys = incoming.keys := by
  simp [mergeHostsPreservingTokens, AList.keys, List.keys, Function.comp_def]

/-- What is written over the store. -/
structure Patch where
  hosts : Option HostMap
  hostOrder : Option (Option (List HostId))
  activeHostId : Option (Option HostId)

def patchOf (incoming : HostsData) : MergeStrategy → Patch
  | .fullReplace => ⟨some (incoming.hosts.getD ∅), some incoming.hostOrder, some incoming.activeHostId.join⟩
  | .fieldMerge hosts hostOrder activeHostId =>
    ⟨if hosts then incoming.hosts else none, if hostOrder then incoming.hostOrder.map some else none,
      if activeHostId then incoming.activeHostId else none⟩

def Patch.set (patch : Patch) (s : HostState) : HostState where
  hosts := patch.hosts.elim s.hosts (mergeHostsPreservingTokens s.hosts)
  hostOrder := patch.hostOrder.getD s.hostOrder
  activeHostId := patch.activeHostId.getD s.activeHostId

def deserialize (incoming : HostsData) (merge : MergeStrategy) (s : HostState) : HostState := (patchOf incoming merge).set s

/-- An order that lists these hosts, each once. -/
def Lists (hostOrder : Option (List HostId)) (hosts : HostMap) : Prop := ∃ ids, hostOrder = some ids ∧ ids.Perm hosts.keys

/-- The fields that are taken go with each other and with the fields they are put beside: hosts that come without their
order are those that are here, an order that comes without its hosts lists those that are here, and who is active is a host. -/
def Patch.Fits (patch : Patch) (s : HostState) : Prop :=
  match patch.hosts with
  | none =>
    (∀ hostOrder, patch.hostOrder = some hostOrder → Lists hostOrder s.hosts) ∧
      ∀ id, patch.activeHostId = some (some id) → id ∈ s.hosts
  | some hosts =>
    hosts.keys ≠ [] ∧
      (match patch.hostOrder with
        | none => s.hosts.keys.Perm hosts.keys
        | some hostOrder => Lists hostOrder hosts) ∧
      ∀ id, patch.activeHostId.getD s.activeHostId = some id → id ∈ hosts

theorem HostState.consistent_iff {s : HostState} :
    s.Consistent ↔ Lists s.hostOrder s.hosts ∧ s.hosts.keys ≠ [] ∧ ∀ id, s.activeHostId = some id → id ∈ s.hosts := by
  constructor
  · intro h
    obtain ⟨hostOrder, horder, -, hperm⟩ := h.order
    exact ⟨⟨hostOrder, horder, hperm⟩, h.some_host, h.active⟩
  · rintro ⟨⟨hostOrder, horder, hperm⟩, hne, hactive⟩
    exact consistent_of_perm horder hperm hne hactive

theorem lists_congr {hostOrder : Option (List HostId)} {hosts hosts' : HostMap} (h : hosts.keys.Perm hosts'.keys) :
    Lists hostOrder hosts ↔ Lists hostOrder hosts' :=
  exists_congr fun _ => and_congr_right fun _ => ⟨fun hperm => hperm.trans h, fun hperm => hperm.trans h.symm⟩

theorem Patch.set_consistent_iff {patch : Patch} {s : HostState} (h : s.Consistent) : (patch.set s).Consistent ↔ patch.Fits s := by
  obtain ⟨hlists, hne, hactive⟩ := consistent_iff.1 h
  rw [consistent_iff]
  cases patch with
  | mk hosts hostOrder activeHostId =>
    cases hosts with
    | none =>
      change Lists (hostOrder.getD s.hostOrder) s.hosts ∧ s.hosts.keys ≠ [] ∧
        (∀ id, activeHostId.getD s.activeHostId = some id → id ∈ s.hosts) ↔
          (∀ o, hostOrder = some o → Lists o s.hosts) ∧ ∀ id, activeHostId = some (some id) → id ∈ s.hosts
      cases hostOrder <;> cases activeHostId <;> simp_all
    | some hosts =>
      have hkeys : (mergeHostsPreservingTokens s.hosts hosts).keys.Perm hosts.keys := List.Perm.of_eq (keys_mergeHosts _ _)
      have hmem : ∀ id, id ∈ mergeHostsPreservingTokens s.hosts hosts ↔ id ∈ hosts := fun id => mem_of_perm_keys hkeys
      change Lists (hostOrder.getD s.hostOrder) (mergeHostsPreservingTokens s.hosts hosts) ∧
        (mergeHostsPreservingTokens s.hosts hosts).keys ≠ [] ∧
          (∀ id, activeHostId.getD s.activeHostId = some id → id ∈ mergeHostsPreservingTokens s.hosts hosts) ↔ _
      rw [lists_congr hkeys, keys_mergeHosts, and_left_comm]
      simp only [hmem]
      refine and_congr_right fun _ => and_congr_left fun _ => ?_
      cases hostOrder with
      | some hostOrder => exact Iff.rfl
      | none =>
        obtain ⟨ids, horder, hperm⟩ := hlists
        change Lists s.hostOrder hosts ↔ s.hosts.keys.Perm hosts.keys
        constructor
        · rintro ⟨ids', horder', hperm'⟩
          cases horder.symm.trans horder'
          exact hperm.symm.trans hperm'
        · exact fun hsame => ⟨ids, horder, hperm.trans hsame⟩

/-! ## Deletion and its undo -/

/-- What the closure of a deletion remembers of this store. -/
structure Snapshot where
  hostId : HostId
  host : HostConfig
  hostOrder : List HostId
  activeHostId : Option HostId

/-- The state, and the snapshot of a deletion that was not refused. -/
def deleteHostCascade (hostId : HostId) (s : HostState) : HostState × Option Snapshot :=
  match s.hosts.lookup hostId, s.hostOrder with
  | some host, some hostOrder =>
    if s.hosts.keys.length ≤ 1 then (s, none)
    else ((s.removeHost hostId).getD s, some ⟨hostId, host, hostOrder, s.activeHostId⟩)
  | _, _ => (s, none)

/-- The closure: nothing where the id is a host's again. -/
def Snapshot.undo (snapshot : Snapshot) (s : HostState) : Option HostState :=
  if snapshot.hostId ∈ s.hosts then some s
  else
    (s.addHost ⟨some snapshot.host.id, snapshot.host.name, snapshot.host.ip, snapshot.host.port, snapshot.host.token⟩ "").map
      fun s =>
        let s := s.reorderHosts snapshot.hostOrder
        if snapshot.activeHostId = some snapshot.hostId then s.setActiveHost snapshot.hostId else s

/-- The hosts there are and the one that comes back are those of the order that is remembered. -/
def Snapshot.Fits (snapshot : Snapshot) (s : HostState) : Prop :=
  snapshot.hostId ∈ s.hosts ∨ snapshot.hostOrder.Perm (s.hosts.keys.insert snapshot.host.id)

theorem deleteHostCascade_consistent {s : HostState} (h : s.Consistent) (hostId : HostId) :
    (deleteHostCascade hostId s).1.Consistent := by
  unfold deleteHostCascade
  split
  · split
    · exact h
    · cases hremove : s.removeHost hostId with
      | none => exact h
      | some s' => exact h.removeHost hremove
  · exact h

theorem HostState.setActiveHost_consistent_iff {s : HostState} {hostId : HostId} (hactive : ∀ id, s.activeHostId = some id → id ∈ s.hosts) :
    (s.setActiveHost hostId).Consistent ↔ s.Consistent := by
  refine ⟨fun h => ?_, fun h => h.setActiveHost hostId⟩
  unfold HostState.setActiveHost at h
  split at h
  · exact ⟨h.order, h.some_host, hactive⟩
  · exact h

theorem Snapshot.undo_consistent_iff {snapshot : Snapshot} {s : HostState} (h : s.Consistent) :
    ((snapshot.undo s).getD s).Consistent ↔ snapshot.Fits s := by
  unfold Snapshot.undo Snapshot.Fits
  by_cases hthere : snapshot.hostId ∈ s.hosts
  · rw [if_pos hthere]
    exact iff_of_true h (.inl hthere)
  · rw [if_neg hthere, or_iff_right hthere]
    obtain ⟨added, hadd⟩ := h.addHost_some ⟨some snapshot.host.id, snapshot.host.name, snapshot.host.ip, snapshot.host.port,
      snapshot.host.token⟩ ""
    rw [hadd, Option.map_some, Option.getD_some]
    obtain ⟨hkeys, -⟩ := addHost_spec hadd
    have hadded := h.addHost hadd
    have horder := @reorderHosts_consistent_iff added snapshot.hostOrder hadded.some_host hadded.active
    rw [hkeys] at horder
    have hactive : ∀ id, (added.reorderHosts snapshot.hostOrder).activeHostId = some id →
        id ∈ (added.reorderHosts snapshot.hostOrder).hosts := fun id hid =>
      (mem_of_perm_keys (List.Perm.of_eq (keys_placed _ _))).2 (hadded.active id hid)
    change (if snapshot.activeHostId = some snapshot.hostId then (added.reorderHosts snapshot.hostOrder).setActiveHost snapshot.hostId
      else added.reorderHosts snapshot.hostOrder).Consistent ↔ _
    split
    · exact (setActiveHost_consistent_iff hactive).trans horder
    · exact horder

/-! ## Runs -/

structure World where
  store : HostState
  /-- The closures that deletions gave out, in their order. -/
  undos : List (Option Snapshot)

inductive Act
  | addHost (opts : HostOpts) (generated : HostId)
  | updateHost (hostId : HostId) (updates : HostUpdates)
  | removeHost (hostId : HostId)
  | setActiveHost (hostId : HostId)
  | deserialize (incoming : HostsData) (merge : MergeStrategy)
  | deleteHostCascade (hostId : HostId)
  | undo (i : Nat)

/-- What an action that fails leaves is what there was. -/
def Act.apply (act : Act) (w : World) : World :=
  match act with
  | addHost opts generated => { w with store := (w.store.addHost opts generated).getD w.store }
  | updateHost hostId updates => { w with store := w.store.updateHost hostId updates }
  | removeHost hostId => { w with store := (w.store.removeHost hostId).getD w.store }
  | setActiveHost hostId => { w with store := w.store.setActiveHost hostId }
  | deserialize incoming merge => { w with store := Hosts.deserialize incoming merge w.store }
  | deleteHostCascade hostId =>
    { store := (Hosts.deleteHostCascade hostId w.store).1, undos := w.undos ++ [(Hosts.deleteHostCascade hostId w.store).2] }
  | undo i => match (w.undos[i]?).join with
    | none => w
    | some snapshot => { w with store := (snapshot.undo w.store).getD w.store }

def run (acts : List Act) (s : HostState) : World := acts.foldl (fun w act => act.apply w) ⟨s, []⟩

/-- What is taken over fits, and so does what is taken back. -/
def Act.Fits (act : Act) (w : World) : Prop :=
  match act with
  | deserialize incoming merge => (patchOf incoming merge).Fits w.store
  | undo i => ∀ snapshot, (w.undos[i]?).join = some snapshot → snapshot.Fits w.store
  | _ => True

theorem getD_consistent {o : Option HostState} {s : HostState} (h : s.Consistent) (ho : ∀ s', o = some s' → s'.Consistent) :
    (o.getD s).Consistent := by
  cases o with
  | none => exact h
  | some s' => exact ho s' rfl

theorem Act.apply_consistent_iff (act : Act) {w : World} (h : w.store.Consistent) :
    (act.apply w).store.Consistent ↔ act.Fits w := by
  cases act with
  | addHost opts generated => exact iff_of_true (getD_consistent h fun _ => h.addHost) trivial
  | updateHost hostId updates => exact iff_of_true (h.updateHost hostId updates) trivial
  | removeHost hostId => exact iff_of_true (getD_consistent h fun _ => h.removeHost) trivial
  | setActiveHost hostId => exact iff_of_true (h.setActiveHost hostId) trivial
  | deserialize incoming merge => exact Patch.set_consistent_iff h
  | deleteHostCascade hostId => exact iff_of_true (deleteHostCascade_consistent h hostId) trivial
  | undo i =>
    change (match (w.undos[i]?).join with
      | none => w
      | some snapshot => { w with store := (snapshot.undo w.store).getD w.store }).store.Consistent ↔
        ∀ snapshot, (w.undos[i]?).join = some snapshot → snapshot.Fits w.store
    cases (w.undos[i]?).join with
    | none => exact iff_of_true h nofun
    | some snapshot =>
      have hone : (∀ snapshot', some snapshot = some snapshot' → snapshot'.Fits w.store) ↔ snapshot.Fits w.store := by simp
      exact (Snapshot.undo_consistent_iff h).trans hone.symm

theorem run_append (acts : List Act) (act : Act) (s : HostState) : run (acts ++ [act]) s = act.apply (run acts s) := by
  rw [run, List.foldl_append]
  rfl

/-- From a consistent store: every state of a run is consistent if and only if every payload that is taken over fits what is
there, and every undo finds the hosts as its deletion left them. -/
theorem hosts_consistent_iff {s : HostState} (hs : s.Consistent) (acts : List Act) :
    (∀ before, before <+: acts → (run before s).store.Consistent) ↔
      ∀ before act, before ++ [act] <+: acts → act.Fits (run before s) := by
  constructor
  · intro h before act hinit
    have hbefore := h before ((List.prefix_append before [act]).trans hinit)
    rw [← Act.apply_consistent_iff act hbefore, ← run_append]
    exact h _ hinit
  · intro h before hinit
    induction before using List.reverseRecOn with
    | nil => exact hs
    | append_singleton before act ih =>
      have hbefore := ih ((List.prefix_append before [act]).trans hinit)
      rw [run_append, Act.apply_consistent_iff act hbefore]
      exact h before act hinit

/-- Two hosts, one of them deleted and taken back. -/
theorem hosts_consistent_iff_two :
    (∀ before, before <+: [Act.addHost ⟨some "b", "b", "10.0.0.2", 7860, none⟩ "", .deleteHostCascade "a", .undo 0] →
      (run before (createDefaultState "a")).store.Consistent) ↔
    ∀ before act, before ++ [act] <+: [Act.addHost ⟨some "b", "b", "10.0.0.2", 7860, none⟩ "", .deleteHostCascade "a", .undo 0] →
      act.Fits (run before (createDefaultState "a")) :=
  hosts_consistent_iff (createDefaultState_consistent "a") _

/-- The host that is added while a deletion can be taken back is in no order behind the undo. -/
theorem undo_drops_added :
    ¬(run [.addHost ⟨some "b", "b", "10.0.0.2", 7860, none⟩ "", .deleteHostCascade "b",
      .addHost ⟨some "c", "c", "10.0.0.3", 7860, none⟩ "", .undo 0] (createDefaultState "a")).store.Consistent := by
  have horder : (run [.addHost ⟨some "b", "b", "10.0.0.2", 7860, none⟩ "", .deleteHostCascade "b",
      .addHost ⟨some "c", "c", "10.0.0.3", 7860, none⟩ "", .undo 0] (createDefaultState "a")).store.hostOrder =
        some ["a", "b"] := by decide
  have hkeys : (run [.addHost ⟨some "b", "b", "10.0.0.2", 7860, none⟩ "", .deleteHostCascade "b",
      .addHost ⟨some "c", "c", "10.0.0.3", 7860, none⟩ "", .undo 0] (createDefaultState "a")).store.hosts.keys.length = 3 := by
    decide
  intro h
  obtain ⟨hostOrder, horder', -, hperm⟩ := h.order
  rw [horder] at horder'
  cases horder'
  exact absurd (hperm.length_eq.trans hkeys) (by decide)

end Purdex.Hosts
