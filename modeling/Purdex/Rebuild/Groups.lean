/-
What "Rebuild all" acts on: the rows of the records table, which of them are rebuildable, and the groups that are
rebuilt together.
-/
import Purdex.Rebuild.State

namespace Purdex.Rebuild

open Json Panes

/-! ## Eligibility -/

/-- Where a pane lives and what it is bound to. -/
structure PaneRef where
  paneId : String
  tabId : String
  hostId : String
  sessionCode : String
  tmuxInstance : String
  deriving Repr, DecidableEq

structure RecordRow extends PaneRef where
  cachedName : String
  terminated : Option TerminatedReason
  record : Option PaneRebuildRecord
  deriving Repr, DecidableEq

/-- A dead pane with a record. -/
structure BatchCandidate extends PaneRef where
  record : PaneRebuildRecord
  deriving Repr, DecidableEq

inductive RecordHealth where
  | live
  | dead
  | structureOnly
  | offline
  deriving Repr, DecidableEq

inductive IneligibleReason where
  | attached
  | hostRemoved
  | noRecord
  | noCwd
  deriving Repr, DecidableEq

structure RecordEligibility where
  health : RecordHealth
  rebuildable : Bool
  reason : Option IneligibleReason
  deriving Repr, DecidableEq

/-- A record that cannot say where to launch is not rebuilt. -/
def classifyRecord (row : RecordRow) : RecordEligibility :=
  match row.terminated, row.record with
  | some .hostRemoved, _ => ⟨.offline, false, some .hostRemoved⟩
  | none, _ => ⟨.live, false, some .attached⟩
  | some _, none => ⟨.structureOnly, false, some .noRecord⟩
  | some _, some record => if Falsy record.cwd then ⟨.structureOnly, false, some .noCwd⟩ else ⟨.dead, true, none⟩

def collectRecordRows (tabs : Tabs) : List RecordRow :=
  tabs.values.flatMap fun tab => tab.layout.collectLeaves.filterMap fun pane =>
    match pane.content with
    | .tmuxSession c =>
      if c.mode = .terminal then
        some { paneId := pane.id, tabId := tab.id, hostId := c.hostId, sessionCode := c.sessionCode, tmuxInstance := c.tmuxInstance,
               cachedName := c.cachedName, terminated := c.terminated, record := c.rebuild }
      else none
    | _ => none

def batchCandidates (rows : List RecordRow) : List BatchCandidate :=
  rows.filterMap fun row =>
    match row.record with
    | some record => if (classifyRecord row).rebuildable then some { row.toPaneRef with record } else none
    | none => none

/-! ## Groups -/

structure BatchGroup extends PaneRef where
  paneIds : List String
  sourcePaneId : String
  record : PaneRebuildRecord
  plan : RebuildPlan
  deriving Repr, DecidableEq

/-- A record that comes to no command, or is unverified, is rebuilt as a shell. -/
def planForRecord (record : PaneRebuildRecord) (templates : String → Option ResumeTemplatePair) : RebuildPlan where
  createSession := true
  applyCwd := ¬Falsy record.cwd
  runResume := resolveResumeCommand (some record) templates ≠ "" ∧ record.unverified ≠ some true

def groupKey (ref : PaneRef) : String × String × String := (ref.hostId, ref.tmuxInstance, ref.sessionCode)

def PaneRef.binding (ref : PaneRef) : SessionBinding := ⟨ref.hostId, ref.sessionCode, ref.tmuxInstance⟩

section Groups

variable (templates : String → Option ResumeTemplatePair)

def newGroup (pane : BatchCandidate) : BatchGroup where
  toPaneRef := pane.toPaneRef
  paneIds := [pane.paneId]
  sourcePaneId := pane.paneId
  record := pane.record
  plan := planForRecord pane.record templates

/-- The latest record wins, of two as late the first. -/
def BatchGroup.join (group : BatchGroup) (pane : BatchCandidate) : BatchGroup :=
  let joined := { group with paneIds := group.paneIds ++ [pane.paneId] }
  if group.record.capturedAt < pane.record.capturedAt then
    { joined with
      paneId := pane.paneId
      tabId := pane.tabId
      sourcePaneId := pane.paneId
      record := pane.record
      plan := planForRecord pane.record templates }
  else joined

structure Batches where
  groups : List BatchGroup
  excluded : List BatchCandidate
  deriving Repr, DecidableEq

/-- The groups are the values of a map by their keys, in the order the keys came. -/
def addPane (b : Batches) (pane : BatchCandidate) : Batches :=
  if pane.tmuxInstance = "" then { b with excluded := b.excluded ++ [pane] }
  else if ∃ group ∈ b.groups, groupKey group.toPaneRef = groupKey pane.toPaneRef then
    { b with groups := b.groups.map fun group =>
        if groupKey group.toPaneRef = groupKey pane.toPaneRef then group.join templates pane else group }
  else { b with groups := b.groups ++ [newGroup templates pane] }

def groupForBatch (panes : List BatchCandidate) : Batches := panes.foldl (addPane templates) ⟨[], []⟩

/-- The group of these candidates, in their order: its record is the first of the latest ones. -/
structure GroupOf (members : List BatchCandidate) (group : BatchGroup) : Prop where
  paneIds : group.paneIds = members.map (·.paneId)
  source : ∃ before pane after, members = before ++ pane :: after ∧ group.sourcePaneId = pane.paneId ∧ group.tabId = pane.tabId ∧
    group.record = pane.record ∧ (∀ m ∈ before, m.record.capturedAt < pane.record.capturedAt) ∧
    ∀ m ∈ after, m.record.capturedAt ≤ pane.record.capturedAt
  plan : group.plan = planForRecord group.record templates

def membersOf (panes : List BatchCandidate) (key : String × String × String) : List BatchCandidate :=
  panes.filter fun pane => groupKey pane.toPaneRef = key

/-- Each candidate is in the one group of its key, or excluded for having no generation. -/
structure Grouped (panes : List BatchCandidate) (b : Batches) : Prop where
  excluded : b.excluded = panes.filter (·.tmuxInstance = "")
  known : ∀ group ∈ b.groups, group.tmuxInstance ≠ ""
  keys : (b.groups.map fun group => groupKey group.toPaneRef).Nodup
  groups : ∀ group ∈ b.groups, GroupOf templates (membersOf panes (groupKey group.toPaneRef)) group
  covered : ∀ pane ∈ panes, pane.tmuxInstance ≠ "" → ∃ group ∈ b.groups, groupKey group.toPaneRef = groupKey pane.toPaneRef

variable {templates} {panes : List BatchCandidate} {b : Batches} {pane : BatchCandidate}

theorem membersOf_append (key : String × String × String) :
    membersOf (panes ++ [pane]) key = membersOf panes key ++ if groupKey pane.toPaneRef = key then [pane] else [] := by
  unfold membersOf
  rw [List.filter_append]
  by_cases h : groupKey pane.toPaneRef = key <;> simp [h]

theorem groupKey_join (group : BatchGroup) : groupKey (group.join templates pane).toPaneRef = groupKey group.toPaneRef := by
  unfold BatchGroup.join
  split <;> rfl

theorem GroupOf.join {members : List BatchCandidate} {group : BatchGroup} (h : GroupOf templates members group) :
    GroupOf templates (members ++ [pane]) (group.join templates pane) := by
  obtain ⟨before, source, after, rfl, hid, htab, hrecord, hbefore, hafter⟩ := h.source
  unfold BatchGroup.join
  by_cases hlater : group.record.capturedAt < pane.record.capturedAt
  · rw [if_pos hlater]
    refine ⟨by simp [h.paneIds], ⟨_, pane, [], rfl, rfl, rfl, rfl, fun m hm => ?_, by simp⟩, rfl⟩
    rw [hrecord] at hlater
    rcases List.mem_append.1 hm with hm | hm
    · exact (hbefore m hm).trans hlater
    · rcases List.mem_cons.1 hm with rfl | hm
      · exact hlater
      · exact (hafter m hm).trans_lt hlater
  · rw [if_neg hlater]
    refine ⟨by simp [h.paneIds], ⟨before, source, after ++ [pane], by simp, hid, htab, hrecord, hbefore, fun m hm => ?_⟩, h.plan⟩
    rcases List.mem_append.1 hm with hm | hm
    · exact hafter m hm
    · obtain rfl := List.mem_singleton.1 hm
      rw [← hrecord]
      exact not_lt.1 hlater

theorem Grouped.addPane (h : Grouped templates panes b) (pane : BatchCandidate) :
    Grouped templates (panes ++ [pane]) (addPane templates b pane) := by
  unfold Rebuild.addPane
  by_cases hunknown : pane.tmuxInstance = ""
  · -- no group has its key, for want of a generation
    have hnot : ∀ group ∈ b.groups, groupKey pane.toPaneRef ≠ groupKey group.toPaneRef := by
      intro group hgroup heq
      refine h.known group hgroup ?_
      rw [← (Prod.mk.inj (Prod.mk.inj heq).2).1, hunknown]
    rw [if_pos hunknown]
    refine ⟨by simp [h.excluded, hunknown], h.known, h.keys, fun group hgroup => ?_, fun p hp hknown => ?_⟩
    · rw [membersOf_append, if_neg (hnot group hgroup), List.append_nil]
      exact h.groups group hgroup
    · rcases List.mem_append.1 hp with hp | hp
      · exact h.covered p hp hknown
      · obtain rfl := List.mem_singleton.1 hp
        exact absurd hunknown hknown
  · rw [if_neg hunknown]
    have hexcluded : b.excluded = (panes ++ [pane]).filter (·.tmuxInstance = "") := by simp [h.excluded, hunknown]
    by_cases hjoins : ∃ group ∈ b.groups, groupKey group.toPaneRef = groupKey pane.toPaneRef
    · rw [if_pos hjoins]
      let joined (group : BatchGroup) : BatchGroup :=
        if groupKey group.toPaneRef = groupKey pane.toPaneRef then group.join templates pane else group
      have hkey : ∀ group, groupKey (joined group).toPaneRef = groupKey group.toPaneRef := by
        intro group
        simp only [joined]
        split
        next => exact groupKey_join group
        next => rfl
      refine ⟨hexcluded, fun group hgroup => ?_, ?_, fun group hgroup => ?_, fun p hp hknown => ?_⟩
      · obtain ⟨prev, hprev, rfl⟩ := List.mem_map.1 hgroup
        intro hempty
        refine h.known prev hprev ?_
        rw [← (Prod.mk.inj (Prod.mk.inj (hkey prev)).2).1]
        exact hempty
      · rw [List.map_map]
        exact (List.map_congr_left fun group _ => hkey group) ▸ h.keys
      · obtain ⟨prev, hprev, rfl⟩ := List.mem_map.1 hgroup
        rw [show groupKey _ = groupKey prev.toPaneRef from hkey prev, membersOf_append]
        by_cases hsame : groupKey prev.toPaneRef = groupKey pane.toPaneRef
        · rw [if_pos hsame, if_pos hsame.symm]
          exact (h.groups prev hprev).join
        · rw [if_neg hsame, if_neg (Ne.symm hsame), List.append_nil]
          exact h.groups prev hprev
      · have hcovered : ∃ group ∈ b.groups, groupKey group.toPaneRef = groupKey p.toPaneRef := by
          rcases List.mem_append.1 hp with hp | hp
          · exact h.covered p hp hknown
          · obtain rfl := List.mem_singleton.1 hp
            exact hjoins
        obtain ⟨group, hgroup, heq⟩ := hcovered
        exact ⟨joined group, List.mem_map_of_mem hgroup, (hkey group).trans heq⟩
    · rw [if_neg hjoins]
      have hfirst : membersOf panes (groupKey pane.toPaneRef) = [] := by
        refine List.filter_eq_nil_iff.2 fun p hp hsame => hjoins ?_
        have hsame := of_decide_eq_true hsame
        obtain ⟨group, hgroup, heq⟩ := h.covered p hp (by
          rw [(Prod.mk.inj (Prod.mk.inj hsame).2).1]
          exact hunknown)
        exact ⟨group, hgroup, heq.trans hsame⟩
      refine ⟨hexcluded, fun group hgroup => ?_, ?_, fun group hgroup => ?_, fun p hp hknown => ?_⟩
      · rcases List.mem_append.1 hgroup with hgroup | hgroup
        · exact h.known group hgroup
        · obtain rfl := List.mem_singleton.1 hgroup
          exact hunknown
      · rw [List.map_append, List.map_singleton]
        refine List.nodup_append.2 ⟨h.keys, List.nodup_singleton _, fun key hkey key' hkey' heq => ?_⟩
        obtain ⟨group, hgroup, rfl⟩ := List.mem_map.1 hkey
        obtain rfl := List.mem_singleton.1 hkey'
        exact hjoins ⟨group, hgroup, heq⟩
      · rcases List.mem_append.1 hgroup with hgroup | hgroup
        · rw [membersOf_append, if_neg fun heq => hjoins ⟨group, hgroup, heq.symm⟩, List.append_nil]
          exact h.groups group hgroup
        · obtain rfl := List.mem_singleton.1 hgroup
          rw [show groupKey (newGroup templates pane).toPaneRef = groupKey pane.toPaneRef from rfl, membersOf_append, hfirst, if_pos rfl]
          exact ⟨rfl, ⟨[], pane, [], rfl, rfl, rfl, rfl, by simp, by simp⟩, rfl⟩
      · rcases List.mem_append.1 hp with hp | hp
        · obtain ⟨group, hgroup, heq⟩ := h.covered p hp hknown
          exact ⟨group, List.mem_append_left _ hgroup, heq⟩
        · obtain rfl := List.mem_singleton.1 hp
          exact ⟨_, List.mem_append_right _ (List.mem_singleton_self _), rfl⟩

theorem grouped_groupForBatch (templates : String → Option ResumeTemplatePair) (panes : List BatchCandidate) :
    Grouped templates panes (groupForBatch templates panes) := by
  induction panes using List.reverseRecOn with
  | nil =>
    have hnone : Grouped templates [] ⟨[], []⟩ := by
      refine ⟨rfl, fun _ hgroup => ?_, List.nodup_nil, fun _ hgroup => ?_, fun _ hpane => ?_⟩
      · cases hgroup
      · cases hgroup
      · cases hpane
    exact hnone
  | append_singleton panes pane ih =>
    unfold groupForBatch at ih ⊢
    rw [List.foldl_append]
    exact ih.addPane pane

end Groups

end Purdex.Rebuild
