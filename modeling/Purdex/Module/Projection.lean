/-
What the projection of a pane shows: of its frames the first and the last that no proxy ref stands for,
of its subagents those of the last and of every frame that is hidden, one for each owner; and none of it
depends on the order in which the frames are given.
-/
import Purdex.Module.State
import Purdex.Lists.ByKey
import Purdex.Agent.Subagent
import Mathlib.Data.String.Basic
import Mathlib.Data.Prod.Lex

namespace Purdex.Module

open Purdex.Agent Purdex.Store ByKey

/-! ## Refs across frames -/

/-- What a subagent is known by in a whole pane: a proxy by its process, a native one by family and id. -/
inductive OwnerKey where
  | process (pid : Int) (startTime : String)
  | native (type id : String)
  deriving DecidableEq, Repr

def ownerKey (ref : SubagentRef) : OwnerKey :=
  if ref.isProxy then .process ref.sourcePID ref.sourceStartTime else .native ref.type ref.id

theorem sameAcrossFrames_iff (ref existing : SubagentRef) :
    sameAcrossFrames ref existing = true ↔ ownerKey existing = ownerKey ref := by
  unfold sameAcrossFrames ownerKey isBrokerRef
  cases hr : ref.isProxy <;> cases he : existing.isProxy <;> simp

theorem mergeHidden_eq (subagents hidden : List SubagentRef) :
    mergeHidden subagents hidden = appendNew ownerKey subagents hidden := by
  unfold mergeHidden appendNew
  congr 1
  funext acc ref
  congr 1
  rw [eq_iff_iff, List.any_eq_true, List.any_eq_true]
  exact exists_congr fun b => and_congr_right fun _ => by rw [sameAcrossFrames_iff, decide_eq_true_eq]

/-! ## The order of frames -/

theorem frameLe_iff (a b : Frame) : frameLe a b ↔ toLex (a.startedAt, a.frameID) ≤ toLex (b.startedAt, b.frameID) := by
  rw [Prod.Lex.toLex_le_toLex, frameLe]

instance : Std.Total frameLe where
  total a b := by
    rw [frameLe_iff, frameLe_iff]
    exact le_total _ _

instance : IsTrans Frame frameLe where
  trans a b c hab hbc := by
    rw [frameLe_iff] at hab hbc ⊢
    exact hab.trans hbc

/-- Frames of different ids are never level. -/
theorem frameID_eq_of_frameLe {a b : Frame} (hab : frameLe a b) (hba : frameLe b a) : a.frameID = b.frameID := by
  have h := le_antisymm ((frameLe_iff a b).1 hab) ((frameLe_iff b a).1 hba)
  exact congrArg (fun p => (ofLex p).2) h

theorem eq_of_frameID {frames : List Frame} (hids : (frames.map (·.frameID)).Nodup) {a b : Frame} (ha : a ∈ frames)
    (hb : b ∈ frames) (h : a.frameID = b.frameID) : a = b :=
  List.inj_on_of_nodup_map hids ha hb h

/-! ## Visible and hidden frames -/

def visibleFrames (frames : List Frame) : List Frame := frames.filter (!claimed frames ·)

def hiddenRefs (frames : List Frame) : List SubagentRef := (frames.filter (claimed frames ·)).flatMap (·.subagents)

theorem mem_visibleFrames {frames : List Frame} {f : Frame} :
    f ∈ visibleFrames frames ↔ f ∈ frames ∧ claimed frames f = false := by
  simp [visibleFrames]

theorem mem_hiddenRefs {frames : List Frame} {ref : SubagentRef} :
    ref ∈ hiddenRefs frames ↔ ∃ f ∈ frames, claimed frames f = true ∧ ref ∈ f.subagents := by
  simp [hiddenRefs, and_assoc]

theorem claimed_perm {frames frames' : List Frame} (h : frames.Perm frames') : claimed frames = claimed frames' := by
  funext f
  exact h.any_eq

theorem visibleFrames_perm {frames frames' : List Frame} (h : frames.Perm frames') :
    (visibleFrames frames).Perm (visibleFrames frames') := by
  unfold visibleFrames
  rw [claimed_perm h]
  exact h.filter _

theorem mem_hiddenRefs_perm {frames frames' : List Frame} (h : frames.Perm frames') {ref : SubagentRef} :
    ref ∈ hiddenRefs frames ↔ ref ∈ hiddenRefs frames' := by
  rw [mem_hiddenRefs, mem_hiddenRefs, claimed_perm h]
  exact exists_congr fun f => and_congr_left fun _ => h.mem_iff

/-! ## The projection -/

/-- With a frame left to see, the projection is the first and the last of those, and the refs of the last with
the hidden ones merged in. -/
theorem buildPaneProjection_spec (paneID : String) {frames : List Frame} (hroom : ∃ f ∈ frames, claimed frames f = false) :
    ∃ primary top, ((visibleFrames frames).insertionSort frameLe).head? = some primary ∧
      ((visibleFrames frames).insertionSort frameLe).getLast? = some top ∧
      buildPaneProjection paneID frames =
        ⟨paneID, some primary, some top, appendNew ownerKey top.subagents (hiddenRefs frames)⟩ := by
  obtain ⟨f, hf, hfree⟩ := hroom
  have hvisible : f ∈ visibleFrames frames := mem_visibleFrames.2 ⟨hf, hfree⟩
  have hne : (visibleFrames frames).insertionSort frameLe ≠ [] :=
    List.ne_nil_of_mem ((List.mem_insertionSort frameLe).2 hvisible)
  have hempty : (visibleFrames frames).isEmpty = false := List.isEmpty_eq_false_iff.2 (List.ne_nil_of_mem hvisible)
  refine ⟨_, _, List.head?_eq_some_head hne, List.getLast?_eq_some_getLast hne, ?_⟩
  rw [← mergeHidden_eq]
  unfold buildPaneProjection
  simp only [visibleFrames] at hempty hne ⊢
  simp only [hempty, Bool.false_eq_true, if_false, List.getLast?_eq_some_getLast hne, List.head?_eq_some_head hne, hiddenRefs]

/-- What the projection of a pane shows of its frames. -/
structure Represents (frames : List Frame) (p : SessionProjection) : Prop where
  top : ∃ top, p.topFrame = some top ∧ top ∈ frames ∧ claimed frames top = false ∧
    (∀ f ∈ frames, claimed frames f = false → frameLe f top) ∧ ∀ ref ∈ top.subagents, ref ∈ p.subagents
  primary : ∃ primary, p.primaryFrame = some primary ∧ primary ∈ frames ∧ claimed frames primary = false ∧
    ∀ f ∈ frames, claimed frames f = false → frameLe primary f
  merged : ∀ f ∈ frames, claimed frames f = true → ∀ ref ∈ f.subagents, ∃ shown ∈ p.subagents, ownerKey shown = ownerKey ref
  once : (p.subagents.map ownerKey).Nodup
  nothingElse : ∀ ref ∈ p.subagents, (∃ top, p.topFrame = some top ∧ ref ∈ top.subagents) ∨
    ∃ f ∈ frames, claimed frames f = true ∧ ref ∈ f.subagents

theorem buildPaneProjection_represents (paneID : String) {frames : List Frame} (hroom : ∃ f ∈ frames, claimed frames f = false)
    (hkeys : ∀ f ∈ frames, (f.subagents.map ownerKey).Nodup) : Represents frames (buildPaneProjection paneID frames) := by
  obtain ⟨primary, top, hprimary, htop, heq⟩ := buildPaneProjection_spec paneID hroom
  obtain ⟨hmemTop, hlast⟩ := getLast_insertionSort htop
  obtain ⟨hmemPrimary, hfirst⟩ := head_insertionSort hprimary
  rw [mem_visibleFrames] at hmemTop hmemPrimary
  rw [heq]
  refine ⟨?_, ?_, ?_, ?_, ?_⟩
  · exact ⟨top, rfl, hmemTop.1, hmemTop.2, fun f hf hfree => hlast f (mem_visibleFrames.2 ⟨hf, hfree⟩),
      fun ref href => subset_appendNew ownerKey _ _ href⟩
  · exact ⟨primary, rfl, hmemPrimary.1, hmemPrimary.2, fun f hf hfree => hfirst f (mem_visibleFrames.2 ⟨hf, hfree⟩)⟩
  · exact fun f hf hclaimed ref href => exists_key_appendNew ownerKey (mem_hiddenRefs.2 ⟨f, hf, hclaimed, href⟩)
  · exact appendNew_nodup ownerKey (hkeys top hmemTop.1) _
  · exact fun ref href => (mem_of_mem_appendNew ownerKey href).imp (⟨top, rfl, ·⟩) mem_hiddenRefs.1

/-- The same frames in another order show the same. -/
theorem buildPaneProjection_perm (paneID : String) {frames frames' : List Frame} (hperm : frames'.Perm frames)
    (hids : (frames.map (·.frameID)).Nodup) (hroom : ∃ f ∈ frames, claimed frames f = false) :
    (buildPaneProjection paneID frames').topFrame = (buildPaneProjection paneID frames).topFrame ∧
      (buildPaneProjection paneID frames').primaryFrame = (buildPaneProjection paneID frames).primaryFrame ∧
      ∀ key, key ∈ (buildPaneProjection paneID frames').subagents.map ownerKey ↔
        key ∈ (buildPaneProjection paneID frames).subagents.map ownerKey := by
  have hroom' : ∃ f ∈ frames', claimed frames' f = false := by
    obtain ⟨f, hf, hfree⟩ := hroom
    exact ⟨f, hperm.mem_iff.2 hf, by rw [claimed_perm hperm]; exact hfree⟩
  have hsorted : (visibleFrames frames').insertionSort frameLe = (visibleFrames frames).insertionSort frameLe := by
    refine (insertionSort_of_perm (visibleFrames_perm hperm).symm fun a ha b hb hab hba => ?_).symm
    exact eq_of_frameID hids (mem_visibleFrames.1 ha).1 (mem_visibleFrames.1 hb).1 (frameID_eq_of_frameLe hab hba)
  obtain ⟨primary, top, hprimary, htop, heq⟩ := buildPaneProjection_spec paneID hroom
  obtain ⟨primary', top', hprimary', htop', heq'⟩ := buildPaneProjection_spec paneID hroom'
  rw [hsorted] at hprimary' htop'
  obtain rfl : primary' = primary := Option.some.inj (hprimary'.symm.trans hprimary)
  obtain rfl : top' = top := Option.some.inj (htop'.symm.trans htop)
  rw [heq, heq']
  refine ⟨rfl, rfl, fun key => ?_⟩
  rw [mem_keys_appendNew, mem_keys_appendNew]
  refine or_congr_right ?_
  simp only [List.mem_map]
  exact exists_congr fun ref => and_congr_left fun _ => mem_hiddenRefs_perm hperm

/-- The projection of a pane neither loses nor doubles a subagent, and does not see how the frames are stored. -/
theorem pane_projection_faithful (paneID : String) (frames : List Frame) (hids : (frames.map (·.frameID)).Nodup)
    (hroom : ∃ f ∈ frames, claimed frames f = false) (hkeys : ∀ f ∈ frames, (f.subagents.map ownerKey).Nodup) :
    Represents frames (buildPaneProjection paneID frames) ∧
      ∀ frames' : List Frame, frames'.Perm frames →
        (buildPaneProjection paneID frames').topFrame = (buildPaneProjection paneID frames).topFrame ∧
        (buildPaneProjection paneID frames').primaryFrame = (buildPaneProjection paneID frames).primaryFrame ∧
        ∀ key, key ∈ (buildPaneProjection paneID frames').subagents.map ownerKey ↔
          key ∈ (buildPaneProjection paneID frames).subagents.map ownerKey :=
  ⟨buildPaneProjection_represents paneID hroom hkeys, fun _ hperm => buildPaneProjection_perm paneID hperm hids hroom⟩

/-! ## A pane with a claimed frame that claims another -/

def shownFrame (frameID agentType : String) (pid : Int) (subagents : List SubagentRef) (startedAt : Int) : Frame where
  frameID := frameID
  paneID := "%1"
  agentType := agentType
  pid := pid
  ppid := 1
  processStartTime := "t"
  parentFrameID := ""
  subagents := subagents
  status := .running
  startedAt := startedAt
  lastSeenAt := startedAt
  verified := true
  sessionID := ""
  cwd := ""

/-- The first frame claims the second and the second the third; both carry a native ref of the same id. -/
def nestedPane : List Frame :=
  [shownFrame "a" "cc" 10 [nativeRef "call-1" "cc" 1, proxyRef "codex" 20 "t" 2] 1,
    shownFrame "b" "codex" 20 [nativeRef "call-1" "codex" 3, proxyRef "cc" 30 "t" 4] 2,
    shownFrame "c" "cc" 30 [nativeRef "call-1" "cc" 5] 3,
    shownFrame "d" "opencode" 40 [] 0]

theorem pane_projection_faithful_nested :
    Represents nestedPane (buildPaneProjection "%1" nestedPane) ∧
      ∀ frames' : List Frame, frames'.Perm nestedPane →
        (buildPaneProjection "%1" frames').topFrame = (buildPaneProjection "%1" nestedPane).topFrame ∧
        (buildPaneProjection "%1" frames').primaryFrame = (buildPaneProjection "%1" nestedPane).primaryFrame ∧
        ∀ key, key ∈ (buildPaneProjection "%1" frames').subagents.map ownerKey ↔
          key ∈ (buildPaneProjection "%1" nestedPane).subagents.map ownerKey :=
  pane_projection_faithful "%1" nestedPane (by decide) (by decide) (by decide)

end Purdex.Module
