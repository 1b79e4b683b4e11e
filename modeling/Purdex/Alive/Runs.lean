/-
Every run of the pool of tabs that stay alive: what a render keeps, and whom it lets go.
-/
import Purdex.Alive.Pool
import Purdex.Conc.Reach

namespace Purdex.Alive

open Quota Conc

variable {r : Render} {h : List String} {id x y : String}

/-! ## One render -/

/-- A history as a render reads it. -/
structure Current (r : Render) (h : List String) : Prop where
  nodup : h.Nodup
  opened : ∀ id ∈ h, r.isOpen id = true
  front : ∀ id ∈ r.activeTabId, ∃ rest, h = id :: rest

theorem ofClass_append (c : Kind) (l l' : List String) : ofClass r.kind c (l ++ l') = ofClass r.kind c l ++ ofClass r.kind c l' := List.filter_append ..

theorem kind_of_mem_ofClass {c : Kind} (hmem : id ∈ ofClass r.kind c h) : r.kind id = c := of_decide_eq_true (List.mem_filter.1 hmem).2

theorem ofClass_eq_nil {c : Kind} {l : List String} (hl : ∀ id ∈ l, r.kind id ≠ c) : ofClass r.kind c l = [] :=
  List.filter_eq_nil_iff.2 fun id hid hkind => hl id hid (of_decide_eq_true hkind)

theorem ofClass_eq_self {c : Kind} {l : List String} (hl : ∀ id ∈ l, r.kind id = c) : ofClass r.kind c l = l :=
  List.filter_eq_self.2 fun id hid => decide_eq_true (hl id hid)

/-- The heavy tabs that count, and are kept. -/
def heavyKept (r : Render) (h : List String) : List String := (ofClass r.kind (.normal false) h).take r.maxNormal

def lightKept (r : Render) (h : List String) : List String := quota r.kind (lightQuota lightKeepAliveMax) h

theorem heavyAlive_of_pos (hpos : 0 < r.settings.keepAliveCount) (h : List String) :
    r.heavyAlive h = ofClass r.kind (.pinned false) h ++ heavyKept r h := by
  rw [Render.heavyAlive, if_neg (Nat.pos_iff_ne_zero.1 hpos), heavyLoop_eq]
  rfl

theorem heavyAlive_of_zero (hzero : r.settings.keepAliveCount = 0) : id ∈ r.heavyAlive h ↔ r.activeTabId = some id ∧ r.isLight id = false := by
  rw [Render.heavyAlive, if_pos hzero, active_eq, List.mem_filter, Option.mem_toList, decide_eq_true_eq]

theorem kind_of_mem_heavyKept (hmem : id ∈ heavyKept r h) : r.kind id = .normal false := kind_of_mem_ofClass (List.mem_of_mem_take hmem)

/-- What is alive as a heavy tab is one, and was visited. -/
theorem heavy_of_alive (hcur : Current r h) (hmem : id ∈ r.heavyAlive h) : r.isLight id = false ∧ id ∈ h := by
  rcases Nat.eq_zero_or_pos r.settings.keepAliveCount with hzero | hpos
  · obtain ⟨hactive, hheavy⟩ := (heavyAlive_of_zero hzero).1 hmem
    obtain ⟨rest, rfl⟩ := hcur.front id hactive
    exact ⟨hheavy, List.mem_cons_self⟩
  · rw [heavyAlive_of_pos hpos, List.mem_append] at hmem
    rcases hmem with hmem | hmem
    · exact ⟨isLight_of_kind (.inl (kind_of_mem_ofClass hmem)), List.mem_of_mem_filter hmem⟩
    · exact ⟨isLight_of_kind (.inr (kind_of_mem_heavyKept hmem)), List.mem_of_mem_filter (List.mem_of_mem_take hmem)⟩

theorem mem_lightKept : id ∈ lightKept r h ↔ r.kind id = .pinned true ∧ id ∈ h ∨
    r.kind id = .normal true ∧ id ∈ (ofClass r.kind (.normal true) h).take lightKeepAliveMax := by
  rw [lightKept, mem_quota]
  rcases hkind : r.kind id with _ | (_ | _) | (_ | _)
  · simp [lightQuota]
  · simp [lightQuota]
  · have hmem := @mem_iff_ofClass _ _ _ r.kind h id
    rw [hkind] at hmem
    simp [lightQuota, hmem]
  · simp [lightQuota]
  · simp [lightQuota, upTo]

theorem light_of_mem_lightKept (hmem : id ∈ lightKept r h) : r.isLight id = true := by
  rcases mem_lightKept.1 hmem with ⟨hkind, -⟩ | ⟨hkind, -⟩
  · exact isLight_of_kind (.inl hkind)
  · exact isLight_of_kind (.inr hkind)

theorem aliveIds_eq (hcur : Current r h) : r.aliveIds h = r.heavyAlive h ++ lightKept r h := by
  refine lightLoop_eq _ _ 0 hcur.nodup fun id _ hlight hmem => ?_
  rw [(heavy_of_alive hcur hmem).1] at hlight
  cases hlight

theorem nodup_heavyAlive (hcur : Current r h) : (r.heavyAlive h).Nodup := by
  rcases Nat.eq_zero_or_pos r.settings.keepAliveCount with hzero | hpos
  · rw [Render.heavyAlive, if_pos hzero]
    refine List.Nodup.filter _ ?_
    cases r.active with
    | none => exact List.nodup_nil
    | some id => exact List.nodup_singleton id
  · rw [heavyAlive_of_pos hpos]
    refine List.nodup_append.2 ⟨hcur.nodup.filter _, (List.take_sublist _ _).nodup (hcur.nodup.filter _), fun a ha b hb heq => ?_⟩
    have hpinned := kind_of_mem_ofClass ha
    rw [heq, kind_of_mem_heavyKept hb] at hpinned
    cases hpinned

theorem nodup_aliveIds (hcur : Current r h) : (r.aliveIds h).Nodup := by
  rw [aliveIds_eq hcur]
  refine List.nodup_append.2 ⟨nodup_heavyAlive hcur, (quota_sublist _ h).nodup hcur.nodup, fun a ha b hb heq => ?_⟩
  have hheavy := (heavy_of_alive hcur ha).1
  rw [heq, light_of_mem_lightKept hb] at hheavy
  cases hheavy

theorem mem_of_alive (hcur : Current r h) (hmem : id ∈ r.aliveIds h) : id ∈ h := by
  rw [aliveIds_eq hcur, List.mem_append] at hmem
  exact hmem.elim (fun hmem => (heavy_of_alive hcur hmem).2) fun hmem => (quota_sublist _ h).subset hmem

/-- The active tab stays alive. -/
theorem active_alive (hcur : Current r h) (hactive : r.activeTabId = some id) : id ∈ r.aliveIds h := by
  obtain ⟨rest, rfl⟩ := hcur.front id hactive
  have hopen := hcur.opened id List.mem_cons_self
  rw [aliveIds_eq hcur, List.mem_append]
  rcases hlight : r.isLight id with _ | _
  · refine .inl ?_
    rcases Nat.eq_zero_or_pos r.settings.keepAliveCount with hzero | hpos
    · exact (heavyAlive_of_zero hzero).2 ⟨hactive, hlight⟩
    rw [heavyAlive_of_pos hpos, List.mem_append]
    rcases kind_of_open hopen with hkind | hkind
    · rw [hlight] at hkind
      rw [ofClass_cons_self hkind]
      exact .inl List.mem_cons_self
    · rw [hlight] at hkind
      have hslot : r.maxNormal = r.settings.keepAliveCount + 1 := by rw [Render.maxNormal, active_eq, hactive]; simp [hlight]
      rw [heavyKept, ofClass_cons_self hkind, hslot, List.take_succ_cons]
      exact .inr List.mem_cons_self
  · refine .inr (mem_lightKept.2 ?_)
    rcases kind_of_open hopen with hkind | hkind
    · exact .inl ⟨hkind.trans (congrArg _ hlight), List.mem_cons_self⟩
    · rw [hlight] at hkind
      refine .inr ⟨hkind, ?_⟩
      rw [ofClass_cons_self hkind]
      exact List.mem_cons_self

/-! ## How many are kept -/

theorem light_alive (hcur : Current r h) : (ofClass r.kind (.normal true) (r.aliveIds h)).length ≤ lightKeepAliveMax := by
  have hheavy : ofClass r.kind (.normal true) (r.heavyAlive h) = [] := by
    refine ofClass_eq_nil fun id hid hkind => ?_
    have hlight := (heavy_of_alive hcur hid).1
    rw [isLight_of_kind (.inr hkind)] at hlight
    cases hlight
  rw [aliveIds_eq hcur, ofClass_append, hheavy, List.nil_append, lightKept, ofClass_quota]
  exact List.length_take_le _ _

theorem heavy_alive (hcur : Current r h) : ofClass r.kind (.normal false) (r.aliveIds h) = ofClass r.kind (.normal false) (r.heavyAlive h) := by
  have hlight : ofClass r.kind (.normal false) (lightKept r h) = [] := by rw [lightKept, ofClass_quota]; rfl
  rw [aliveIds_eq hcur, ofClass_append, hlight, List.append_nil]

theorem heavy_alive_of_pos (hcur : Current r h) (hpos : 0 < r.settings.keepAliveCount) :
    ofClass r.kind (.normal false) (r.aliveIds h) = heavyKept r h := by
  rw [heavy_alive hcur, heavyAlive_of_pos hpos, ofClass_append]
  rw [ofClass_eq_nil fun id hid => by rw [kind_of_mem_ofClass hid]; simp]
  exact ofClass_eq_self fun id hid => kind_of_mem_heavyKept hid

/-- The heavy tabs that count and are alive, other than the active one. -/
def others (r : Render) (alive : List String) : List String := (ofClass r.kind (.normal false) alive).filter fun id => some id ≠ r.activeTabId

/-- The one case in which they are too many: the active tab has a slot among them that it does not take. -/
def Spared (r : Render) (h : List String) : Prop :=
  0 < r.settings.keepAliveCount → (∃ id ∈ r.activeTabId, r.kind id = .pinned false) →
    (ofClass r.kind (.normal false) h).length ≤ r.settings.keepAliveCount

theorem maxNormal_of_heavy (hactive : r.activeTabId = some id) (hheavy : r.isLight id = false) : r.maxNormal = r.settings.keepAliveCount + 1 := by
  rw [Render.maxNormal, active_eq, hactive]
  simp [hheavy]

theorem maxNormal_of_not (hactive : ∀ id ∈ r.activeTabId, r.isLight id = true) : r.maxNormal = r.settings.keepAliveCount := by
  rw [Render.maxNormal, active_eq]
  cases hid : r.activeTabId with
  | none => simp
  | some id => simp [hactive id hid]

theorem others_le_iff (hcur : Current r h) : (others r (r.aliveIds h)).length ≤ r.settings.keepAliveCount ↔ Spared r h := by
  rcases Nat.eq_zero_or_pos r.settings.keepAliveCount with hzero | hpos
  · refine iff_of_true ?_ fun hpos => absurd hpos (by omega)
    have hnone : others r (r.aliveIds h) = [] := by
      rw [others, heavy_alive hcur]
      refine List.filter_eq_nil_iff.2 fun id hid hne => of_decide_eq_true hne ?_
      exact ((heavyAlive_of_zero hzero).1 (List.mem_of_mem_filter hid)).1.symm
    rw [hnone]
    exact Nat.zero_le _
  rw [others, heavy_alive_of_pos hcur hpos]
  by_cases hheavy : ∃ id ∈ r.activeTabId, r.isLight id = false
  · obtain ⟨id, hactive, hlight⟩ := hheavy
    obtain ⟨rest, rfl⟩ := hcur.front id hactive
    have hslot := maxNormal_of_heavy hactive hlight
    rcases kind_of_open (hcur.opened id List.mem_cons_self) with hkind | hkind
    · -- a pinned tab takes no slot
      rw [hlight] at hkind
      have hall : (heavyKept r (id :: rest)).filter (fun id' => some id' ≠ r.activeTabId) = heavyKept r (id :: rest) := by
        refine List.filter_eq_self.2 fun id' hid' => decide_eq_true fun heq => ?_
        have hother := kind_of_mem_heavyKept hid'
        rw [Option.some.inj (heq.trans hactive), hkind] at hother
        cases hother
      rw [hall, heavyKept, hslot, List.length_take]
      constructor
      · intro hle _ _
        omega
      · intro hspared
        have := hspared hpos ⟨id, hactive, hkind⟩
        omega
    · rw [hlight] at hkind
      refine iff_of_true ?_ fun _ ⟨id', hid', hkind'⟩ => ?_
      · rw [heavyKept, hslot, ofClass_cons_self hkind, List.take_succ_cons, List.filter_cons_of_neg (by simp [Option.mem_def.1 hactive])]
        exact (List.length_filter_le _ _).trans (List.length_take_le _ _)
      · rw [Option.some.inj (hid'.symm.trans hactive), hkind] at hkind'
        cases hkind'
  · have hlights : ∀ id ∈ r.activeTabId, r.isLight id = true := fun id hid => eq_true_of_ne_false fun hlight => hheavy ⟨id, hid, hlight⟩
    refine iff_of_true ?_ fun _ ⟨id, hid, hkind⟩ => ?_
    · rw [heavyKept, maxNormal_of_not hlights]
      exact (List.length_filter_le _ _).trans (List.length_take_le _ _)
    · have hlight := hlights id hid
      rw [isLight_of_kind (.inl hkind)] at hlight
      cases hlight

/-! ## What is remembered -/

/-- Trimming drops nothing that is alive. -/
theorem remembered (hcur : Current r h) (hmem : id ∈ r.aliveIds h) : id ∈ r.trim h := by
  have hin := mem_of_alive hcur hmem
  rw [trim_eq, mem_quota]
  rw [aliveIds_eq hcur, List.mem_append] at hmem
  have hof := (@mem_iff_ofClass _ _ _ r.kind h id).1 hin
  rcases hkind : r.kind id with _ | light | (_ | _)
  · have hopen := hcur.opened id hin
    rw [kind_closed.1 hkind] at hopen
    cases hopen
  · rwa [hkind] at hof
  · have hlight : r.isLight id = false := isLight_of_kind (.inr hkind)
    have hheavy : id ∈ r.heavyAlive h := hmem.resolve_right fun hmem => by
      rw [light_of_mem_lightKept hmem] at hlight
      cases hlight
    show id ∈ (ofClass r.kind (.normal false) h).take r.heavyBudget
    rcases Nat.eq_zero_or_pos r.settings.keepAliveCount with hzero | hpos
    · obtain ⟨rest, rfl⟩ := hcur.front id ((heavyAlive_of_zero hzero).1 hheavy).1
      have hbudget : r.heavyBudget = 19 + 1 := by rw [Render.heavyBudget, hzero]; rfl
      rw [hbudget, ofClass_cons_self hkind, List.take_succ_cons]
      exact List.mem_cons_self
    · rw [heavyAlive_of_pos hpos, List.mem_append] at hheavy
      have hkept := hheavy.resolve_left fun hpinned => by
        rw [kind_of_mem_ofClass hpinned] at hkind
        cases hkind
      refine (List.take_sublist_take_left ?_).subset hkept
      have hle : r.maxNormal ≤ r.settings.keepAliveCount + 1 := by
        unfold Render.maxNormal
        split <;> omega
      unfold Render.heavyBudget
      omega
  · have hkept : id ∈ lightKept r h := hmem.resolve_left fun hheavy => by
      have hlight := (heavy_of_alive hcur hheavy).1
      rw [isLight_of_kind (.inr hkind)] at hlight
      cases hlight
    rcases mem_lightKept.1 hkept with ⟨hpinned, -⟩ | ⟨-, hmem⟩
    · rw [hkind] at hpinned
      cases hpinned
    · exact hmem

/-! ## Visits -/

/-- Visited since the last visit of `x`; the latest visit comes first. -/
def Since (visits : List String) (y x : String) : Prop := y ∈ visits.takeWhile (· ≠ x)

theorem Since.ne {visits : List String} (h : Since visits y x) : y ≠ x := by
  unfold Since at h
  simpa using List.mem_takeWhile_imp h

theorem Since.cons {visits : List String} (h : Since visits y x) (hne : id ≠ x) : Since (id :: visits) y x := by
  rw [Since, List.takeWhile_cons_of_pos (by simpa using hne)]
  exact List.mem_cons_of_mem _ h

theorem since_self (visits : List String) (hne : id ≠ x) : Since (id :: visits) id x := by
  rw [Since, List.takeWhile_cons_of_pos (by simpa using hne)]
  exact List.mem_cons_self

/-- Whoever leaves has been passed by as many as its kind allows. -/
theorem passed {visits : List String} (hcur : Current r h) (horder : h.Pairwise (Since visits)) (hmem : x ∈ h) (hout : x ∉ r.aliveIds h) :
    ∃ others : List String, others.Nodup ∧ (if r.isLight x = true then lightKeepAliveMax else r.settings.keepAliveCount) ≤ others.length ∧
      ∀ y ∈ others, (r.isOpen y = true ∧ r.isLight y = r.isLight x) ∧ Since visits y x := by
  have htake : ∀ (light : Bool) (n : Nat), r.kind x = .normal light → x ∉ (ofClass r.kind (.normal light) h).take n →
      n ≤ ((ofClass r.kind (.normal light) h).take n).length ∧
        ∀ y ∈ (ofClass r.kind (.normal light) h).take n, (r.isOpen y = true ∧ r.isLight y = r.isLight x) ∧ Since visits y x := by
    intro light n hkind hx
    have hof : x ∈ ofClass r.kind (.normal light) h := List.mem_filter.2 ⟨hmem, decide_eq_true hkind⟩
    obtain ⟨hlength, hsince⟩ := pairwise_take (horder.filter _) hof hx
    refine ⟨hlength.ge, fun y hy => ⟨⟨?_, ?_⟩, hsince y hy⟩⟩
    · exact hcur.opened y (List.mem_of_mem_filter (List.mem_of_mem_take hy))
    · rw [isLight_of_kind (.inr (kind_of_mem_ofClass (List.mem_of_mem_take hy))), isLight_of_kind (.inr hkind)]
  have hnodup : ∀ (light : Bool) (n : Nat), ((ofClass r.kind (.normal light) h).take n).Nodup := fun _ _ =>
    (List.take_sublist _ _).nodup (hcur.nodup.filter _)
  rw [aliveIds_eq hcur, List.mem_append, not_or] at hout
  rcases hlight : r.isLight x with _ | _
  · rcases Nat.eq_zero_or_pos r.settings.keepAliveCount with hzero | hpos
    · exact ⟨[], List.nodup_nil, by simp [hzero], fun y hy => absurd hy List.not_mem_nil⟩
    rw [heavyAlive_of_pos hpos, List.mem_append, not_or] at hout
    rcases kind_of_open (hcur.opened x hmem) with hkind | hkind
    · rw [hlight] at hkind
      exact absurd (List.mem_filter.2 ⟨hmem, decide_eq_true hkind⟩) hout.1.1
    · rw [hlight] at hkind
      obtain ⟨hlength, hothers⟩ := htake false r.maxNormal hkind hout.1.2
      refine ⟨_, hnodup false _, ?_, fun y hy => hlight ▸ hothers y hy⟩
      have hle : r.settings.keepAliveCount ≤ r.maxNormal := Nat.le_add_right _ _
      simpa using hle.trans hlength
  · rcases kind_of_open (hcur.opened x hmem) with hkind | hkind
    · rw [hlight] at hkind
      exact absurd (mem_lightKept.2 (.inl ⟨hkind, hmem⟩)) hout.2
    · rw [hlight] at hkind
      obtain ⟨hlength, hothers⟩ := htake true lightKeepAliveMax hkind fun hin => hout.2 (mem_lightKept.2 (.inr ⟨hkind, hin⟩))
      exact ⟨_, hnodup true _, by simpa using hlength, fun y hy => hlight ▸ hothers y hy⟩

/-! ## Runs -/

/-- The hook, the visits so far, and the last render with what it kept alive. -/
structure Run where
  pool : Option Pool
  visits : List String
  last : Option (Render × List String)

namespace Run

/-- Before the first render. -/
def start : Run := ⟨none, [], none⟩

/-- The references, which the first render makes. -/
def refs (s : Run) (r : Render) : Pool := s.pool.getD (.mount r.settings)

def aliveIds (s : Run) (r : Render) : List String := ((s.refs r).render r).1.1

def visited (s : Run) (r : Render) : List String := r.activeTabId.toList ++ s.visits

def next (s : Run) (r : Render) : Run := ⟨some ((s.refs r).render r).2, s.visited r, some (r, s.aliveIds r)⟩

/-- What a render keeps alive, and whom it may let go. -/
structure Kept (s : Run) (r : Render) : Prop where
  once : (s.aliveIds r).Nodup
  opened : ∀ id ∈ s.aliveIds r, id ∈ r.tabs.map (·.id)
  active : ∀ id ∈ r.activeTabId, id ∈ s.aliveIds r
  heavy : (others r (s.aliveIds r)).length ≤ r.settings.keepAliveCount
  light : (ofClass r.kind (.normal true) (s.aliveIds r)).length ≤ lightKeepAliveMax
  left : ∀ before alive, s.last = some (before, alive) → before.settings = r.settings → ∀ x ∈ alive, ∀ tab was, r.get x = some tab →
    before.get x = some was → was.pinned = tab.pinned ∧ was.light = tab.light → x ∉ s.aliveIds r →
      ∃ others : List String, others.Nodup ∧ (if tab.light = true then lightKeepAliveMax else r.settings.keepAliveCount) ≤ others.length ∧
        ∀ y ∈ others, y ≠ x ∧ (∃ tab', r.get y = some tab' ∧ tab'.light = tab.light) ∧ Since (s.visited r) y x

structure Good (s : Run) : Prop where
  nodup : ∀ p ∈ s.pool, p.historyRef.Nodup
  order : ∀ p ∈ s.pool, p.historyRef.Pairwise (Since s.visits)
  last : ∀ r alive, s.last = some (r, alive) → ∃ p, s.pool = some p ∧ p.prevVersionRef = r.settings.terminalSettingsVersion ∧
    p.prevKeepAliveRef = r.settings.keepAliveCount ∧ ∀ id ∈ alive, id ∈ p.historyRef

variable {s : Run}

theorem good_start : start.Good := ⟨fun _ h => (nomatch h), fun _ h => (nomatch h), fun _ _ h => (nomatch h)⟩

theorem Good.refs (h : s.Good) (r : Render) : (s.refs r).historyRef.Nodup ∧ (s.refs r).historyRef.Pairwise (Since s.visits) := by
  rw [Run.refs]
  cases hpool : s.pool with
  | none => exact ⟨List.nodup_nil, .nil⟩
  | some p => exact ⟨h.nodup p hpool, h.order p hpool⟩

/-- What is open of the history, with the active tab in front. -/
theorem current_eq (p : Pool) (r : Render) :
    p.current r = r.activeTabId.elim ((p.cleared r).filter r.isOpen) fun id => id :: ((p.cleared r).filter r.isOpen).erase id := by
  have hopen : (p.cleared r).filter (fun id => id ∈ r.tabs.map (·.id)) = (p.cleared r).filter r.isOpen :=
    List.filter_congr fun id _ => Bool.eq_iff_iff.2 (decide_eq_true_iff.trans isOpen_iff.symm)
  rw [Pool.current, hopen, active_eq]
  cases r.activeTabId with
  | none => rfl
  | some id => exact visit_eq _ id

theorem cleared_sublist (p : Pool) (r : Render) : (p.cleared r).Sublist p.historyRef := by
  unfold Pool.cleared
  simp only
  split
  · exact List.nil_sublist _
  · split
    · exact List.nil_sublist _
    · exact List.Sublist.refl _

theorem cleared_of_settings {p : Pool} (hversion : p.prevVersionRef = r.settings.terminalSettingsVersion)
    (hkeep : p.prevKeepAliveRef = r.settings.keepAliveCount) : p.cleared r = p.historyRef := by
  rw [Pool.cleared, hversion, hkeep, if_neg (not_not.2 rfl), if_neg (not_not.2 rfl)]

theorem current_of_history {p : Pool} {visits : List String} (hnodup : p.historyRef.Nodup) (horder : p.historyRef.Pairwise (Since visits)) :
    Current r (p.current r) ∧ (p.current r).Pairwise (Since (r.activeTabId.toList ++ visits)) := by
  have hcurrent := current_eq p r
  have hsub : ((p.cleared r).filter r.isOpen).Sublist p.historyRef := List.filter_sublist.trans (cleared_sublist p r)
  have hopen : ∀ id ∈ (p.cleared r).filter r.isOpen, r.isOpen id = true := fun id hid => (List.mem_filter.1 hid).2
  generalize (p.cleared r).filter r.isOpen = l at hcurrent hsub hopen
  have hnodup := hsub.nodup hnodup
  have hpair := horder.sublist hsub
  cases hactive : r.activeTabId with
  | none =>
    rw [hactive] at hcurrent
    rw [hcurrent]
    exact ⟨⟨hnodup, hopen, fun id hid => by rw [hactive] at hid; cases hid⟩, hpair⟩
  | some id =>
    rw [hactive, Option.elim_some] at hcurrent
    rw [hcurrent]
    have hid : id ∉ l.erase id := hnodup.not_mem_erase
    refine ⟨⟨List.nodup_cons.2 ⟨hid, hnodup.erase id⟩, ?_, ?_⟩, List.pairwise_cons.2 ⟨fun x hx => ?_, ?_⟩⟩
    · exact List.forall_mem_cons.2 ⟨isOpen_iff.2 (r.among id hactive), fun id' hid' => hopen id' (List.mem_of_mem_erase hid')⟩
    · intro id' hid'
      rw [hactive] at hid'
      cases hid'
      exact ⟨_, rfl⟩
    · refine since_self visits ?_
      rintro rfl
      exact hid hx
    · refine (hpair.sublist List.erase_sublist).imp_of_mem fun {y x} _ hx hsince => hsince.cons ?_
      rintro rfl
      exact hid hx

theorem Good.current (h : s.Good) (r : Render) :
    Current r ((s.refs r).current r) ∧ ((s.refs r).current r).Pairwise (Since (s.visited r)) :=
  current_of_history (h.refs r).1 (h.refs r).2

theorem Good.next (h : s.Good) (r : Render) : (s.next r).Good := by
  obtain ⟨hcur, horder⟩ := h.current r
  have htrim : (r.trim ((s.refs r).current r)).Sublist ((s.refs r).current r) := by
    rw [trim_eq]
    exact quota_sublist _ _
  refine ⟨fun p hp => ?_, fun p hp => ?_, fun r' alive hlast => ?_⟩
  · cases hp
    exact htrim.nodup hcur.nodup
  · cases hp
    exact horder.sublist htrim
  · cases hlast
    exact ⟨_, rfl, rfl, rfl, fun id hid => remembered hcur hid⟩

/-- What was alive and is open still is in the history that the next render reads. -/
theorem Good.mem_current (h : s.Good) {before : Render} {alive : List String} (hlast : s.last = some (before, alive))
    (hsettings : before.settings = r.settings) (hmem : x ∈ alive) (hopen : r.isOpen x = true) : x ∈ (s.refs r).current r := by
  obtain ⟨p, hpool, hversion, hkeep, halive⟩ := h.last before alive hlast
  have hcleared : (s.refs r).cleared r = p.historyRef := by
    rw [Run.refs, hpool]
    exact cleared_of_settings (hsettings ▸ hversion) (hsettings ▸ hkeep)
  have hin : x ∈ p.historyRef.filter r.isOpen := List.mem_filter.2 ⟨halive x hmem, hopen⟩
  rw [current_eq, hcleared]
  cases r.activeTabId with
  | none => exact hin
  | some id =>
    by_cases hx : x = id
    · exact hx ▸ List.mem_cons_self
    · exact List.mem_cons_of_mem _ ((List.mem_erase_of_ne hx).2 hin)

theorem kept_iff (h : s.Good) (r : Render) : s.Kept r ↔ Spared r ((s.refs r).current r) := by
  obtain ⟨hcur, horder⟩ := h.current r
  rw [← others_le_iff hcur]
  refine ⟨fun hkept => hkept.heavy, fun hheavy => ⟨nodup_aliveIds hcur, fun id hid => ?_, fun id hid => active_alive hcur hid, hheavy, light_alive hcur, ?_⟩⟩
  · exact isOpen_iff.1 (hcur.opened id (mem_of_alive hcur hid))
  · intro before alive hlast hsettings x hx tab was htab _ _ hout
    have hopen : r.isOpen x = true := by rw [Render.isOpen, htab]; rfl
    have hlight : r.isLight x = tab.light := by rw [Render.isLight, htab]; rfl
    obtain ⟨others, hnodup, hlength, hothers⟩ := passed hcur horder (h.mem_current hlast hsettings hx hopen) hout
    rw [hlight] at hlength hothers
    refine ⟨others, hnodup, hlength, fun y hy => ?_⟩
    obtain ⟨⟨hyopen, hylight⟩, hsince⟩ := hothers y hy
    obtain ⟨tab', htab'⟩ := Option.isSome_iff_exists.1 hyopen
    refine ⟨hsince.ne, ⟨tab', htab', ?_⟩, hsince⟩
    rwa [Render.isLight, htab', Option.any_some] at hylight

/-- In every sequence of renders the pool keeps what recency says exactly where no active pinned tab is given a slot that it does not take. -/
theorem pool_kept (renders : List Render) :
    Always next Kept start renders ↔ Always next (fun s r => Spared r ((s.refs r).current r)) start renders :=
  always_iff (fun _ r h => kept_iff h r) (fun _ r h _ => h.next r) renders good_start

/-- Three heavy tabs, of which the active one is pinned and one may be kept beside it. -/
def pinnedActive (activeTabId : String) (h : activeTabId ∈ ["pinned", "normal1", "normal2"]) : Render where
  activeTabId := some activeTabId
  tabs := [⟨"pinned", true, false⟩, ⟨"normal1", false, false⟩, ⟨"normal2", false, false⟩]
  settings := ⟨1, true, 0⟩
  named := by decide
  among := by
    rintro _ ⟨⟩
    exact h

theorem pool_exceeded :
    ¬Always next Kept start [pinnedActive "normal1" (by decide), pinnedActive "normal2" (by decide), pinnedActive "pinned" (by decide)] := by
  rintro ⟨-, -, hkept, -⟩
  exact absurd hkept.heavy (by decide)

end Run

end Purdex.Alive
