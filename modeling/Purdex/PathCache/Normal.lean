/-
What is normalized stays as it is: a directory is a clean path, a working directory ends in no slash.
-/
import Purdex.PathCache.Utils
import Mathlib

namespace Purdex.PathCache

open Files
open Joined (cut cut_join join_cut)

variable {raw s dir cwd hostId basename : String} {l : List Char} {segs : List (List Char)}

/-! ## Keys -/

theorem toList_scopeKey (hostId cwd : String) : (scopeKey hostId cwd).toList = Joined.join scopeSep hostId.toList cwd.toList := by
  simp [scopeKey, Joined.join]

theorem parseScopeKey_scopeKey (hhost : hostId ≠ "") (hsep : scopeSep ∉ hostId.toList) (hcwd : cwd ≠ "") :
    parseScopeKey (scopeKey hostId cwd) = some (hostId, cwd) := by
  have hne : ¬(hostId.toList = [] ∨ cwd.toList = []) := fun h =>
    h.elim (fun h => hhost (String.toList_eq_nil_iff.1 h)) fun h => hcwd (String.toList_eq_nil_iff.1 h)
  unfold parseScopeKey
  rw [toList_scopeKey, cut_join hsep]
  simp only
  rw [if_neg hne, String.ofList_toList, String.ofList_toList]

/-- A key that is told apart is the key of what it is told apart into. -/
theorem scopeKey_of_parse {key : String} (h : parseScopeKey key = some (hostId, cwd)) :
    key = scopeKey hostId cwd ∧ hostId ≠ "" ∧ scopeSep ∉ hostId.toList ∧ cwd ≠ "" := by
  unfold parseScopeKey at h
  cases hcut : cut scopeSep key.toList with
  | none =>
    rw [hcut] at h
    cases h
  | some p =>
    rw [hcut] at h
    simp only at h
    split at h
    · cases h
    · rename_i hne
      obtain ⟨hhost, hcwd⟩ := Prod.mk.inj (Option.some.inj h)
      obtain ⟨hjoin, hsep⟩ := join_cut hcut
      rw [not_or] at hne
      subst hhost hcwd
      refine ⟨String.toList_injective ?_, fun hnil => hne.1 ?_, ?_, fun hnil => hne.2 ?_⟩
      · rw [toList_scopeKey, String.toList_ofList, String.toList_ofList]
        exact hjoin.symm
      · rw [← String.toList_ofList (l := p.1), hnil]
        rfl
      · rw [String.toList_ofList]
        exact hsep
      · rw [← String.toList_ofList (l := p.2), hnil]
        rfl

/-! ## Lengths -/

theorem units_append (a b : List Char) : units (a ++ b) = units a + units b := by simp [units]

theorem units_cons_slash (l : List Char) : units ('/' :: l) = units l + 1 := by
  rw [← List.singleton_append, units_append, Nat.add_comm]
  rfl

/-- Each segment, and a slash with it. -/
def cost (segs : List (List Char)) : Nat := (segs.map fun seg => units seg + 1).sum

theorem units_intercalate (h : segs ≠ []) : units (['/'].intercalate segs) + 1 = cost segs := by
  induction segs with
  | nil => exact absurd rfl h
  | cons seg segs ih =>
    cases segs with
    | nil => simp [cost]
    | cons seg' segs =>
      have hrest := ih (List.cons_ne_nil _ _)
      have hslash : units ['/'] = 1 := rfl
      have hcost : cost (seg :: seg' :: segs) = units seg + 1 + cost (seg' :: segs) := rfl
      rw [List.intercalate_cons_cons, units_append, units_append, hcost, ← hrest, hslash]
      omega

/-- What is not asked of a slash is asked of the segments. -/
theorem any_intercalate {p : Char → Bool} (h : p '/' = false) (segs : List (List Char)) :
    (['/'].intercalate segs).any p = segs.any fun seg => seg.any p := by
  induction segs with
  | nil => rfl
  | cons seg segs ih =>
    cases segs with
    | nil => simp
    | cons seg' segs =>
      rw [List.intercalate_cons_cons, List.any_append, List.any_append, ih, List.any_cons (a := seg)]
      simp [h]

theorem cost_append (a b : List (List Char)) : cost (a ++ b) = cost a + cost b := by simp [cost]

/-! ## Directories -/

def costOf (parts : List String) : Nat := cost (parts.map String.toList)

theorem costOf_append (a b : List String) : costOf (a ++ b) = costOf a + costOf b := by
  unfold costOf
  rw [List.map_append, cost_append]

theorem costOf_foldl (segs : List String) : ∀ parts, costOf (segs.foldl pushSegment parts) ≤ costOf parts + costOf segs := by
  induction segs with
  | nil => exact fun _ => Nat.le_refl _
  | cons seg segs ih =>
    intro parts
    have hstep : costOf (pushSegment parts seg) ≤ costOf parts + costOf [seg] := by
      unfold pushSegment
      split
      · exact Nat.le_add_right _ _
      · split
        · rcases List.eq_nil_or_concat parts with rfl | ⟨front, last, rfl⟩
          · exact Nat.zero_le _
          · rw [List.concat_eq_append, List.dropLast_concat, costOf_append]
            omega
        · exact Nat.le_of_eq (costOf_append _ _)
    have hcons : costOf (seg :: segs) = costOf [seg] + costOf segs := costOf_append [seg] segs
    have hrest := ih (pushSegment parts seg)
    rw [List.foldl_cons]
    omega

theorem foldl_pushSegment_subset (segs : List String) : ∀ parts, segs.foldl pushSegment parts ⊆ parts ++ segs := by
  induction segs with
  | nil => exact fun parts => List.subset_append_left _ _
  | cons seg segs ih =>
    intro parts c hc
    rw [List.foldl_cons] at hc
    rcases List.mem_append.1 (ih _ hc) with hc | hc
    · unfold pushSegment at hc
      split at hc
      · exact List.mem_append_left _ hc
      · split at hc
        · exact List.mem_append_left _ (List.dropLast_subset _ hc)
        · rcases List.mem_append.1 hc with hc | hc
          · exact List.mem_append_left _ hc
          · exact List.mem_append_right _ (List.mem_singleton.1 hc ▸ List.mem_cons_self)
    · exact List.mem_append_right _ (List.mem_cons_of_mem _ hc)

/-- The source's loop is that of a clean absolute path. -/
theorem foldl_pushSegment {segs : List String} (hsegs : ∀ seg ∈ segs, '/' ∉ seg.toList) {parts : List String} (hparts : ∀ c ∈ parts, Named c) :
    segs.foldl pushSegment parts = (segs.filter (· ≠ "")).foldl (cleanStep true) parts := by
  induction segs generalizing parts with
  | nil => rfl
  | cons seg segs ih =>
    obtain ⟨hseg, hrest⟩ := List.forall_mem_cons.1 hsegs
    rw [List.foldl_cons]
    by_cases hempty : seg = ""
    · rw [List.filter_cons_of_neg (by simpa using hempty), pushSegment, if_pos (.inl hempty)]
      exact ih hrest hparts
    · rw [List.filter_cons_of_pos (by simpa using hempty), List.foldl_cons]
      have hstep : pushSegment parts seg = cleanStep true parts seg := by
        unfold pushSegment cleanStep
        by_cases hhere : seg = "."
        · rw [if_pos (.inr hhere), if_pos hhere]
        · rw [if_neg (not_or.2 ⟨hempty, hhere⟩), if_neg hhere]
          split
          · cases hlast : parts.getLast? with
            | none =>
              rw [List.getLast?_eq_none_iff.1 hlast]
              rfl
            | some name => exact (if_neg (hparts name (List.mem_of_getLast? hlast)).above).symm
          · rfl
      rw [hstep]
      exact ih hrest (@named_cleanComps [seg] (List.forall_mem_singleton.2 ⟨hempty, hseg⟩) parts hparts)

theorem unslashed_segments {seg : String} (h : seg ∈ (raw.toList.splitOn '/').map String.ofList) : '/' ∉ seg.toList := by
  obtain ⟨l, hl, rfl⟩ := List.mem_map.1 h
  rw [String.toList_ofList]
  exact Joined.not_mem_splitOn l hl

theorem comps_eq_filter (raw : String) : ((raw.toList.splitOn '/').map String.ofList).filter (· ≠ "") = comps raw := by
  rw [List.filter_map]
  refine congrArg (List.map String.ofList) (List.filter_congr fun l _ => ?_)
  refine decide_eq_decide.2 (not_congr ⟨fun h => ?_, fun h => h ▸ rfl⟩)
  rw [← String.toList_ofList (l := l), h]
  rfl

theorem normalizeDir_eq (h : accepts maxDirBytes raw = true) : normalizeDir raw = some (clean raw) := by
  have habs : isAbs raw = true := (Bool.and_eq_true_iff.1 (Bool.and_eq_true_iff.1 h).1).1
  have hparts := foldl_pushSegment (@unslashed_segments raw) fun _ hc => absurd hc List.not_mem_nil
  rw [comps_eq_filter] at hparts
  unfold normalizeDir clean
  rw [if_pos h, hparts, habs]
  simp only
  unfold cleanComps render
  rw [if_pos rfl]
  split
  · rename_i hnil
    rw [hnil]
    rfl
  · exact congrArg some (String.toList_injective (by simp))

/-- A directory in its normal form. -/
structure Normal (dir : String) : Prop where
  names : ∃ cs, (∀ c ∈ cs, Named c) ∧ dir = render true cs
  accepted : accepts maxDirBytes dir = true

theorem Normal.fixed (h : Normal dir) : normalizeDir dir = some dir := by
  obtain ⟨cs, hcs, hdir⟩ := h.names
  rw [normalizeDir_eq h.accepted]
  subst hdir
  rw [clean_render hcs]

theorem normal_of_normalizeDir (h : normalizeDir raw = some dir) : Normal dir := by
  have haccepts : accepts maxDirBytes raw = true := by
    unfold normalizeDir at h
    split at h
    · assumption
    · cases h
  obtain ⟨⟨habs, hlength⟩, hplain⟩ := by
    simpa only [accepts, Bool.and_eq_true, Bool.not_eq_true', decide_eq_true_eq] using haccepts
  rw [normalizeDir_eq haccepts] at h
  obtain ⟨cs, hcs⟩ : ∃ cs, cs = ((raw.toList.splitOn '/').map String.ofList).foldl pushSegment [] := ⟨_, rfl⟩
  have hnone : ∀ c ∈ ([] : List String), Named c := fun _ hc => absurd hc List.not_mem_nil
  have hclean : cleanComps true (comps raw) = cs := by
    rw [hcs, foldl_pushSegment (@unslashed_segments raw) hnone, comps_eq_filter]
    rfl
  have hnamed : ∀ c ∈ cs, Named c := hclean ▸ named_cleanComps (comps_segment raw) hnone
  have hdir : dir = render true cs := by
    rw [← Option.some.inj h, clean, habs, hclean]
  have htext : dir.toList = '/' :: ['/'].intercalate (cs.map String.toList) := by
    rw [hdir, render, if_pos rfl, String.toList_ofList]
  refine ⟨⟨cs, hnamed, hdir⟩, ?_⟩
  obtain ⟨t, ht⟩ : ∃ t, raw.toList = '/' :: t := by
    cases hraw : raw.toList with
    | nil => simp [isAbs, hraw] at habs
    | cons c t =>
      obtain rfl : c = '/' := by simpa [isAbs, hraw] using habs
      exact ⟨t, rfl⟩
  have hsplit : raw.toList.splitOn '/' = [] :: t.splitOn '/' := by
    rw [ht, List.splitOn_cons_eq_if_modifyHead, if_pos (by decide)]
  have hlist : ∀ l : List (List Char), (l.map String.ofList).map String.toList = l := fun l => by
    rw [List.map_map]
    exact List.map_id'' (fun _ => String.toList_ofList) l
  -- no longer than the text
  have hunits : units dir.toList ≤ units raw.toList := by
    have hcost : costOf cs ≤ units raw.toList := by
      have hrest : costOf ((t.splitOn '/').map String.ofList) = units raw.toList := by
        rw [costOf, hlist, ← units_intercalate (List.splitOn_ne_nil _ _), List.intercalate_splitOn, ht, units_cons_slash]
      have hbound := costOf_foldl ((t.splitOn '/').map String.ofList) []
      rw [hrest] at hbound
      have hfirst : cs = ((t.splitOn '/').map String.ofList).foldl pushSegment [] := by
        rw [hcs, hsplit]
        rfl
      rw [hfirst]
      exact Nat.le_trans hbound (Nat.le_of_eq (Nat.zero_add _))
    rw [htext, units_cons_slash]
    by_cases hnil : cs = []
    · rw [hnil, ht, units_cons_slash]
      exact Nat.succ_le_succ (Nat.zero_le _)
    · rw [units_intercalate (by simpa using hnil)]
      exact hcost
  -- and with nothing in it that the text does not have
  have hcontrol : hasControlOrNul dir = false := by
    have hslash : (decide (('/' : Char).toNat < 0x20) || decide (('/' : Char).toNat = 0x7F)) = false := by decide
    unfold hasControlOrNul at hplain ⊢
    have hself : ['/'].intercalate (raw.toList.splitOn '/') = raw.toList := List.intercalate_splitOn '/'
    rw [← hself, any_intercalate hslash] at hplain
    rw [htext, List.any_cons, any_intercalate hslash, hslash, Bool.false_or, List.any_eq_false]
    intro seg hseg
    obtain ⟨c, hc, rfl⟩ := List.mem_map.1 hseg
    obtain ⟨l, hl, rfl⟩ := List.mem_map.1 (foldl_pushSegment_subset _ [] (hcs ▸ hc))
    rw [String.toList_ofList]
    exact List.any_eq_false.1 hplain l hl
  unfold accepts
  rw [hcontrol, decide_eq_true (Nat.le_trans hunits hlength), hdir, isAbs_render]
  rfl

/-- What `normalizeDir` gives it leaves alone. -/
theorem normalizeDir_idem (h : normalizeDir raw = some dir) : normalizeDir dir = some dir := (normal_of_normalizeDir h).fixed

theorem Normal.absolute (h : Normal dir) : ∃ t, dir.toList = '/' :: t := by
  obtain ⟨cs, -, rfl⟩ := h.names
  exact ⟨_, by rw [render, if_pos rfl, String.toList_ofList]⟩

/-! ## Working directories -/

/-- A front of a text that is accepted, from its slash on. -/
theorem accepts_of_prefix {maxBytes : Nat} {s : String} (h : accepts maxBytes raw = true) (hs : s.toList <+: raw.toList) (hne : s.toList ≠ []) :
    accepts maxBytes s = true := by
  obtain ⟨⟨habs, hlength⟩, hplain⟩ := by
    simpa only [accepts, Bool.and_eq_true, Bool.not_eq_true', decide_eq_true_eq] using h
  obtain ⟨rest, hrest⟩ := hs
  unfold isAbs at habs
  unfold hasControlOrNul at hplain
  rw [← hrest] at hlength habs hplain
  rw [units_append] at hlength
  rw [List.any_append, Bool.or_eq_false_iff] at hplain
  rw [List.head?_append_of_ne_nil _ hne] at habs
  unfold accepts isAbs hasControlOrNul
  rw [habs, hplain.1, decide_eq_true (Nat.le_trans (Nat.le_add_right _ _) hlength)]
  rfl

theorem normalizeCwd_idem (h : normalizeCwd raw = some cwd) : normalizeCwd cwd = some cwd := by
  unfold normalizeCwd at h
  split at h
  · rename_i haccepts
    simp only at h
    split at h
    · cases h
      decide
    · rename_i hne
      obtain ⟨l, hl⟩ : ∃ l, l = raw.toList.rdropWhile (· = '/') := ⟨_, rfl⟩
      have hfront : l <+: raw.toList := hl ▸ List.rdropWhile_prefix _ _
      have hfixed : l.rdropWhile (· = '/') = l := by rw [hl, List.rdropWhile_idempotent]
      rw [← hl] at h hne
      have htext : cwd.toList = l := by rw [← Option.some.inj h, String.toList_ofList]
      have hagain : accepts maxCwdBytes cwd = true := accepts_of_prefix haccepts (by rw [htext]; exact hfront) (by rw [htext]; exact hne)
      unfold normalizeCwd
      rw [if_pos hagain, htext, hfixed]
      simp only
      rw [if_neg hne, ← htext, String.ofList_toList]
  · cases h

theorem ne_empty_of_normalizeCwd (h : normalizeCwd raw = some cwd) : cwd ≠ "" := by
  rintro rfl
  exact absurd (normalizeCwd_idem h) (by decide)

/-! ## Candidates -/

/-- A name in a directory, as it is looked up. -/
def candidate (basename dir : String) : String := if dir = "/" then "/" ++ basename else dir ++ "/" ++ basename

theorem rdropWhile_name {b : List Char} (h : '/' ∉ b) (l : List Char) : (l ++ '/' :: b).rdropWhile (· ≠ '/') = l ++ ['/'] := by
  induction b using List.reverseRecOn with
  | nil => exact List.rdropWhile_concat_neg _ _ _ (by simp)
  | append_singleton b c ih =>
    rw [List.mem_append, not_or, List.mem_singleton] at h
    have hc : decide (c ≠ '/') = true := decide_eq_true (Ne.symm h.2)
    rw [← List.cons_append, ← List.append_assoc, List.rdropWhile_concat_pos (fun x => decide (x ≠ '/')) _ _ hc]
    exact ih h.1

theorem dirname_candidate (hdir : ∃ t, dir.toList = '/' :: t) (hname : '/' ∉ basename.toList) : dirname (candidate basename dir) = dir := by
  unfold candidate
  split
  · rename_i hroot
    have htext : ("/" ++ basename).toList = [] ++ '/' :: basename.toList := by simp
    unfold dirname
    rw [htext, rdropWhile_name hname]
    exact hroot.symm
  · have htext : (dir ++ "/" ++ basename).toList = dir.toList ++ '/' :: basename.toList := by simp
    unfold dirname
    rw [htext, rdropWhile_name hname, List.dropLast_concat]
    obtain ⟨t, ht⟩ := hdir
    simp only
    rw [if_neg (by rw [ht]; exact List.cons_ne_nil _ _), String.ofList_toList]

theorem candidate_injective (basename : String) {dir dir' : String} (hdir : ∃ t, dir.toList = '/' :: t) (hdir' : ∃ t, dir'.toList = '/' :: t)
    (h : candidate basename dir = candidate basename dir') : dir = dir' := by
  have htext : ∀ {d : String}, (∃ t, d.toList = '/' :: t) →
      (candidate basename d).toList = (if d = "/" then [] else d.toList) ++ '/' :: basename.toList := by
    intro d _
    unfold candidate
    split
    · simp
    · simp
  have heq := congrArg String.toList h
  rw [htext hdir, htext hdir'] at heq
  have hfront := List.append_cancel_right heq
  split at hfront
  · split at hfront
    · rename_i hroot hroot'
      exact hroot.trans hroot'.symm
    · obtain ⟨t, ht⟩ := hdir'
      rw [ht] at hfront
      cases hfront
  · split at hfront
    · obtain ⟨t, ht⟩ := hdir
      rw [ht] at hfront
      cases hfront
    · exact String.toList_injective hfront

end Purdex.PathCache
