/-
The recent files over whole runs: one entry for each file, fifty at most, by when they were opened; and what each action does to them, which
is what it should do where the key of an entry says which file it is of.
-/
import Purdex.Recent.Rename
import Purdex.Text.Joined

namespace Purdex.Recent

open Panes

variable {files : List RecentFileEntry} {entry e f g : RecentFileEntry} {source : FileSource} {old new path : String}

/-! ## What holds of the list -/

structure Recency (files : List RecentFileEntry) : Prop where
  distinct : (files.map RecentFileEntry.identity).Nodup
  capped : files.length ≤ 50
  ordered : files.Pairwise fun f g => g.openedAt ≤ f.openedAt

/-- What the actions keep, of which the keys say more than the files. -/
structure Ranked (files : List RecentFileEntry) : Prop where
  keys : (files.map RecentFileEntry.key).Nodup
  capped : files.length ≤ 50
  ordered : files.Pairwise fun f g => g.openedAt ≤ f.openedAt

theorem key_of_identity (h : f.identity = g.identity) : f.key = g.key := by
  obtain ⟨hsource, hpath⟩ := Prod.mk.inj h
  rw [RecentFileEntry.key, RecentFileEntry.key, hsource, hpath]

theorem Ranked.recency (h : Ranked files) : Recency files := by
  refine ⟨?_, h.capped, h.ordered⟩
  have hkey : files.map RecentFileEntry.key = (files.map RecentFileEntry.identity).map fun p => recentKey p.1 p.2 := by
    rw [List.map_map]
    rfl
  exact List.Nodup.of_map _ (hkey ▸ h.keys)

theorem Ranked.addRecent (h : Ranked files) (hclock : ∀ f ∈ files, f.openedAt ≤ entry.openedAt) : Ranked (addRecent entry files) := by
  have htake : (Recent.addRecent entry files).Sublist (entry :: files.filter (·.key ≠ entry.key)) := List.take_sublist _ _
  refine ⟨List.Nodup.sublist (htake.map _) ?_, ?_, List.Pairwise.sublist htake ?_⟩
  · rw [List.map_cons, List.nodup_cons]
    refine ⟨fun hmem => ?_, List.Nodup.sublist (List.filter_sublist.map _) h.keys⟩
    obtain ⟨f, hf, hkey⟩ := List.mem_map.1 hmem
    exact of_decide_eq_true (List.mem_filter.1 hf).2 hkey
  · exact (List.length_take_le _ _)
  · exact List.pairwise_cons.2 ⟨fun f hf => hclock f (List.mem_of_mem_filter hf), h.ordered.filter _⟩

theorem Ranked.renamePath (h : Ranked files) (source : FileSource) (old new : String) : Ranked (renamePath source old new files) := by
  obtain ⟨hkeys, htimes⟩ := @renamePath_kept source old new _ h.keys h.ordered
  refine ⟨hkeys, ?_, ?_⟩
  · have hle := htimes.length_le
    rw [List.length_map, List.length_map] at hle
    exact hle.trans h.capped
  · have hordered : (files.map RecentFileEntry.openedAt).Pairwise fun t u => u ≤ t := List.pairwise_map.2 h.ordered
    exact List.pairwise_map.1 (hordered.sublist htimes)

theorem Ranked.removePath (h : Ranked files) (source : FileSource) (path : String) : Ranked (removePath source path files) :=
  ⟨List.Nodup.sublist (List.filter_sublist.map _) h.keys, (List.length_filter_le _ _).trans h.capped, h.ordered.filter _⟩

/-! ## Runs -/

/-- When what is added was opened. -/
def RecentOp.openedAt : RecentOp → Option ℚ
  | .addRecent entry => some entry.openedAt
  | _ => none

theorem openedAt_of_mem_apply {op : RecentOp} (h : Ranked files) (he : e ∈ op.apply files) :
    op.openedAt = some e.openedAt ∨ ∃ f ∈ files, f.openedAt = e.openedAt := by
  cases op with
  | addRecent entry =>
    rcases List.mem_cons.1 (List.mem_of_mem_take he) with rfl | he
    · exact .inl rfl
    · exact .inr ⟨e, List.mem_of_mem_filter he, rfl⟩
  | renamePath source old new =>
    have htimes := (@renamePath_kept source old new _ h.keys h.ordered).2
    exact .inr (List.mem_map.1 (htimes.subset (List.mem_map_of_mem he)))
  | removePath source path => exact .inr ⟨e, List.mem_of_mem_filter he, rfl⟩
  | clear => exact absurd he List.not_mem_nil

/-- What is in the list was added in the run. -/
theorem ranked_run {ops : List RecentOp} (hclock : (ops.filterMap RecentOp.openedAt).Pairwise (· ≤ ·)) :
    Ranked (run ops) ∧ ∀ f ∈ run ops, f.openedAt ∈ ops.filterMap RecentOp.openedAt := by
  induction ops using List.reverseRecOn with
  | nil => exact ⟨⟨List.nodup_nil, Nat.zero_le _, .nil⟩, fun f hf => absurd hf List.not_mem_nil⟩
  | append_singleton ops op ih =>
    rw [List.filterMap_append, List.pairwise_append] at hclock
    obtain ⟨hranked, htimes⟩ := ih hclock.1
    have hrun : run (ops ++ [op]) = op.apply (run ops) := List.foldl_concat ..
    rw [hrun]
    constructor
    · cases op with
      | addRecent entry => exact hranked.addRecent fun f hf => hclock.2.2 _ (htimes f hf) _ List.mem_cons_self
      | renamePath source old new => exact hranked.renamePath source old new
      | removePath source path => exact hranked.removePath source path
      | clear => exact ⟨List.nodup_nil, Nat.zero_le _, .nil⟩
    · intro e he
      rw [List.filterMap_append, List.mem_append]
      rcases openedAt_of_mem_apply hranked he with hop | ⟨f, hf, heq⟩
      · refine .inr ?_
        rw [List.filterMap_cons, hop]
        exact List.mem_cons_self
      · exact .inl (heq ▸ htimes f hf)

/-! ## What an action should do -/

/-- What is at or below the path on the source keeps what is behind the path. -/
def Follows (source : FileSource) (old new : String) : Prop :=
  ∀ f : RecentFileEntry, (f.isPathAffectedBy source old = true ↔
      f.source = source ∧ ∃ suffix, f.path.toList = old.toList ++ suffix ∧ (suffix = [] ∨ ∃ rest, suffix = '/' :: rest)) ∧
    ∀ suffix, f.path.toList = old.toList ++ suffix → (f.move old new).path.toList = new.toList ++ suffix ∧
      (f.move old new).source = f.source ∧ (f.move old new).kind = f.kind

/-- By the files that the entries are of. -/
def Meets (files : List RecentFileEntry) : RecentOp → Prop
  | .addRecent entry => addRecent entry files = (entry :: files.filter (·.identity ≠ entry.identity)).take 50
  | .renamePath source old new => Follows source old new ∧ ∀ e, e ∈ renamePath source old new files ↔
      (∃ f ∈ files, Landed RecentFileEntry.identity source old new files f e) ∨ Kept RecentFileEntry.identity source old new files e
  | .removePath source path => removePath source path files = files.filter fun f => !(isSameFileSource f.source source && isPathUnder f.path path)
  | .clear => RecentOp.clear.apply files = []

/-- No other file has the key that an entry is put under: when one is added, among those that may stay behind it. -/
def Apart (files : List RecentFileEntry) : RecentOp → Prop
  | .addRecent entry => ∀ f ∈ files.take 49, f.key = entry.key → f.identity = entry.identity
  | .renamePath source old new => ∀ f ∈ files, f.isPathAffectedBy source old = true → ∀ g ∈ files, g.isPathAffectedBy source old = false →
      g.key = (f.move old new).key → g.identity = (f.move old new).identity
  | .removePath _ _ => True
  | .clear => True

theorem follows (source : FileSource) (old new : String) : Follows source old new := by
  intro f
  refine ⟨?_, fun suffix hsuffix => ⟨remapPathUnder_eq hsuffix, rfl, rfl⟩⟩
  rw [isPathAffectedBy_iff, isPathUnder_iff]

theorem addRecent_iff (h : Ranked files) (entry : RecentFileEntry) : Meets files (.addRecent entry) ↔ Apart files (.addRecent entry) := by
  change (entry :: files.filter (·.key ≠ entry.key)).take 50 = (entry :: files.filter (·.identity ≠ entry.identity)).take 50 ↔ _
  rw [List.take_succ_cons, List.take_succ_cons, List.cons.injEq, and_iff_right rfl]
  by_cases hkey : ∃ f ∈ files, f.key = entry.key
  · obtain ⟨f, hf, hkey⟩ := hkey
    obtain ⟨before, behind, rfl⟩ := List.append_of_mem hf
    have hothers : ∀ g ∈ before ++ behind, g.key ≠ entry.key := by
      intro g hg heq
      have hnodup := h.keys
      rw [List.map_append, List.map_cons, List.nodup_middle, List.nodup_cons, ← List.map_append] at hnodup
      exact hnodup.1 (hkey ▸ heq ▸ List.mem_map_of_mem hg)
    have hdrop : ∀ p : RecentFileEntry → Bool, (∀ g ∈ before ++ behind, p g = true) → p f = false →
        (before ++ f :: behind).filter p = before ++ behind := fun p hp hpf => by
      rw [List.filter_append, List.filter_cons_of_neg (ne_true_of_eq_false hpf), ← List.filter_append, List.filter_eq_self.2 hp]
    rw [hdrop _ (fun g hg => decide_eq_true (hothers g hg)) (decide_eq_false (not_not.2 hkey))]
    by_cases hidentity : f.identity = entry.identity
    · have hone : (before ++ f :: behind).filter (·.identity ≠ entry.identity) = before ++ behind :=
        hdrop _ (fun g hg => decide_eq_true fun heq => hothers g hg (key_of_identity heq)) (decide_eq_false (not_not.2 hidentity))
      rw [hone]
      refine iff_of_true rfl fun g hg heq => ?_
      rw [eq_of_key h.keys (List.mem_of_mem_take hg) hf (heq.trans hkey.symm), hidentity]
    · have hall : (before ++ f :: behind).filter (·.identity ≠ entry.identity) = before ++ f :: behind := by
        refine List.filter_eq_self.2 fun g hg => decide_eq_true fun heq => hidentity ?_
        rw [← eq_of_key h.keys hg hf ((key_of_identity heq).trans hkey.symm), heq]
      rw [hall]
      by_cases hlength : 49 ≤ before.length
      · rw [List.take_append_of_le_length hlength, List.take_append_of_le_length hlength]
        refine iff_of_true rfl fun g hg heq => absurd heq (hothers g (List.mem_append_left _ ?_))
        rw [List.take_append_of_le_length hlength] at hg
        exact List.mem_of_mem_take hg
      · -- Another file's entry goes, though there is room for it.
        have hfirst : f ∈ (before ++ f :: behind).take 49 := by
          refine List.mem_take_iff_getElem.2 ⟨before.length, ?_, ?_⟩
          · rw [List.length_append, List.length_cons]
            omega
          · exact List.getElem_append_right (le_refl _) |>.trans (by simp)
        refine iff_of_false (fun heq => ?_) fun hapart => hidentity (hapart f hfirst hkey)
        exact hothers f (List.mem_of_mem_take (heq ▸ hfirst)) hkey
  · push Not at hkey
    have hkeys : files.filter (·.key ≠ entry.key) = files := List.filter_eq_self.2 fun f hf => decide_eq_true (hkey f hf)
    have hidentities : files.filter (·.identity ≠ entry.identity) = files :=
      List.filter_eq_self.2 fun f hf => decide_eq_true fun heq => hkey f hf (key_of_identity heq)
    rw [hkeys, hidentities]
    exact iff_of_true rfl fun f hf heq => absurd heq (hkey f (List.mem_of_mem_take hf))

theorem renamePath_iff (h : Ranked files) (source : FileSource) (old new : String) :
    Meets files (.renamePath source old new) ↔ Apart files (.renamePath source old new) := by
  constructor
  · intro hmeets f hf haffected g hg haffected' hkey
    by_contra hidentity
    have hunique : ∀ f' ∈ files, f'.isPathAffectedBy source old = true → (f'.move old new).key = g.key → f' = f := fun f' hf' haff heq =>
      eq_of_key h.keys hf' hf (key_of_move haff haffected (heq.trans hkey))
    -- The entry is no other's by its file, so it should stay.
    have hstay : g ∈ Recent.renamePath source old new files := by
      refine (hmeets.2 g).2 (.inr ⟨hg, haffected', fun f' hf' haff heq => hidentity ?_⟩)
      rw [← hunique f' hf' haff (key_of_identity heq), heq]
    rcases (mem_renamePath h.keys h.ordered g).1 hstay with ⟨f', hf', haff, t, heq, -⟩ | hkept
    · have hkey' : g.key = (f'.move old new).key := (congrArg RecentFileEntry.key heq).trans (key_openedAt _ t)
      refine hidentity ?_
      rw [← hunique f' hf' haff hkey'.symm]
      exact (congrArg RecentFileEntry.identity heq).trans (identity_openedAt _ t)
    · exact hkept.2.2 f hf haffected hkey.symm
  · intro hapart
    refine ⟨follows source old new, fun e => ?_⟩
    have hsame : ∀ f ∈ files, f.isPathAffectedBy source old = true → ∀ g ∈ files, g.isPathAffectedBy source old = false →
        (g.key = (f.move old new).key ↔ g.identity = (f.move old new).identity) := fun f hf haff g hg haff' =>
      ⟨hapart f hf haff g hg haff', key_of_identity⟩
    rw [mem_renamePath h.keys h.ordered]
    refine or_congr (exists_congr fun f => and_congr_right fun hf => ?_) (and_congr_right fun he => and_congr_right fun haff => ?_)
    · refine and_congr_right fun haff => exists_congr fun t => and_congr_right fun _ => or_congr ?_ (and_congr_left fun _ => ?_)
      · exact exists_congr fun g => and_congr_right fun hg => and_congr_right fun haff' => and_congr_left fun _ => hsame f hf haff g hg haff'
      · exact forall_congr' fun g => forall_congr' fun hg => forall_congr' fun haff' => not_congr (hsame f hf haff g hg haff')
    · refine forall_congr' fun f => forall_congr' fun hf => forall_congr' fun haff' => not_congr ?_
      rw [eq_comm, hsame f hf haff' e he haff, eq_comm]

theorem meets_iff (h : Ranked files) (op : RecentOp) : Meets files op ↔ Apart files op := by
  cases op with
  | addRecent entry => exact addRecent_iff h entry
  | renamePath source old new => exact renamePath_iff h source old new
  | removePath source path => exact iff_of_true rfl trivial
  | clear => exact iff_of_true rfl trivial

/-! ## Sources whose keys are told apart -/

/-- In every run the list is one of files by when they were opened, and an action does what it should exactly where it meets no other file
under a key of its own. -/
theorem recent_files_run {ops : List RecentOp} (hclock : (ops.filterMap RecentOp.openedAt).Pairwise (· ≤ ·)) :
    Recency (run ops) ∧ ∀ op, Meets (run ops) op ↔ Apart (run ops) op :=
  ⟨(ranked_run hclock).1.recency, meets_iff (ranked_run hclock).1⟩

def opened (source : FileSource) (path : String) (openedAt : ℚ) : RecentFileEntry := ⟨source, path, nameOf path, .editor, openedAt⟩

def renamed : List RecentOp :=
  [.addRecent (opened .inapp "/buffer/a" 1), .addRecent (opened .local "/buffer/a" 2), .renamePath .inapp "/buffer" "/b"]

theorem recent_files_run_rename : Recency (run renamed) ∧ ∀ op, Meets (run renamed) op ↔ Apart (run renamed) op :=
  recent_files_run (by decide)

/-- Two hosts, one of which has a space in its name: the second entry takes the first one's place. -/
theorem other_host_dropped :
    ¬Meets (run [.addRecent (opened (.daemon "m /a") "/b" 1)]) (.addRecent (opened (.daemon "m") "/a /b" 2)) := by
  intro h
  have hlength := congrArg List.length h
  exact absurd hlength (by decide)

end Purdex.Recent
