/-
What a rename leaves in the recent files: each entry at or below the path under its new path, joined with the one that was there, and the
others as they are.
-/
import Purdex.Recent.Files
import Mathlib.Data.List.Induction

namespace Purdex.Recent

open Panes

section Rename

variable {κ : Type} (k : RecentFileEntry → κ) (source : FileSource) (old new : String)

/-! ## Where entries land -/

/-- What an entry that is renamed is in the end: the newer of the two when it was opened, if there was one with its new key. -/
def Landed (files : List RecentFileEntry) (f e : RecentFileEntry) : Prop :=
  f.isPathAffectedBy source old = true ∧ ∃ t, e = { f.move old new with openedAt := t } ∧
    ((∃ g ∈ files, g.isPathAffectedBy source old = false ∧ k g = k (f.move old new) ∧ t = max g.openedAt f.openedAt) ∨
      ((∀ g ∈ files, g.isPathAffectedBy source old = false → k g ≠ k (f.move old new)) ∧ t = f.openedAt))

/-- What stays as it is: nothing is renamed to it. -/
def Kept (files : List RecentFileEntry) (e : RecentFileEntry) : Prop :=
  e ∈ files ∧ e.isPathAffectedBy source old = false ∧ ∀ f ∈ files, f.isPathAffectedBy source old = true → k (f.move old new) ≠ k e

variable {k source old new} {files done : List RecentFileEntry} {f g e x : RecentFileEntry}

theorem exists_landed (hf : f.isPathAffectedBy source old = true) : ∃ e, Landed k source old new files f e := by
  by_cases h : ∃ g ∈ files, g.isPathAffectedBy source old = false ∧ k g = k (f.move old new)
  · obtain ⟨g, hg, haffected, hk⟩ := h
    exact ⟨_, hf, _, rfl, .inl ⟨g, hg, haffected, hk, rfl⟩⟩
  · exact ⟨_, hf, _, rfl, .inr ⟨fun g hg haffected hk => h ⟨g, hg, haffected, hk⟩, rfl⟩⟩

theorem key_openedAt (x : RecentFileEntry) (t : ℚ) : ({ x with openedAt := t } : RecentFileEntry).key = x.key := rfl

theorem identity_openedAt (x : RecentFileEntry) (t : ℚ) : ({ x with openedAt := t } : RecentFileEntry).identity = x.identity := rfl

theorem Landed.key (h : Landed k source old new files f e) : e.key = (f.move old new).key := by
  obtain ⟨-, t, rfl, -⟩ := h
  exact key_openedAt _ t

theorem move_openedAt (f : RecentFileEntry) : ({ f.move old new with openedAt := f.openedAt } : RecentFileEntry) = f.move old new := by
  unfold RecentFileEntry.move
  rfl

theorem landed_iff_of_fresh (hf : f.isPathAffectedBy source old = true)
    (h : ∀ g ∈ files, g.isPathAffectedBy source old = false → k g ≠ k (f.move old new)) : Landed k source old new files f e ↔ e = f.move old new := by
  constructor
  · rintro ⟨-, t, rfl, ⟨g, hg, haffected, hk, -⟩ | ⟨-, rfl⟩⟩
    · exact absurd hk (h g hg haffected)
    · exact move_openedAt f
  · rintro rfl
    exact ⟨hf, f.openedAt, (move_openedAt f).symm, .inr ⟨h, rfl⟩⟩

theorem landed_iff_of_joined (hf : f.isPathAffectedBy source old = true) (hg : g ∈ files) (haffected : g.isPathAffectedBy source old = false)
    (hk : k g = k (f.move old new)) (hunique : ∀ g' ∈ files, k g' = k g → g' = g) :
    Landed k source old new files f e ↔ e = { f.move old new with openedAt := max g.openedAt f.openedAt } := by
  constructor
  · rintro ⟨-, t, rfl, ⟨g', hg', -, hk', rfl⟩ | ⟨hnone, -⟩⟩
    · rw [hunique g' hg' (hk'.trans hk.symm)]
    · exact absurd hk (hnone g hg haffected)
  · rintro rfl
    exact ⟨hf, _, rfl, .inl ⟨g, hg, haffected, hk, rfl⟩⟩

/-- Only what is not renamed itself is joined with what is. -/
theorem landed_concat (h : x.isPathAffectedBy source old = true ∨ k x ≠ k (f.move old new)) :
    Landed k source old new (done ++ [x]) f e ↔ Landed k source old new done f e := by
  have hnot : ¬(x.isPathAffectedBy source old = false ∧ k x = k (f.move old new)) := by
    rintro ⟨hx, hk⟩
    rcases h with h | h
    · rw [hx] at h
      cases h
    · exact h hk
  unfold Landed
  simp only [List.mem_append, List.mem_singleton, or_and_right, exists_or, exists_eq_left, or_imp, forall_and, forall_eq]
  constructor
  · rintro ⟨hf, t, he, (hg | hg) | hg⟩
    · exact ⟨hf, t, he, .inl hg⟩
    · exact absurd ⟨hg.1, hg.2.1⟩ hnot
    · exact ⟨hf, t, he, .inr ⟨hg.1.1, hg.2⟩⟩
  · rintro ⟨hf, t, he, hg | hg⟩
    · exact ⟨hf, t, he, .inl (.inl hg)⟩
    · exact ⟨hf, t, he, .inr ⟨⟨hg.1, fun hx hk => hnot ⟨hx, hk⟩⟩, hg.2⟩⟩

theorem kept_concat : Kept k source old new (done ++ [x]) e ↔
    (Kept k source old new done e ∧ (x.isPathAffectedBy source old = true → k (x.move old new) ≠ k e)) ∨
      (e = x ∧ x.isPathAffectedBy source old = false ∧ ∀ f ∈ done, f.isPathAffectedBy source old = true → k (f.move old new) ≠ k x) := by
  unfold Kept
  simp only [List.mem_append, List.mem_singleton, or_imp, forall_and, forall_eq]
  constructor
  · rintro ⟨he | rfl, haffected, hf, hx⟩
    · exact .inl ⟨⟨he, haffected, hf⟩, hx⟩
    · exact .inr ⟨rfl, haffected, hf⟩
  · rintro (⟨⟨he, haffected, hf⟩, hx⟩ | ⟨rfl, haffected, hf⟩)
    · exact ⟨.inl he, haffected, hf, hx⟩
    · refine ⟨.inr rfl, haffected, hf, fun hx => ?_⟩
      rw [haffected] at hx
      cases hx

/-! ## Keys -/

theorem recentKey_injective {source : FileSource} {path path' : String} (h : recentKey source path = recentKey source path') : path = path' := by
  have hlist := congrArg String.toList h
  unfold recentKey at hlist
  rw [String.toList_append, String.toList_append (t := path')] at hlist
  exact String.toList_inj.1 (List.append_cancel_left hlist)

theorem isPathAffectedBy_iff : f.isPathAffectedBy source old = true ↔ f.source = source ∧ isPathUnder f.path old = true := by
  rw [RecentFileEntry.isPathAffectedBy, Bool.and_eq_true, isSameFileSource_iff]

/-- What is renamed is not renamed to the same. -/
theorem key_of_move (hf : f.isPathAffectedBy source old = true) (hg : g.isPathAffectedBy source old = true)
    (h : (f.move old new).key = (g.move old new).key) : f.key = g.key := by
  obtain ⟨hsource, hunder⟩ := isPathAffectedBy_iff.1 hf
  obtain ⟨hsource', hunder'⟩ := isPathAffectedBy_iff.1 hg
  have hkey : recentKey source (remapPathUnder f.path old new) = recentKey source (remapPathUnder g.path old new) := by
    rw [RecentFileEntry.key, RecentFileEntry.key] at h
    change recentKey f.source _ = recentKey g.source _ at h
    rwa [hsource, hsource'] at h
  rw [RecentFileEntry.key, RecentFileEntry.key, hsource, hsource', remapPathUnder_injective hunder hunder' (recentKey_injective hkey)]

theorem eq_of_key (hkeys : (files.map RecentFileEntry.key).Nodup) (hf : f ∈ files) (hg : g ∈ files) (h : f.key = g.key) : f = g :=
  List.inj_on_of_nodup_map hkeys hf hg h

/-! ## The loop -/

/-- What the loop has, of the entries that it has been over. -/
structure Merged (source : FileSource) (old new : String) (done : List RecentFileEntry) (r : Renaming) : Prop where
  indexed : r.slots.Indexed RecentFileEntry.key
  times : (r.slots.next.map RecentFileEntry.openedAt).Sublist (done.map RecentFileEntry.openedAt)
  mem : ∀ e, e ∈ r.slots.next ↔
    (∃ f ∈ done, Landed RecentFileEntry.key source old new done f e) ∨ Kept RecentFileEntry.key source old new done e
  same : r.changed = false → r.slots.next = done

/-- An entry as it is placed. -/
def image (source : FileSource) (old new : String) (f : RecentFileEntry) : RecentFileEntry :=
  if f.isPathAffectedBy source old then f.move old new else f

theorem image_of (h : f.isPathAffectedBy source old = true) : image source old new f = f.move old new := if_pos h

theorem image_of_not (h : f.isPathAffectedBy source old = false) : image source old new f = f := if_neg (ne_true_of_eq_false h)

/-- What is in the place of an entry that has its key. -/
def joined (source : FileSource) (old new : String) (f existing : RecentFileEntry) : RecentFileEntry :=
  { (if f.isPathAffectedBy source old then image source old new f else existing) with
    openedAt := max existing.openedAt (image source old new f).openedAt }

theorem openedAt_image (source : FileSource) (old new : String) (f : RecentFileEntry) : (image source old new f).openedAt = f.openedAt := by
  unfold image
  split <;> rfl

variable {r : Renaming}

/-- Every entry has its key in the list. -/
theorem Merged.covers (h : Merged source old new done r) (hf : f ∈ done) : ∃ b ∈ r.slots.next, b.key = (image source old new f).key := by
  cases haffected : f.isPathAffectedBy source old with
  | true =>
    obtain ⟨e, he⟩ := @exists_landed _ RecentFileEntry.key source old new done _ haffected
    exact ⟨e, (h.mem e).2 (.inl ⟨f, hf, he⟩), image_of haffected ▸ he.key⟩
  | false =>
    rw [image_of_not haffected]
    by_cases hkept : ∀ f' ∈ done, f'.isPathAffectedBy source old = true → (f'.move old new).key ≠ f.key
    · exact ⟨f, (h.mem f).2 (.inr ⟨hf, haffected, hkept⟩), rfl⟩
    · push Not at hkept
      obtain ⟨f', hf', haffected', hkey⟩ := hkept
      obtain ⟨e, he⟩ := @exists_landed _ RecentFileEntry.key source old new done _ haffected'
      exact ⟨e, (h.mem e).2 (.inl ⟨f', hf', he⟩), he.key.trans hkey⟩

/-- What is placed behind the others joins nothing. -/
theorem mem_of_pushed (h : Merged source old new done r) (hnone : ∀ b ∈ r.slots.next, b.key ≠ (image source old new x).key) (e : RecentFileEntry) :
    (e ∈ r.slots.next ∨ e = image source old new x) ↔
      (∃ f ∈ done ++ [x], Landed RecentFileEntry.key source old new (done ++ [x]) f e) ∨
        Kept RecentFileEntry.key source old new (done ++ [x]) e := by
  have hfresh : ∀ f ∈ done, (image source old new f).key ≠ (image source old new x).key := fun f hf hkey => by
    obtain ⟨b, hb, hbkey⟩ := h.covers hf
    exact hnone b hb (hbkey.trans hkey)
  rw [h.mem, kept_concat]
  simp only [List.mem_append, List.mem_singleton, or_and_right, exists_or, exists_eq_left]
  rcases Bool.eq_false_or_eq_true (x.isPathAffectedBy source old) with hx | hx
  · rw [image_of hx] at hfresh ⊢
    have hnew : ∀ g ∈ done, g.isPathAffectedBy source old = false → g.key ≠ (x.move old new).key := fun g hg haffected =>
      image_of_not haffected ▸ hfresh g hg
    have hland : ∀ f, Landed RecentFileEntry.key source old new (done ++ [x]) f e ↔ Landed RecentFileEntry.key source old new done f e :=
      fun f => landed_concat (.inl hx)
    simp only [hland, landed_iff_of_fresh hx hnew]
    constructor
    · rintro ((hf | hkept) | heq)
      · exact .inl (.inl hf)
      · exact .inr (.inl ⟨hkept, fun _ hkey => hnew e hkept.1 hkept.2.1 hkey.symm⟩)
      · exact .inl (.inr heq)
    · rintro ((hf | heq) | ⟨hkept, -⟩ | ⟨-, hx', -⟩)
      · exact .inl (.inl hf)
      · exact .inr heq
      · exact .inl (.inr hkept)
      · rw [hx] at hx'
        cases hx'
  · rw [image_of_not hx] at hfresh ⊢
    have hnew : ∀ f ∈ done, f.isPathAffectedBy source old = true → (f.move old new).key ≠ x.key := fun f hf haffected =>
      image_of haffected ▸ hfresh f hf
    have hland : ∀ f ∈ done, Landed RecentFileEntry.key source old new (done ++ [x]) f e ↔ Landed RecentFileEntry.key source old new done f e :=
      fun f hf => ⟨fun h => (landed_concat (.inr (hnew f hf h.1).symm)).1 h, fun h => (landed_concat (.inr (hnew f hf h.1).symm)).2 h⟩
    constructor
    · rintro ((⟨f, hf, hlanded⟩ | hkept) | rfl)
      · exact .inl (.inl ⟨f, hf, (hland f hf).2 hlanded⟩)
      · refine .inr (.inl ⟨hkept, fun hx' => ?_⟩)
        rw [hx] at hx'
        cases hx'
      · exact .inr (.inr ⟨rfl, hx, hnew⟩)
    · rintro ((⟨f, hf, hlanded⟩ | hlanded) | ⟨hkept, -⟩ | ⟨rfl, -, -⟩)
      · exact .inl (.inl ⟨f, hf, (hland f hf).1 hlanded⟩)
      · exact absurd hlanded.1 (ne_true_of_eq_false hx)
      · exact .inl (.inr hkept)
      · exact .inr rfl

/-- What is joined takes the place of what had its key: of one that is not renamed, or one that was renamed to it. -/
theorem mem_of_joined (h : Merged source old new done r) (hkeys : ((done ++ [x]).map RecentFileEntry.key).Nodup) {b : RecentFileEntry}
    (hb : b ∈ r.slots.next) (hkey : b.key = (image source old new x).key) (e : RecentFileEntry) :
    ((e ∈ r.slots.next ∧ e.key ≠ b.key) ∨
        e = { (if x.isPathAffectedBy source old then image source old new x else b) with openedAt := max b.openedAt x.openedAt }) ↔
      (∃ f ∈ done ++ [x], Landed RecentFileEntry.key source old new (done ++ [x]) f e) ∨
        Kept RecentFileEntry.key source old new (done ++ [x]) e := by
  have hmem : x ∈ done ++ [x] := List.mem_append_right _ List.mem_cons_self
  have hold : ∀ f ∈ done, f ∈ done ++ [x] := fun f hf => List.mem_append_left _ hf
  have hother : ∀ f ∈ done, f.key ≠ x.key := fun f hf heq => by
    rw [List.map_append, List.map_singleton, List.nodup_append] at hkeys
    exact hkeys.2.2 _ (List.mem_map_of_mem hf) _ List.mem_cons_self heq
  have hmoves : ∀ f ∈ done ++ [x], ∀ f' ∈ done ++ [x], f.isPathAffectedBy source old = true → f'.isPathAffectedBy source old = true →
      (f.move old new).key = (f'.move old new).key → f = f' := fun f hf f' hf' haffected haffected' heq =>
    eq_of_key hkeys hf hf' (key_of_move haffected haffected' heq)
  rw [kept_concat]
  simp only [h.mem, List.mem_append, List.mem_singleton, or_and_right, exists_or, exists_eq_left]
  rcases Bool.eq_false_or_eq_true (x.isPathAffectedBy source old) with hx | hx
  · rw [image_of hx] at hkey ⊢
    rw [if_pos hx]
    obtain ⟨hbdone, hbaffected, -⟩ : Kept RecentFileEntry.key source old new done b := by
      rcases (h.mem b).1 hb with ⟨f, hf, hlanded⟩ | hkept
      · have heq := hmoves f (hold f hf) x hmem hlanded.1 hx (hlanded.key.symm.trans hkey)
        exact absurd (congrArg RecentFileEntry.key heq) (hother f hf)
      · exact hkept
    have hjoined := landed_iff_of_joined (e := e) hx (hold b hbdone) hbaffected hkey fun g hg heq => eq_of_key hkeys hg (hold b hbdone) heq
    have hland : ∀ f, Landed RecentFileEntry.key source old new (done ++ [x]) f e ↔ Landed RecentFileEntry.key source old new done f e :=
      fun f => landed_concat (.inl hx)
    simp only [hland] at hjoined ⊢
    constructor
    · rintro ((⟨hf, -⟩ | ⟨hkept, hne⟩) | heq)
      · exact .inl (.inl hf)
      · exact .inr (.inl ⟨hkept, fun _ heq => hne (heq.symm.trans hkey.symm)⟩)
      · exact .inl (.inr (hjoined.2 heq))
    · rintro ((⟨f, hf, hlanded⟩ | hlanded) | ⟨hkept, hne⟩ | ⟨-, hx', -⟩)
      · refine .inl (.inl ⟨⟨f, hf, hlanded⟩, fun heq => ?_⟩)
        have hfx := hmoves f (hold f hf) x hmem hlanded.1 hx (hlanded.key.symm.trans (heq.trans hkey))
        exact hother f hf (congrArg RecentFileEntry.key hfx)
      · exact .inr (hjoined.1 hlanded)
      · exact .inl (.inr ⟨hkept, fun heq => hne hx (hkey.symm.trans heq.symm)⟩)
      · exact absurd hx (ne_true_of_eq_false hx')
  · rw [image_of_not hx] at hkey ⊢
    rw [if_neg (ne_true_of_eq_false hx)]
    obtain ⟨f₀, hf₀, hlanded₀⟩ : ∃ f ∈ done, Landed RecentFileEntry.key source old new done f b := by
      rcases (h.mem b).1 hb with hlanded | hkept
      · exact hlanded
      · exact absurd hkey (hother b hkept.1)
    have hkey₀ : (f₀.move old new).key = x.key := hlanded₀.key.symm.trans hkey
    have hb₀ : b = f₀.move old new :=
      (landed_iff_of_fresh hlanded₀.1 fun g hg _ heq => hother g hg (heq.trans hkey₀)).1 hlanded₀
    have hjoined := @landed_iff_of_joined _ _ _ _ new _ _ _ e hlanded₀.1 hmem hx hkey₀.symm fun g hg heq => eq_of_key hkeys hg hmem heq
    have hmoves₀ : ∀ f ∈ done, f.isPathAffectedBy source old = true → (f.move old new).key = x.key → f = f₀ := fun f hf haffected heq =>
      hmoves f (hold f hf) f₀ (hold f₀ hf₀) haffected hlanded₀.1 (heq.trans hkey₀.symm)
    have hland : ∀ f ∈ done, f ≠ f₀ → f.isPathAffectedBy source old = true →
        (Landed RecentFileEntry.key source old new (done ++ [x]) f e ↔ Landed RecentFileEntry.key source old new done f e) :=
      fun f hf hne haffected => landed_concat (.inr fun heq => hne (hmoves₀ f hf haffected heq.symm))
    have hc : { b with openedAt := max b.openedAt x.openedAt } = { f₀.move old new with openedAt := max x.openedAt f₀.openedAt } := by
      rw [hb₀, max_comm]
      rfl
    rw [hc]
    constructor
    · rintro ((⟨⟨f, hf, hlanded⟩, hne⟩ | ⟨hkept, -⟩) | heq)
      · have hne₀ : f ≠ f₀ := by
          rintro rfl
          exact hne (hlanded.key.trans (hkey₀.trans hkey.symm))
        exact .inl (.inl ⟨f, hf, (hland f hf hne₀ hlanded.1).2 hlanded⟩)
      · exact .inr (.inl ⟨hkept, fun hx' => absurd hx' (ne_true_of_eq_false hx)⟩)
      · exact .inl (.inl ⟨f₀, hf₀, hjoined.2 heq⟩)
    · rintro ((⟨f, hf, hlanded⟩ | hlanded) | ⟨hkept, -⟩ | ⟨rfl, -, hnone⟩)
      · by_cases hne₀ : f = f₀
        · subst hne₀
          exact .inr (hjoined.1 hlanded)
        · refine .inl (.inl ⟨⟨f, hf, (hland f hf hne₀ hlanded.1).1 hlanded⟩, fun heq => ?_⟩)
          exact hne₀ (hmoves₀ f hf hlanded.1 (hlanded.key.symm.trans (heq.trans hkey)))
      · exact absurd hlanded.1 (ne_true_of_eq_false hx)
      · exact .inl (.inr ⟨hkept, fun heq => hother e hkept.1 (heq.trans hkey)⟩)
      · exact absurd hkey₀ (hnone f₀ hf₀ hlanded₀.1)

theorem key_joined {b : RecentFileEntry} (h : b.key = (image source old new x).key) :
    (joined source old new x b).key = (image source old new x).key := by
  unfold joined
  split
  · rfl
  · exact h

theorem Merged.step (h : Merged source old new done r) (hkeys : ((done ++ [x]).map RecentFileEntry.key).Nodup)
    (hordered : (done ++ [x]).Pairwise fun f g => g.openedAt ≤ f.openedAt) : Merged source old new (done ++ [x]) (r.step source old new x) := by
  have hslots : (r.step source old new x).slots = r.slots.place RecentFileEntry.key (image source old new x) (joined source old new x) := rfl
  obtain ⟨hindexed, hcases⟩ := Slots.place_cases (a := image source old new x) h.indexed fun b _ => key_joined
  rw [← hslots] at hindexed hcases
  rcases hcases with ⟨hnone, hnext⟩ | ⟨before, b, behind, hsplit, hkey, hnext⟩
  · refine ⟨hindexed, ?_, fun e => ?_, fun hchanged => ?_⟩
    · rw [hnext, List.map_append, List.map_append, List.map_singleton, List.map_singleton, openedAt_image]
      exact h.times.append (List.Sublist.refl _)
    · rw [hnext, List.mem_append, List.mem_singleton]
      exact mem_of_pushed h hnone e
    · rw [Renaming.step, Bool.or_eq_false_iff, Bool.or_eq_false_iff] at hchanged
      rw [hnext, h.same hchanged.1.1, image_of_not hchanged.1.2]
  · have hb : b ∈ r.slots.next := hsplit ▸ List.mem_append_right _ List.mem_cons_self
    have hnewer : x.openedAt ≤ b.openedAt := by
      obtain ⟨f, hf, htime⟩ := List.mem_map.1 (h.times.subset (List.mem_map_of_mem hb))
      rw [← htime]
      exact (List.pairwise_append.1 hordered).2.2 f hf x List.mem_cons_self
    refine ⟨hindexed, ?_, fun e => ?_, fun hchanged => ?_⟩
    · have htimes : (joined source old new x b).openedAt = b.openedAt := max_eq_left ((openedAt_image source old new x).trans_le hnewer)
      have hsame : (r.step source old new x).slots.next.map RecentFileEntry.openedAt = r.slots.next.map RecentFileEntry.openedAt := by
        rw [hnext, hsplit, List.map_append, List.map_append, List.map_cons, List.map_cons, htimes]
      rw [hsame, List.map_append]
      exact h.times.trans (List.sublist_append_left _ _)
    · rw [hnext, Slots.mem_replace (hsplit ▸ h.indexed.nodup), ← hsplit, ← mem_of_joined h hkeys hb hkey e, joined, openedAt_image]
    · rw [Renaming.step, Bool.or_eq_false_iff] at hchanged
      obtain ⟨i, hi⟩ := List.mem_iff_getElem?.1 (List.mem_map_of_mem (f := RecentFileEntry.key) hb)
      rw [hkey] at hi
      have hindex := (h.indexed _ i).2 hi
      have hsome := hchanged.2
      rw [show (if x.isPathAffectedBy source old then x.move old new else x) = image source old new x from rfl, hindex] at hsome
      cases hsome

theorem merged_foldl (hkeys : (files.map RecentFileEntry.key).Nodup) (hordered : files.Pairwise fun f g => g.openedAt ≤ f.openedAt) :
    Merged source old new files (files.foldl (Renaming.step source old new) ⟨.empty, false⟩) := by
  induction files using List.reverseRecOn with
  | nil =>
    refine ⟨Slots.indexed_empty, .slnil, fun e => ⟨nofun, ?_⟩, fun _ => rfl⟩
    rintro (⟨f, hf, -⟩ | hkept)
    · exact absurd hf List.not_mem_nil
    · exact absurd hkept.1 List.not_mem_nil
  | append_singleton files x ih =>
    rw [List.foldl_concat]
    refine (ih ?_ ?_).step hkeys hordered
    · rw [List.map_append] at hkeys
      exact (List.nodup_append.1 hkeys).1
    · exact (List.pairwise_append.1 hordered).1

/-- What is renamed is in its new place, joined with what was there, and what is not renamed stays. -/
theorem mem_renamePath (hkeys : (files.map RecentFileEntry.key).Nodup) (hordered : files.Pairwise fun f g => g.openedAt ≤ f.openedAt)
    (e : RecentFileEntry) : e ∈ renamePath source old new files ↔
      (∃ f ∈ files, Landed RecentFileEntry.key source old new files f e) ∨ Kept RecentFileEntry.key source old new files e := by
  have hmerged := @merged_foldl source old new _ hkeys hordered
  rw [← hmerged.mem, renamePath]
  split
  · exact Iff.rfl
  · rename_i hchanged
    rw [hmerged.same (Bool.eq_false_of_not_eq_true hchanged)]

theorem renamePath_kept (hkeys : (files.map RecentFileEntry.key).Nodup) (hordered : files.Pairwise fun f g => g.openedAt ≤ f.openedAt) :
    ((renamePath source old new files).map RecentFileEntry.key).Nodup ∧
      ((renamePath source old new files).map RecentFileEntry.openedAt).Sublist (files.map RecentFileEntry.openedAt) := by
  have hmerged := @merged_foldl source old new _ hkeys hordered
  rw [renamePath]
  split
  · exact ⟨hmerged.indexed.nodup, hmerged.times⟩
  · exact ⟨hkeys, List.Sublist.refl _⟩

end Rename

end Purdex.Recent
