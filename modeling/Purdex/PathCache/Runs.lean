/-
Every run of the path cache: its scopes stay those of hosts and normalized directories, also over what was persisted, as long as nothing comes back
that had a working directory of another spelling.
-/
import Purdex.PathCache.Kept
import Mathlib.Algebra.Order.Ring.Cast
import Mathlib.Algebra.Order.Ring.Rat

namespace Purdex.PathCache

open Json Conc

variable {hostId cwd key basename path : String} {l : List PathCacheEntry} {persisted : Raw}

/-- A host's name, as the keys need it. -/
def HostId (hostId : String) : Prop := hostId ≠ "" ∧ scopeSep ∉ hostId.toList

instance (hostId : String) : Decidable (HostId hostId) := inferInstanceAs (Decidable (_ ∧ _))

/-- The key of a host's working directory in its normal form. -/
def ScopeOf (key : String) : Prop := ∃ hostId cwd, key = scopeKey hostId cwd ∧ HostId hostId ∧ normalizeCwd cwd = some cwd

theorem scopeOf_scopeKey (hhost : HostId hostId) {raw : String} (hcwd : normalizeCwd raw = some cwd) : ScopeOf (scopeKey hostId cwd) :=
  ⟨hostId, cwd, rfl, hhost, normalizeCwd_idem hcwd⟩

theorem ScopeOf.parse (h : ScopeOf key) : ∃ p, parseScopeKey key = some p ∧ normalizeCwd p.2 = some p.2 := by
  obtain ⟨hostId, cwd, rfl, hhost, hcwd⟩ := h
  exact ⟨(hostId, cwd), parseScopeKey_scopeKey hhost.1 hhost.2 (ne_empty_of_normalizeCwd hcwd), hcwd⟩

/-- The keys that are told apart, with a working directory in its normal form. -/
theorem scopeOf_iff : ScopeOf key ↔ ∃ p, parseScopeKey key = some p ∧ normalizeCwd p.2 = some p.2 := by
  refine ⟨ScopeOf.parse, ?_⟩
  rintro ⟨⟨hostId, cwd⟩, hparse, hcwd⟩
  obtain ⟨hkey, hne, hsep, -⟩ := scopeKey_of_parse hparse
  exact ⟨hostId, cwd, hkey, ⟨hne, hsep⟩, hcwd⟩

namespace Scopes

variable {s t : Scopes}

/-! ## What is kept -/

structure Good (s : Scopes) : Prop where
  once : (s.map Prod.fst).Nodup
  scopes : ∀ p ∈ s, ScopeOf p.1
  filled : ∀ p ∈ s, p.2 ≠ []
  tidy : ∀ p ∈ s, Tidy p.2

theorem Good.nil : Good [] where
  once := List.nodup_nil
  scopes := fun _ h => absurd h List.not_mem_nil
  filled := fun _ h => absurd h List.not_mem_nil
  tidy := fun _ h => absurd h List.not_mem_nil

theorem Good.tidy_lookup (h : Good s) (hl : s.lookup key = some l) : Tidy l := h.tidy _ (mem_of_lookup hl)

theorem Good.tidy_listAt (h : Good s) (key : String) : Tidy (s.listAt key) := by
  unfold listAt
  cases hl : s.lookup key with
  | none => exact .nil
  | some l => exact h.tidy_lookup hl

theorem Good.put (h : Good s) (hkey : ScopeOf key) (hsome : l ≠ []) (htidy : Tidy l) : Good (Fields.put key l s) := by
  have hall : ∀ {P : String × List PathCacheEntry → Prop}, P (key, l) → (∀ p ∈ s, P p) → ∀ p ∈ Fields.put key l s, P p := by
    intro P hnew hold p hp
    rcases Fields.mem_put hp with rfl | hp
    · exact hnew
    · exact hold p hp
  exact ⟨Fields.nodup_put h.once key l, hall hkey h.scopes, hall hsome h.filled, hall htidy h.tidy⟩

theorem Good.filter (h : Good s) (p : String × List PathCacheEntry → Bool) : Good (s.filter p) where
  once := (List.filter_sublist.map _).nodup h.once
  scopes := fun q hq => h.scopes q (List.mem_of_mem_filter hq)
  filled := fun q hq => h.filled q (List.mem_of_mem_filter hq)
  tidy := fun q hq => h.tidy q (List.mem_of_mem_filter hq)

theorem isFinite_time (now : TimeValue) : isFinite (now.1 : ℚ) = true := by
  obtain ⟨ms, hearly, hlate⟩ := now
  have hlow : -(2 ^ 1024 - 2 ^ 970) < (-8640000000000000 : ℚ) := by decide +kernel
  have hhigh : (8640000000000000 : ℚ) < 2 ^ 1024 - 2 ^ 970 := by decide +kernel
  have hearly' : (-8640000000000000 : ℚ) ≤ ms := by simpa using (@Int.cast_le ℚ).2 hearly
  have hlate' : (ms : ℚ) ≤ 8640000000000000 := by simpa using (@Int.cast_le ℚ).2 hlate
  unfold isFinite
  rw [Bool.and_eq_true, decide_eq_true_eq, decide_eq_true_eq]
  exact ⟨lt_of_lt_of_le hlow hearly', lt_of_le_of_lt hlate' hhigh⟩

theorem Good.add (h : Good s) (hhost : HostId hostId) (cwd sessionCode dir : String) (now : TimeValue) : Good (s.add hostId cwd sessionCode dir now) := by
  unfold Scopes.add
  split
  · rename_i hcwd hdir
    refine h.put (scopeOf_scopeKey hhost hcwd) (upsertEntry_ne_nil _ _) ?_
    cases hl : s.lookup (scopeKey hostId _) with
    | none => exact tidy_upsertEntry .nil (normalizeDir_idem hdir) (isFinite_time now)
    | some l => exact tidy_upsertEntry (h.tidy_lookup hl) (normalizeDir_idem hdir) (isFinite_time now)
  · exact h

theorem Good.pruneStaleCandidate (h : Good s) (hostId cwd candidatePath : String) : Good (s.pruneStaleCandidate hostId cwd candidatePath) := by
  unfold Scopes.pruneStaleCandidate
  split
  · exact h
  · simp only
    split
    · rename_i existing dir hexisting _
      split
      · exact h
      · split
        · exact h.filter _
        · rename_i hsome
          exact h.put (h.scopes _ (mem_of_lookup hexisting)) (fun hnil => hsome (List.length_eq_zero_iff.2 hnil))
            ((h.tidy_lookup hexisting).sublist List.filter_sublist)
    · exact h

theorem Good.clearScope (h : Good s) (hostId cwd : String) : Good (s.clearScope hostId cwd) := by
  unfold Scopes.clearScope
  split
  · exact h
  · simp only
    split
    · exact h
    · exact h.filter _

/-- What is left of a field when a host loses a session. -/
def withoutSession (hostId sessionCode : String) (p : String × List PathCacheEntry) : Option (String × List PathCacheEntry) :=
  if ¬IsOf hostId p.1 then some p
  else if 0 < (p.2.filter (·.sessionCode ≠ sessionCode)).length then some (p.1, p.2.filter (·.sessionCode ≠ sessionCode)) else none

theorem clearBySession_eq (s : Scopes) (hostId sessionCode : String) :
    s.clearBySession hostId sessionCode = s ∨ s.clearBySession hostId sessionCode = s.filterMap (withoutSession hostId sessionCode) := by
  unfold clearBySession
  simp only
  split
  · exact .inr rfl
  · exact .inl rfl

theorem withoutSession_some {sessionCode : String} {p q : String × List PathCacheEntry} (h : withoutSession hostId sessionCode p = some q) :
    q.1 = p.1 ∧ q.2.Sublist p.2 ∧ (p.2 ≠ [] → q.2 ≠ []) := by
  unfold withoutSession at h
  split at h
  · cases h
    exact ⟨rfl, List.Sublist.refl _, id⟩
  · split at h
    · rename_i hsome
      cases h
      exact ⟨rfl, List.filter_sublist, fun _ => List.ne_nil_of_length_pos hsome⟩
    · cases h

theorem Good.clearBySession (h : Good s) (hostId sessionCode : String) : Good (s.clearBySession hostId sessionCode) := by
  rcases clearBySession_eq s hostId sessionCode with heq | heq
  · rw [heq]
    exact h
  · have hmem : ∀ q ∈ s.filterMap (withoutSession hostId sessionCode), ∃ p ∈ s, q.1 = p.1 ∧ q.2.Sublist p.2 ∧ (p.2 ≠ [] → q.2 ≠ []) := by
      intro q hq
      obtain ⟨p, hp, hpq⟩ := List.mem_filterMap.1 hq
      exact ⟨p, hp, withoutSession_some hpq⟩
    rw [heq]
    refine ⟨(Fields.keys_filterMap (fun _ _ hpq => (withoutSession_some hpq).1) s).nodup h.once, fun q hq => ?_, fun q hq => ?_, fun q hq => ?_⟩
    · obtain ⟨p, hp, hkey, -⟩ := hmem q hq
      exact hkey ▸ h.scopes p hp
    · obtain ⟨p, hp, -, -, hsome⟩ := hmem q hq
      exact hsome (h.filled p hp)
    · obtain ⟨p, hp, -, hsub, -⟩ := hmem q hq
      exact (h.tidy p hp).sublist hsub

theorem Good.clearHost (h : Good s) (hostId : String) : Good (s.clearHost hostId) := by
  unfold Scopes.clearHost
  simp only
  split
  · exact h.filter _
  · exact h

/-! ## What comes back -/

/-- Where a scope with an entry comes back, its working directory is in its normal form. -/
def ScopesNormal (entriesByScope : Raw) : Prop :=
  ∀ fields, entriesByScope = .obj fields → ∀ p ∈ fields, HasEntry p.2 → ∀ hostId cwd, parseScopeKey p.1 = some (hostId, cwd) → normalizeCwd cwd = some cwd

theorem keepClean_eq (cleaned : Scopes) (field : String × Raw) : keepClean cleaned field =
    if parseScopeKey field.1 ≠ none ∧ sanitizeEntries field.2 ≠ [] then Fields.put field.1 (sanitizeEntries field.2) cleaned else cleaned := by
  unfold keepClean
  split
  · rename_i hparse
    exact (if_neg fun h => h.1 hparse).symm
  · rename_i hparse
    split
    · rename_i hsome
      exact (if_pos ⟨hparse, List.ne_nil_of_length_pos hsome⟩).symm
    · rename_i hnone
      exact (if_neg fun h => hnone (List.length_pos_of_ne_nil h.2)).symm

theorem good_foldl_keepClean {fields : List (String × Raw)} (h : Good s)
    (hfields : ∀ p ∈ fields, HasEntry p.2 → ∀ hostId cwd, parseScopeKey p.1 = some (hostId, cwd) → normalizeCwd cwd = some cwd) :
    Good (fields.foldl keepClean s) := by
  induction fields generalizing s with
  | nil => exact h
  | cons field fields ih =>
    obtain ⟨hfield, hrest⟩ := List.forall_mem_cons.1 hfields
    refine ih ?_ hrest
    rw [keepClean_eq]
    split
    · rename_i hkept
      obtain ⟨⟨hostId, cwd⟩, hparse⟩ := Option.ne_none_iff_exists'.1 hkept.1
      have hcwd := hfield (sanitizeEntries_ne_nil.1 hkept.2) hostId cwd hparse
      exact h.put (scopeOf_iff.2 ⟨_, hparse, hcwd⟩) hkept.2 (tidy_sanitizeEntries _)
    · exact h

/-- A key that is there once is there to the end of the loop. -/
theorem keys_foldl_keepClean (fields : List (String × Raw)) (s : Scopes) : s.map Prod.fst ⊆ (fields.foldl keepClean s).map Prod.fst := by
  induction fields generalizing s with
  | nil => exact List.Subset.refl _
  | cons field fields ih =>
    refine List.Subset.trans (fun k hk => ?_) (ih _)
    rw [keepClean_eq]
    split
    · rw [Fields.keys_put]
      split
      · exact hk
      · exact List.mem_append_left _ hk
    · exact hk

theorem key_foldl_keepClean {fields : List (String × Raw)} {field : String × Raw} (hmem : field ∈ fields) (hparse : parseScopeKey field.1 ≠ none)
    (hentry : HasEntry field.2) (s : Scopes) : field.1 ∈ (fields.foldl keepClean s).map Prod.fst := by
  obtain ⟨before, after, rfl⟩ := List.append_of_mem hmem
  rw [List.foldl_append, List.foldl_cons]
  refine keys_foldl_keepClean after _ ?_
  rw [keepClean_eq, if_pos ⟨hparse, sanitizeEntries_ne_nil.2 hentry⟩]
  exact lookup_isSome.1 (by rw [Fields.lookup_put, if_pos rfl]; rfl)

/-- Exactly then does what comes back keep what every scope keeps. -/
theorem good_rehydrate_iff : Good (s.rehydrate persisted) ↔ ScopesNormal (s.merged persisted) := by
  have hrest : ∀ {v : Raw}, (∀ fields, v ≠ .obj fields) → (Good (sanitizeRehydratedPathCache (some v) false) ↔ ScopesNormal v) := by
    intro v hv
    refine iff_of_true ?_ fun fields heq => absurd heq (hv fields)
    cases v with
    | obj fields => exact absurd rfl (hv fields)
    | _ => exact .nil
  unfold rehydrate
  cases hv : s.merged persisted with
  | obj fields =>
    constructor
    · intro h _ heq p hp hentry hostId cwd hparse
      cases heq
      have hkey := key_foldl_keepClean hp (fun hnone => nomatch hnone.symm.trans hparse) hentry []
      obtain ⟨q, hq, hqp⟩ := List.mem_map.1 hkey
      obtain ⟨r, hr, hcwd⟩ := (h.scopes q hq).parse
      rw [hqp] at hr
      rw [hparse] at hr
      cases hr
      exact hcwd
    · exact fun h => good_foldl_keepClean .nil (h fields rfl)
  | _ => exact hrest fun _ heq => nomatch heq

/-- What was persisted comes back as it was. -/
theorem Good.rehydrate_persisted (h : Good s) (t : Scopes) : t.rehydrate s.persisted = s := by
  have hkept : ∀ {l cleaned : Scopes}, Good (cleaned ++ l) →
      (l.map fun p => (p.1, Raw.arr (p.2.map rawEntry))).foldl keepClean cleaned = cleaned ++ l := by
    intro l
    induction l with
    | nil => exact fun _ => (List.append_nil _).symm
    | cons p l ih =>
      intro cleaned h
      have hmem : p ∈ cleaned ++ p :: l := List.mem_append_right _ List.mem_cons_self
      obtain ⟨q, hparse, -⟩ := (h.scopes p hmem).parse
      have hlist : sanitizeEntries (.arr (p.2.map rawEntry)) = p.2 := sanitizeEntries_rawEntry (h.tidy p hmem)
      have hnew : p.1 ∉ cleaned.map Prod.fst := by
        have honce := h.once
        rw [List.map_append, List.nodup_append] at honce
        exact fun hkey => honce.2.2 p.1 hkey p.1 (List.mem_map_of_mem List.mem_cons_self) rfl
      have hstep : keepClean cleaned (p.1, .arr (p.2.map rawEntry)) = cleaned ++ [p] := by
        rw [keepClean_eq]
        rw [hlist, if_pos ⟨fun hnone => absurd (hnone.symm.trans hparse) nofun, h.filled p hmem⟩, Fields.put_of_new hnew]
      rw [List.map_cons, List.foldl_cons, hstep]
      have hrest : cleaned ++ p :: l = (cleaned ++ [p]) ++ l := by rw [List.append_assoc, List.singleton_append]
      rw [hrest] at h ⊢
      exact ih h
  exact @hkept s [] h

/-! ## What is pruned and cleared -/

theorem listAt_of_some (h : s.lookup key = some l) : s.listAt key = l := by rw [listAt, h, Option.getD_some]

theorem listAt_put (k : String) (l : List PathCacheEntry) (s : Scopes) (key : String) :
    listAt (Fields.put k l s) key = if k = key then l else s.listAt key := by
  unfold listAt
  rw [Fields.lookup_put]
  split
  · rfl
  · rfl

theorem listAt_without (s : Scopes) (k key : String) : (s.without k).listAt key = if k = key then [] else s.listAt key := by
  unfold listAt without
  split
  · rename_i heq
    subst heq
    rw [Fields.lookup_eq_none_of_keys (by simp), Option.getD_none]
  · rename_i hne
    rw [Fields.lookup_filter_ne (Ne.symm hne)]

/-- From the list of the scope goes what has the directory of the candidate. -/
theorem listAt_pruneStaleCandidate {cwdNorm dir : String} (hcwd : normalizeCwd cwd = some cwdNorm) (hdir : normalizeDir (dirname path) = some dir)
    (key : String) : (s.pruneStaleCandidate hostId cwd path).listAt key =
      if scopeKey hostId cwdNorm = key then (s.listAt key).filter (·.dir ≠ dir) else s.listAt key := by
  unfold Scopes.pruneStaleCandidate
  rw [hcwd, hdir]
  simp only
  cases hl : s.lookup (scopeKey hostId cwdNorm) with
  | none =>
    have hnil : s.listAt (scopeKey hostId cwdNorm) = [] := by rw [listAt, hl, Option.getD_none]
    simp only
    split
    · rename_i heq
      rw [← heq, hnil, List.filter_nil]
    · rfl
  | some existing =>
    have hat := listAt_of_some hl
    simp only
    split
    · rename_i hsame
      split
      · rename_i heq
        rw [← heq, hat, List.filter_sublist.eq_of_length hsame]
      · rfl
    · split
      · rename_i hnil
        rw [listAt_without]
        split
        · rename_i heq
          rw [← heq, hat, List.length_eq_zero_iff.1 hnil]
        · rfl
      · rw [listAt_put]
        split
        · rename_i heq
          rw [← heq, hat]
        · rfl

theorem lookup_clearHost (h : ¬IsOf hostId key) : (s.clearHost hostId).lookup key = s.lookup key := by
  unfold Scopes.clearHost
  simp only
  split
  · rw [← List.filterMap_eq_filter]
    refine Fields.lookup_filterMap (fun p q hpq => ?_) (fun a => ?_) s
    · rw [(Option.guard_eq_some_iff.1 hpq).1]
    · exact Option.guard_eq_some_iff.2 ⟨rfl, decide_eq_true h⟩
  · rfl

theorem lookup_clearBySession (h : ¬IsOf hostId key) (sessionCode : String) : (s.clearBySession hostId sessionCode).lookup key = s.lookup key := by
  rcases clearBySession_eq s hostId sessionCode with heq | heq
  · rw [heq]
  · rw [heq]
    exact Fields.lookup_filterMap (fun _ _ hpq => (withoutSession_some hpq).1) (fun a => if_pos h) s

theorem not_isOf {other : String} (hother : HostId other) (hcwd : normalizeCwd cwd = some cwd) (hne : hostId ≠ other) :
    ¬IsOf hostId (scopeKey other cwd) := by
  unfold IsOf
  rw [parseScopeKey_scopeKey hother.1 hother.2 (ne_empty_of_normalizeCwd hcwd)]
  exact fun h => hne (Option.some.inj h).symm

/-! ## What is looked up -/

theorem Good.absolute (h : Good s) {e : PathCacheEntry} (he : e ∈ s.listAt key) : ∃ t, e.dir.toList = '/' :: t :=
  (normal_of_normalizeDir ((h.tidy_listAt key).normal e he)).absolute

theorem lookupCandidates_eq {cwdNorm : String} (hcwd : normalizeCwd cwd = some cwdNorm) (hostId basename : String) (currentSessionCode : Option String) :
    s.lookupCandidates hostId cwd basename currentSessionCode =
      (rankCandidates (s.listAt (scopeKey hostId cwdNorm)) currentSessionCode).map fun e => candidate basename e.dir := by
  rw [lookupCandidates, hcwd]

theorem mem_lookupCandidates {currentSessionCode : Option String} (h : path ∈ s.lookupCandidates hostId cwd basename currentSessionCode) :
    ∃ cwdNorm, normalizeCwd cwd = some cwdNorm ∧ ∃ e ∈ s.listAt (scopeKey hostId cwdNorm), candidate basename e.dir = path := by
  cases hcwd : normalizeCwd cwd with
  | none =>
    rw [lookupCandidates, hcwd] at h
    exact absurd h List.not_mem_nil
  | some cwdNorm =>
    rw [lookupCandidates_eq hcwd] at h
    obtain ⟨e, he, hpath⟩ := List.mem_map.1 h
    exact ⟨cwdNorm, rfl, e, (rankCandidates_perm _ _).mem_iff.1 he, hpath⟩

/-- One path for each directory, and not the same for two. -/
theorem Good.nodup_lookupCandidates (h : Good s) (hostId cwd basename : String) (currentSessionCode : Option String) :
    (s.lookupCandidates hostId cwd basename currentSessionCode).Nodup := by
  cases hcwd : normalizeCwd cwd with
  | none =>
    rw [lookupCandidates, hcwd]
    exact List.nodup_nil
  | some cwdNorm =>
    have hperm := rankCandidates_perm (s.listAt (scopeKey hostId cwdNorm)) currentSessionCode
    have honce := (hperm.map (·.dir)).nodup_iff.2 (h.tidy_listAt _).once
    rw [lookupCandidates_eq hcwd, List.Nodup, List.pairwise_map]
    rw [List.Nodup, List.pairwise_map] at honce
    exact honce.imp_of_mem fun ha hb hne heq =>
      hne (candidate_injective basename (h.absolute (hperm.mem_iff.1 ha)) (h.absolute (hperm.mem_iff.1 hb)) heq)

theorem Good.listAt_pruned (h : Good s) {currentSessionCode : Option String} (hname : '/' ∉ basename.toList)
    (hpath : path ∈ s.lookupCandidates hostId cwd basename currentSessionCode) : ∃ cwdNorm, normalizeCwd cwd = some cwdNorm ∧
      ∀ key, (s.pruneStaleCandidate hostId cwd path).listAt key =
        if scopeKey hostId cwdNorm = key then (s.listAt key).filter (candidate basename ·.dir ≠ path) else s.listAt key := by
  obtain ⟨cwdNorm, hcwd, e, he, rfl⟩ := mem_lookupCandidates hpath
  have hdir : normalizeDir (dirname (candidate basename e.dir)) = some e.dir := by
    rw [dirname_candidate (h.absolute he) hname]
    exact (h.tidy_listAt _).normal e he
  refine ⟨cwdNorm, hcwd, fun key => ?_⟩
  rw [listAt_pruneStaleCandidate hcwd hdir]
  split
  · refine List.filter_congr fun e' he' => decide_eq_decide.2 (not_congr ⟨fun heq => heq ▸ rfl, fun heq => ?_⟩)
    exact candidate_injective basename (h.absolute he') (h.absolute he) heq
  · rfl

/-! ## Runs -/

/-- The names of hosts are such names. -/
def Hosts : Move → Prop
  | .add hostId _ _ _ _ => HostId hostId
  | .pruneStaleCandidate hostId _ _ => HostId hostId
  | .clearScope hostId _ => HostId hostId
  | .clearBySession hostId _ => HostId hostId
  | .clearHost hostId => HostId hostId
  | _ => True

instance (m : Move) : Decidable (Hosts m) := by
  cases m with
  | rehydrate | reload => exact isTrue trivial
  | _ => exact inferInstanceAs (Decidable (HostId _))

/-- And what comes back has working directories in their normal form. -/
def Allowed (s : Scopes) (m : Move) : Prop := Hosts m ∧ ∀ persisted, m = .rehydrate persisted → ScopesNormal (s.merged persisted)

theorem Good.step {m : Move} {s' : Scopes} (h : Good s) (hok : Allowed s m) (hstep : step m s = some s') : Good s' := by
  cases m with
  | add hostId cwd sessionCode dir now => exact Option.some.inj hstep ▸ h.add hok.1 cwd sessionCode dir now
  | pruneStaleCandidate hostId cwd path => exact Option.some.inj hstep ▸ h.pruneStaleCandidate hostId cwd path
  | clearScope hostId cwd => exact Option.some.inj hstep ▸ h.clearScope hostId cwd
  | clearBySession hostId sessionCode => exact Option.some.inj hstep ▸ h.clearBySession hostId sessionCode
  | clearHost hostId => exact Option.some.inj hstep ▸ h.clearHost hostId
  | rehydrate persisted => exact Option.some.inj hstep ▸ good_rehydrate_iff.2 (hok.2 persisted rfl)
  | reload =>
    rw [← Option.some.inj hstep, h.rehydrate_persisted]
    exact h

theorem good_of_reach (h : Reach step [] Allowed s) : Good s := h.invariant .nil fun _ _ _ _ hgood hok hstep => hgood.step hok hstep

/-- After any run in which nothing comes back under another spelling of a working directory. -/
theorem cache_kept (h : Reach step [] Allowed s) :
    Good s ∧ (∀ t, rehydrate t s.persisted = s) ∧ (∀ persisted, Good (s.rehydrate persisted) ↔ ScopesNormal (s.merged persisted)) ∧
      (∀ hostId cwd basename currentSessionCode path, '/' ∉ basename.toList → path ∈ s.lookupCandidates hostId cwd basename currentSessionCode →
        ∃ cwdNorm, normalizeCwd cwd = some cwdNorm ∧ ∀ key, (s.pruneStaleCandidate hostId cwd path).listAt key =
          if scopeKey hostId cwdNorm = key then (s.listAt key).filter (candidate basename ·.dir ≠ path) else s.listAt key) ∧
      (∀ hostId other cwd, hostId ≠ other → HostId other → normalizeCwd cwd = some cwd →
        (s.clearHost hostId).lookup (scopeKey other cwd) = s.lookup (scopeKey other cwd) ∧
          ∀ sessionCode, (s.clearBySession hostId sessionCode).lookup (scopeKey other cwd) = s.lookup (scopeKey other cwd)) ∧
      ∀ hostId cwd cwdNorm basename currentSessionCode, normalizeCwd cwd = some cwdNorm →
        (s.lookupCandidates hostId cwd basename currentSessionCode).Nodup ∧ ∃ ranked : List PathCacheEntry, ranked.Perm (s.listAt (scopeKey hostId cwdNorm)) ∧
          ranked.Pairwise (Before currentSessionCode) ∧
          s.lookupCandidates hostId cwd basename currentSessionCode = ranked.map fun e => candidate basename e.dir := by
  have hgood := good_of_reach h
  refine ⟨hgood, hgood.rehydrate_persisted, fun _ => good_rehydrate_iff, fun _ _ _ _ _ hname hpath => hgood.listAt_pruned hname hpath,
    fun hostId other cwd hne hother hcwd => ?_, fun hostId cwd cwdNorm basename currentSessionCode hcwd => ?_⟩
  · have hnot := not_isOf hother hcwd hne
    exact ⟨lookup_clearHost hnot, lookup_clearBySession hnot⟩
  · exact ⟨hgood.nodup_lookupCandidates _ _ _ _, rankCandidates (s.listAt (scopeKey hostId cwdNorm)) currentSessionCode, rankCandidates_perm _ _,
      pairwise_rankCandidates _ _, lookupCandidates_eq hcwd _ _ _⟩

/-- One scope of one entry, as it is persisted. -/
def persistedAt (key : String) : Raw := .obj [("entriesByScope", .obj [(key, .arr [.obj [("dir", .str "/a/")]])])]

/-- What came back, and a directory next to it. -/
def addedAfter : Scopes := (rehydrate [] (persistedAt "h\x00/w")).add "h" "/w/" "s" "/a/../b" ⟨5, by decide⟩

theorem cache_kept_added : Good addedAfter ∧ addedAfter = [("h\x00/w", [⟨"/b", "s", 5⟩, ⟨"/a", "", 0⟩])] := by
  have hnormal : ScopesNormal (merged [] (persistedAt "h\x00/w")) := by
    rintro fields heq p hp - hostId cwd hparse
    cases heq
    cases List.mem_singleton.1 hp
    have hw : parseScopeKey "h\x00/w" = some ("h", "/w") := by decide
    cases hw.symm.trans hparse
    decide
  have hcomes : Allowed [] (.rehydrate (persistedAt "h\x00/w")) := ⟨trivial, fun _ heq => Move.rehydrate.inj heq ▸ hnormal⟩
  have hadd : ∀ s, Allowed s (.add "h" "/w/" "s" "/a/../b" ⟨5, by decide⟩) := fun s => ⟨by decide, nofun⟩
  have hruns : Reach step [] Allowed addedAfter := (Reach.init.step hcomes rfl).step (hadd _) rfl
  exact ⟨(cache_kept hruns).1, by decide⟩

/-- A key with a slash at its end is let in, and no working directory leads to its list. -/
theorem cache_tampered : ¬∀ s, Reach step [] (fun _ m => Hosts m) s → ∀ persisted, Good (s.rehydrate persisted) := by
  intro h
  have hnormal := good_rehydrate_iff.1 (h [] .init (persistedAt "h\x00/w/"))
  have hparse : parseScopeKey "h\x00/w/" = some ("h", "/w/") := by decide
  have hentry : HasEntry (.arr [.obj [("dir", .str "/a/")]]) := ⟨_, rfl, _, List.mem_cons_self, by decide⟩
  exact absurd (hnormal _ rfl _ List.mem_cons_self hentry "h" "/w/" hparse) (by decide)

end Scopes

end Purdex.PathCache
