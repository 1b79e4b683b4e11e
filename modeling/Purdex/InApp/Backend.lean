/-
The mutations of the In-App storage: each is one transaction, which counts the revision up when it is committed and leaves the database
alone when it is not.
-/
import Purdex.InApp.Tree
import Purdex.Conc.Transaction

namespace Purdex.InApp

open Conc Utf16

/-! ## Mutations -/

inductive OpError where
  | notFound (path : Units)
  | targetExists (path : Units)
  | constraint (path : Units)
  | replace (e : ReplaceError)
  deriving Repr, DecidableEq

/-- `p` itself or something below it. -/
def Within (p path : Units) : Prop := path = p ∨ p ++ [slash] <+: path

instance (p path : Units) : Decidable (Within p path) := inferInstanceAs (Decidable (_ ∨ _))

/-- The paths above `path` from the root on. -/
def dirPaths (path : Units) : List Units :=
  (List.range' 1 ((path.splitOn slash).length - 2)).map fun i => [slash].intercalate ((path.splitOn slash).take (i + 1))

def makeDir (now : Int) (files : List StoredFile) (dirPath : Units) : List StoredFile :=
  if (get files dirPath).isSome then files else put files ⟨dirPath, [], true, now⟩

/-- Directories that are missing are made; what is above the path is not looked at for its kind. -/
def write (now : Int) (path : Units) (content : List UInt8) (files : List StoredFile) : List StoredFile :=
  put ((dirPaths path).foldl (makeDir now) files) ⟨path, content, false, now⟩

/-- Whatever is under the path is overwritten. -/
def mkdir (now : Int) (path : Units) (files : List StoredFile) : List StoredFile := put files ⟨path, [], true, now⟩

def delete (path : Units) (files : List StoredFile) : List StoredFile :=
  (files.filter (·.path ≠ path)).filter fun r => ¬withSlash path <+: r.path

/-- One record gets its new key; its content and its time stay. -/
def rekey (src dst : Units) (files : List StoredFile) (key : Units) : List StoredFile :=
  match get files key with
  | none => files
  | some entry => (put files { entry with path := dst ++ key.drop src.length }).filter (·.path ≠ key)

def rename (src dst : Units) (files : List StoredFile) : Except OpError (List StoredFile) :=
  let allKeys := files.map (·.path)
  let sourceKeys := allKeys.filter fun k => Within src k
  if sourceKeys = [] then .error (.notFound src)
  else if ∃ k ∈ allKeys, Within dst k then .error (.targetExists dst)
  else .ok (sourceKeys.foldl (rekey src dst) files)

/-- `store.add`: unlike `put`, it fails where the key is taken. -/
def add (r : StoredFile) (files : List StoredFile) : Except OpError (List StoredFile) :=
  if (get files r.path).isSome then .error (.constraint r.path) else .ok (put files r)

inductive Op where
  | write (path : Units) (content : List UInt8)
  | mkdir (path : Units)
  | delete (path : Units)
  | rename (src dst : Units)
  /-- A file with its bytes, or a directory. -/
  | add (path : Units) (content : Option (List UInt8))
  | replaceTree (entries : List ReplaceEntry) (expectedRevision : Option Int)
  deriving Repr, DecidableEq

/-- A call with the time it reads. -/
structure Call where
  now : Int
  op : Op
  deriving Repr, DecidableEq

def bumpRevision (db : Database) (files : List StoredFile) : Database := ⟨files, db.revision + 1⟩

def Call.apply (c : Call) (db : Database) : Except OpError Database :=
  match c.op with
  | .write path content => .ok (bumpRevision db (write c.now path content db.files))
  | .mkdir path => .ok (bumpRevision db (mkdir c.now path db.files))
  | .delete path => .ok (bumpRevision db (delete path db.files))
  | .rename src dst => (rename src dst db.files).map (bumpRevision db)
  | .add path content => (add ⟨path, content.getD [], content.isNone, c.now⟩ db.files).map (bumpRevision db)
  | .replaceTree entries expectedRevision => (replaceTree c.now storageRoot entries expectedRevision db).mapError OpError.replace

/-- A transaction that fails is rolled back. -/
def next (db : Database) (c : Call) : Database :=
  match c.apply db with
  | .ok db' => db'
  | .error _ => db

/-! ## Records by path -/

section Get

variable {files : List StoredFile} {r d : StoredFile} {p q src dst : Units} {now : Int}

theorem path_of_get (h : get files p = some r) : r.path = p := by simpa using List.find?_some h

theorem mem_of_get (h : get files p = some r) : r ∈ files := List.mem_of_find?_eq_some h

theorem get_of_mem (hkeys : (files.map (·.path)).Nodup) (hr : r ∈ files) : get files r.path = some r := by
  cases hget : get files r.path with
  | none => exact absurd rfl (of_decide_eq_false (Bool.eq_false_iff.2 (List.find?_eq_none.1 hget r hr)))
  | some d => rw [List.inj_on_of_nodup_map hkeys (mem_of_get hget) hr (path_of_get hget)]

theorem get_filter (keep : Units → Bool) : get (files.filter fun r => keep r.path) p = if keep p then get files p else none := by
  induction files with
  | nil => simp [get]
  | cons r rest ih =>
    simp only [get] at ih ⊢
    rw [List.filter_cons]
    by_cases hp : r.path = p
    · subst hp
      cases hkeep : keep r.path <;> simp_all
    · cases hkeep : keep r.path <;> simp_all

theorem get_put : get (put files r) p = if r.path = p then some r else get files p := by
  have hfilter := @get_filter files p fun q => q ≠ r.path
  simp only [get] at hfilter
  rw [put, get, List.find?_append, hfilter]
  by_cases hp : r.path = p
  · simp [hp]
  · simp [hp, Ne.symm hp, get]

theorem nodup_put (h : (files.map (·.path)).Nodup) : ((put files r).map (·.path)).Nodup := by
  rw [put, List.map_append, List.map_singleton, List.nodup_append]
  refine ⟨h.sublist (List.filter_sublist.map _), List.nodup_singleton _, ?_⟩
  rintro p hp q hq rfl
  obtain ⟨d, hd, rfl⟩ := List.mem_map.1 hp
  exact of_decide_eq_true (List.mem_filter.1 hd).2 (List.mem_singleton.1 hq)

theorem get_makeDir : get (makeDir now files q) p = if q = p ∧ get files p = none then some ⟨p, [], true, now⟩ else get files p := by
  unfold makeDir
  split
  · rename_i hsome
    rw [if_neg]
    rintro ⟨rfl, hnone⟩
    simp [hnone] at hsome
  · rename_i hnone
    rw [get_put]
    by_cases hp : q = p
    · subst hp
      rw [if_pos rfl, if_pos ⟨rfl, by simpa using hnone⟩]
    · rw [if_neg hp, if_neg fun h => hp h.1]

/-- Of the directories that are made, each is made where nothing was. -/
theorem get_foldl_makeDir : ∀ {dirs : List Units} {files : List StoredFile},
    get (dirs.foldl (makeDir now) files) p = if p ∈ dirs ∧ get files p = none then some ⟨p, [], true, now⟩ else get files p
  | [], files => by simp
  | q :: dirs, files => by
    rw [List.foldl_cons, get_foldl_makeDir, get_makeDir]
    by_cases hp : q = p
    · cases hget : get files p <;> simp [hp]
    · cases hget : get files p <;> simp [hp, Ne.symm hp]

theorem get_write {content : List UInt8} : get (write now p content files) q =
    if p = q then some ⟨p, content, false, now⟩
    else if q ∈ dirPaths p ∧ get files q = none then some ⟨q, [], true, now⟩ else get files q := by
  rw [write, get_put, get_foldl_makeDir]

theorem nodup_write (h : (files.map (·.path)).Nodup) (content : List UInt8) : ((write now p content files).map (·.path)).Nodup := by
  refine nodup_put ?_
  induction dirPaths p generalizing files with
  | nil => exact h
  | cons q dirs ih =>
    refine ih ?_
    unfold makeDir
    split
    · exact h
    · exact nodup_put h

theorem withSlash_eq (h : ¬[slash] <:+ p) : withSlash p = p ++ [slash] := if_neg h

theorem get_delete (hp : ¬[slash] <:+ p) : get (delete p files) q = if Within p q then none else get files q := by
  rw [delete, withSlash_eq hp, get_filter fun q => ¬p ++ [slash] <+: q, get_filter fun q => q ≠ p]
  by_cases hq : q = p
  · simp [Within, hq]
  · by_cases hbelow : p ++ [slash] <+: q <;> simp [Within, hq, hbelow]

theorem nodup_delete (h : (files.map (·.path)).Nodup) : ((delete p files).map (·.path)).Nodup :=
  h.sublist ((List.filter_sublist.trans List.filter_sublist).map _)

theorem add_ok {files' : List StoredFile} : add r files = .ok files' ↔ get files r.path = none ∧ files' = put files r := by
  unfold add
  cases hget : get files r.path <;> simp [eq_comm]

end Get

/-! ## Moving a subtree -/

/-- What a rename makes of a record. -/
def moved (src dst : Units) (r : StoredFile) : StoredFile :=
  if Within src r.path then { r with path := dst ++ r.path.drop src.length } else r

section Rename

variable {files files' : List StoredFile} {r e : StoredFile} {p q src dst : Units}

theorem Within.front (h : Within p q) : p <+: q := by
  rcases h with rfl | h
  · exact List.prefix_rfl
  · exact (List.prefix_append p [slash]).trans h

theorem Within.trans {x : Units} (h : Within p q) (hx : Within q x) : Within p x := by
  rcases h with rfl | h
  · exact hx
  · rcases hx with rfl | hx
    · exact .inr h
    · exact .inr (h.trans ((List.prefix_append q [slash]).trans hx))

/-- Below another path, in the same place. -/
theorem within_rebase (h : Within p q) (dst : Units) : Within dst (dst ++ q.drop p.length) := by
  rcases h with rfl | ⟨rest, rfl⟩
  · exact .inl (by simp)
  · exact .inr ⟨rest, by simp⟩

theorem rebase_back (dst : Units) (h : Within p q) : p ++ (dst ++ q.drop p.length).drop dst.length = q := by
  obtain ⟨rest, rfl⟩ := h.front
  rw [List.drop_left, List.drop_left]

theorem rebase_inj (h : Within src p) (h' : Within src q) (heq : dst ++ p.drop src.length = dst ++ q.drop src.length) : p = q := by
  rw [← rebase_back dst h, ← rebase_back dst h', heq]

theorem mem_rekey (hkeys : (files.map (·.path)).Nodup) (he : e ∈ files) (hfresh : ∀ r ∈ files, r.path ≠ dst ++ e.path.drop src.length) :
    r ∈ rekey src dst files e.path ↔ r ∈ files ∧ r ≠ e ∨ r = { e with path := dst ++ e.path.drop src.length } := by
  rw [rekey, get_of_mem hkeys he]
  simp only [put, List.filter_append, List.mem_append, List.mem_filter, List.mem_singleton, decide_eq_true_eq]
  constructor
  · rintro (⟨⟨hr, _⟩, hne⟩ | ⟨rfl, _⟩)
    · exact .inl ⟨hr, fun heq => hne (heq ▸ rfl)⟩
    · exact .inr rfl
  · rintro (⟨hr, hne⟩ | rfl)
    · exact .inl ⟨⟨hr, hfresh r hr⟩, fun heq => hne (List.inj_on_of_nodup_map hkeys hr he heq)⟩
    · exact .inr ⟨rfl, (hfresh e he).symm⟩

theorem nodup_rekey (hkeys : (files.map (·.path)).Nodup) (key : Units) : ((rekey src dst files key).map (·.path)).Nodup := by
  unfold rekey
  split
  · exact hkeys
  · exact (nodup_put hkeys).sublist (List.filter_sublist.map _)

/-- The loop gives each of the records its new key, whatever the order, where no new key is in use. -/
theorem foldl_rekey : ∀ {es files : List StoredFile}, (files.map (·.path)).Nodup → es ⊆ files → es.Nodup → (∀ e ∈ es, Within src e.path) →
    (∀ r ∈ files, ∀ e ∈ es, r.path ≠ dst ++ e.path.drop src.length) →
    (((es.map (·.path)).foldl (rekey src dst) files).map (·.path)).Nodup ∧
      ∀ r, r ∈ (es.map (·.path)).foldl (rekey src dst) files ↔
        r ∈ files ∧ r ∉ es ∨ ∃ e ∈ es, r = { e with path := dst ++ e.path.drop src.length }
  | [], files, hkeys, _, _, _, _ => ⟨hkeys, fun r => by simp⟩
  | e :: es, files, hkeys, hsub, hnodup, hwithin, hfresh => by
    obtain ⟨he, hsub⟩ := List.cons_subset.1 hsub
    obtain ⟨hnot, hnodup⟩ := List.nodup_cons.1 hnodup
    obtain ⟨hew, hwithin⟩ := List.forall_mem_cons.1 hwithin
    have hmem : ∀ r, r ∈ rekey src dst files e.path ↔ r ∈ files ∧ r ≠ e ∨ r = { e with path := dst ++ e.path.drop src.length } :=
      fun r => mem_rekey hkeys he fun r hr => hfresh r hr e List.mem_cons_self
    have hmoved : ∀ x ∈ es, { e with path := dst ++ e.path.drop src.length } ≠ x := fun x hx heq =>
      hfresh x (hsub hx) e List.mem_cons_self (heq ▸ rfl)
    have hrest := @foldl_rekey es (rekey src dst files e.path) (nodup_rekey hkeys _)
      (fun x hx => (hmem x).2 (.inl ⟨hsub hx, fun heq => hnot (heq ▸ hx)⟩)) hnodup hwithin (fun r hr x hx => by
        rcases (hmem r).1 hr with ⟨hr, _⟩ | rfl
        · exact hfresh r hr x (List.mem_cons_of_mem _ hx)
        · intro heq
          have hpath := rebase_inj hew (hwithin x hx) heq
          exact hnot (List.inj_on_of_nodup_map hkeys he (hsub hx) hpath ▸ hx))
    refine ⟨hrest.1, fun r => ?_⟩
    rw [List.map_cons, List.foldl_cons, hrest.2, hmem, List.mem_cons, List.exists_mem_cons_iff]
    constructor
    · rintro (⟨⟨hr, hne⟩ | rfl, hnot'⟩ | h)
      · exact .inl ⟨hr, not_or.2 ⟨hne, hnot'⟩⟩
      · exact .inr (.inl rfl)
      · exact .inr (.inr h)
    · rintro (⟨hr, hnot'⟩ | rfl | h)
      · exact .inl ⟨.inl ⟨hr, (not_or.1 hnot').1⟩, (not_or.1 hnot').2⟩
      · exact .inl ⟨.inr rfl, fun hx => hmoved _ hx rfl⟩
      · exact .inr h

/-- A rename goes through where there is something to move and nothing in the way; then each record is where it was moved to. -/
theorem rename_ok (hkeys : (files.map (·.path)).Nodup) (h : rename src dst files = .ok files') :
    (∃ r ∈ files, Within src r.path) ∧ (∀ r ∈ files, ¬Within dst r.path) ∧ (files'.map (·.path)).Nodup ∧
      files'.Perm (files.map (moved src dst)) := by
  unfold rename at h
  dsimp only at h
  split at h
  · cases h
  rename_i hsome
  split at h
  · cases h
  rename_i hfree
  have hfree : ∀ r ∈ files, ¬Within dst r.path := fun r hr hin => hfree ⟨_, List.mem_map_of_mem hr, hin⟩
  have hsource : (files.map (·.path)).filter (fun k => decide (Within src k)) =
      (files.filter fun r => Within src r.path).map (·.path) := List.filter_map
  rw [hsource] at h hsome
  have hnodup : files.Nodup := List.Nodup.of_map _ hkeys
  obtain ⟨hkeys', hmem⟩ := @foldl_rekey src dst (files.filter fun r => Within src r.path) files hkeys List.filter_sublist.subset
    (hnodup.filter _) (fun e he => of_decide_eq_true (List.mem_filter.1 he).2)
    fun r hr e he heq => hfree r hr (heq ▸ within_rebase (of_decide_eq_true (List.mem_filter.1 he).2) dst)
  obtain rfl := Except.ok.inj h
  refine ⟨?_, hfree, hkeys', (List.perm_ext_iff_of_nodup (List.Nodup.of_map _ hkeys') ?_).2 fun r => ?_⟩
  · obtain ⟨r, hr⟩ := List.exists_mem_of_ne_nil _ fun hnil => hsome (List.map_eq_nil_iff.2 hnil)
    exact ⟨r, (List.mem_filter.1 hr).1, of_decide_eq_true (List.mem_filter.1 hr).2⟩
  · refine List.Nodup.map_on (fun a ha b hb heq => ?_) hnodup
    unfold moved at heq
    split at heq <;> split at heq
    · rename_i hain hbin
      exact List.inj_on_of_nodup_map hkeys ha hb (rebase_inj hain hbin (congrArg StoredFile.path heq))
    · rename_i hain _
      exact absurd (congrArg StoredFile.path heq ▸ within_rebase hain dst) (hfree b hb)
    · rename_i _ hbin
      exact absurd (congrArg StoredFile.path heq ▸ within_rebase hbin dst) (hfree a ha)
    · exact heq
  · rw [hmem, List.mem_map]
    constructor
    · rintro (⟨hr, hnot⟩ | ⟨e, he, rfl⟩)
      · exact ⟨r, hr, if_neg fun hin => hnot (List.mem_filter.2 ⟨hr, decide_eq_true hin⟩)⟩
      · exact ⟨e, (List.mem_filter.1 he).1, if_pos (of_decide_eq_true (List.mem_filter.1 he).2)⟩
    · rintro ⟨e, he, rfl⟩
      by_cases hin : Within src e.path
      · exact .inr ⟨e, List.mem_filter.2 ⟨he, decide_eq_true hin⟩, if_pos hin⟩
      · rw [moved, if_neg hin]
        exact .inl ⟨he, fun hmem => hin (of_decide_eq_true (List.mem_filter.1 hmem).2)⟩

theorem moved_of_not (h : ¬Within src r.path) : moved src dst r = r := if_neg h

theorem mem_rename (hkeys : (files.map (·.path)).Nodup) (h : rename src dst files = .ok files') :
    r ∈ files' ↔ ∃ e ∈ files, moved src dst e = r := by
  rw [(rename_ok hkeys h).2.2.2.mem_iff, List.mem_map]

/-- What lies at or below two paths has one of them at or below the other. -/
theorem within_or {x : Units} (hp : Within p x) (hq : Within q x) : Within p q ∨ Within q p := by
  rcases hp with rfl | hp
  · exact .inr hq
  rcases hq with rfl | hq
  · exact .inl (.inr hp)
  have hfront : p <+: x := (List.prefix_append p [slash]).trans hp
  have hfront' : q <+: x := (List.prefix_append q [slash]).trans hq
  rcases lt_trichotomy p.length q.length with hlt | heq | hlt
  · exact .inl (.inr (List.prefix_of_prefix_length_le hp hfront' (by rw [List.length_append]; exact hlt)))
  · exact .inl (.inl ((List.prefix_of_prefix_length_le hfront hfront' heq.le).eq_of_length heq).symm)
  · exact .inr (.inr (List.prefix_of_prefix_length_le hq hfront (by rw [List.length_append]; exact hlt)))

theorem rename_isOk (hsrc : ∃ r ∈ files, Within src r.path) (hfree : ∀ r ∈ files, ¬Within dst r.path) :
    ∃ files', rename src dst files = .ok files' := by
  obtain ⟨r, hr, hin⟩ := hsrc
  unfold rename
  dsimp only
  rw [if_neg, if_neg]
  · exact ⟨_, rfl⟩
  · rintro ⟨k, hk, hwithin⟩
    obtain ⟨x, hx, rfl⟩ := List.mem_map.1 hk
    exact hfree x hx hwithin
  · exact List.ne_nil_of_mem (List.mem_filter.2 ⟨List.mem_map_of_mem hr, decide_eq_true hin⟩)

/-- Renaming back gives the records back, but for a rename to somewhere below what is renamed. -/
theorem rename_back_iff (hkeys : (files.map (·.path)).Nodup) (h : rename src dst files = .ok files') :
    (∃ back, rename dst src files' = .ok back ∧ back.Perm files) ↔ ¬Within src dst := by
  obtain ⟨⟨x, hx, hxin⟩, hfree, hkeys', hperm⟩ := rename_ok hkeys h
  have hmoved : ∀ {e}, Within src e.path → Within dst (moved src dst e).path := fun {e} hin => by
    rw [moved, if_pos hin]
    exact within_rebase hin dst
  have hx' : moved src dst x ∈ files' := (mem_rename hkeys h).2 ⟨x, hx, rfl⟩
  constructor
  · rintro ⟨back, hback, _⟩ hin
    exact (rename_ok hkeys' hback).2.1 _ hx' (hin.trans (hmoved hxin))
  · intro hout
    have hclear : ∀ r ∈ files', ¬Within src r.path := fun r hr hin => by
      obtain ⟨e, he, rfl⟩ := (mem_rename hkeys h).1 hr
      by_cases hwithin : Within src e.path
      · exact (within_or hin (hmoved hwithin)).elim hout fun hin' => hfree e he (hin'.trans hwithin)
      · exact hwithin (by rwa [moved_of_not hwithin] at hin)
    obtain ⟨back, hback⟩ := @rename_isOk files' dst src ⟨_, hx', hmoved hxin⟩ hclear
    have hid : ∀ e ∈ files, (moved dst src ∘ moved src dst) e = e := fun e he => by
      rw [Function.comp_apply]
      by_cases hwithin : Within src e.path
      · have hin := hmoved hwithin
        rw [moved.eq_def dst, if_pos hin, moved, if_pos hwithin]
        simp only [rebase_back dst hwithin]
      · rw [moved_of_not hwithin, moved_of_not (hfree e he)]
    refine ⟨back, hback, (rename_ok hkeys' hback).2.2.2.trans ((hperm.map _).trans ?_)⟩
    rw [List.map_map, List.map_congr_left hid]
    simp

theorem rename_back_folder : (∃ back, rename (ascii "/buffer/b") (ascii "/buffer/a") [⟨ascii "/buffer/b", [], true, 3⟩,
      ⟨ascii "/buffer/b/x", [7], false, 5⟩] = .ok back ∧ back.Perm [⟨ascii "/buffer/a", [], true, 3⟩, ⟨ascii "/buffer/a/x", [7], false, 5⟩]) ↔
    ¬Within (ascii "/buffer/a") (ascii "/buffer/b") :=
  rename_back_iff (by decide) rfl

end Rename

end Purdex.InApp
