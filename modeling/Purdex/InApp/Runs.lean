/-
Runs of mutations of the In-App storage: which of them keep the records a tree, what a rename moves, and what the revision tells.
-/
import Purdex.InApp.Backend
import Purdex.Conc.Reach

namespace Purdex.InApp

open Conc Utf16

/-! ## Trees of records -/

def NamesOk (names : List Units) : Prop := ∀ name ∈ names, NameOk name

@[simp] theorem namesOk_nil : NamesOk [] := List.forall_mem_nil _

theorem NamesOk.left {front back : List Units} (h : NamesOk (front ++ back)) : NamesOk front := (List.forall_mem_append.1 h).1

theorem NamesOk.append {front back : List Units} (h : NamesOk front) (h' : NamesOk back) : NamesOk (front ++ back) := List.forall_mem_append.2 ⟨h, h'⟩

/-- The path of something below the root. -/
def PathOk (path : Units) : Prop := ∃ names, names ≠ [] ∧ NamesOk names ∧ path = keyOf names

/-- The root, or a directory that is there. -/
def HasDir (files : List StoredFile) (path : Units) : Prop := path = storageRoot ∨ ∃ d ∈ get files path, d.isDirectory = true

/-- What is above the path below the root is directories. -/
def NoFileAbove (files : List StoredFile) (path : Units) : Prop :=
  ∀ d ∈ files, d.isDirectory = false → storageRoot ++ [slash] <+: d.path → ¬d.path ++ [slash] <+: path

def IsTree (files : List StoredFile) : Prop := ∃ tree : FileTree, tree.files = files

section Trees

variable {files : List StoredFile} {r d : StoredFile} {p q : Units} {names above front back : List Units} {name : Units}

theorem unslashed_of_ok (h : NamesOk names) : ∀ name ∈ names, slash ∉ name := fun name hname => (h name hname).unslashed

theorem keyOf_inj (h : NamesOk names) (h' : NamesOk above) : keyOf names = keyOf above ↔ names = above :=
  ⟨keyOf_injective (unslashed_of_ok h) (unslashed_of_ok h'), congrArg keyOf⟩

/-- What is in front of the last slash, or of one before it, is a directory above. -/
theorem above_of_front (h : NamesOk names) (hne : above ≠ []) (heq : keyOf names = keyOf (above ++ [name])) :
    ∃ front back, front ≠ [] ∧ back ≠ [] ∧ names = front ++ back ∧ keyOf above = keyOf front := by
  rw [keyOf_concat] at heq
  have hsplit := congrArg (List.splitOn slash) heq
  rw [splitOn_keyOf (unslashed_of_ok h), List.splitOn_append_cons_self] at hsplit
  have hkey : (keyOf above).splitOn slash = [] :: ascii "buffer" :: ([slash].intercalate above).splitOn slash := by
    have hroot : (storageRoot).splitOn slash = [[], ascii "buffer"] := by decide
    rw [keyOf_eq hne, List.splitOn_append_cons_self, hroot]
    rfl
  rw [hkey] at hsplit
  have hnames := (List.cons.inj (List.cons.inj hsplit).2).2
  refine ⟨_, _, List.splitOn_ne_nil slash _, List.splitOn_ne_nil slash _, hnames, ?_⟩
  have hback := congrArg ([slash].intercalate) hkey
  rw [List.intercalate_splitOn] at hback
  exact hback

/-- For a tree it is enough that the directory of everything is there. -/
theorem isTree_iff : IsTree files ↔ (files.map (·.path)).Nodup ∧ (∀ r ∈ below files storageRoot, PathOk r.path) ∧
    (∀ r ∈ files, ∀ above name, NamesOk (above ++ [name]) → r.path = keyOf (above ++ [name]) → HasDir files (keyOf above)) ∧
    ∀ r ∈ files, r.isDirectory = true → r.content = [] := by
  constructor
  · rintro ⟨tree, rfl⟩
    refine ⟨tree.keys, tree.named, fun r hr above name _ hpath => ?_, tree.empty⟩
    rcases eq_or_ne above [] with rfl | hne
    · exact .inl keyOf_nil
    · obtain ⟨d, hd, hkey, hdir⟩ := tree.nested r hr above name hne hpath
      exact .inr ⟨d, hkey ▸ get_of_mem tree.keys hd, hdir⟩
  · rintro ⟨hkeys, hnamed, hnested, hempty⟩
    -- up from a record, directory by directory
    have habove : ∀ front, front ≠ [] → ∀ back, back ≠ [] → NamesOk (front ++ back) → ∀ r ∈ files, r.path = keyOf (front ++ back) →
        ∃ d ∈ files, d.path = keyOf front ∧ d.isDirectory = true := by
      intro front hfront back
      induction back using List.reverseRecOn with
      | nil => exact fun hne => absurd rfl hne
      | append_singleton back name ih =>
        intro _ hok r hr hpath
        rw [← List.append_assoc] at hpath hok
        obtain hnil | ⟨d, hget, hdir⟩ := hnested r hr _ name hok hpath
        · have hnames := (keyOf_inj hok.left (by simp)).1 (hnil.trans keyOf_nil.symm)
          exact absurd (List.append_eq_nil_iff.1 hnames).1 hfront
        · rcases eq_or_ne back [] with rfl | hne
          · rw [List.append_nil] at hget
            exact ⟨d, mem_of_get hget, path_of_get hget, hdir⟩
          · exact ih hne hok.left d (mem_of_get hget) (path_of_get hget)
    refine ⟨⟨files, hkeys, hnamed, fun r hr above name hne hpath => ?_, hempty⟩, rfl⟩
    have hbelow : r ∈ below files storageRoot := by
      refine mem_below.2 ⟨hr, [slash].intercalate (above ++ [name]), ?_⟩
      rw [hpath, keyOf_eq (by simp), List.append_assoc, List.singleton_append]
    obtain ⟨names, _, hok, heq⟩ := hnamed r hbelow
    obtain ⟨front, back, hfront, hback, rfl, hkey⟩ := above_of_front hok hne (heq.symm.trans hpath)
    obtain ⟨d, hd, hdkey, hdir⟩ := habove front hfront back hback hok r hr heq
    exact ⟨d, hd, hdkey.trans hkey.symm, hdir⟩

variable (htree : IsTree files)
include htree

theorem IsTree.get_of_mem (hr : r ∈ files) : get files r.path = some r := InApp.get_of_mem (isTree_iff.1 htree).1 hr

theorem IsTree.pathOk (hok : NamesOk above) (hr : r ∈ files) (hbelow : keyOf above ++ [slash] <+: r.path) :
    ∃ more, more ≠ [] ∧ NamesOk more ∧ r.path = keyOf (above ++ more) := by
  obtain ⟨tree, rfl⟩ := htree
  exact names_of_mem_below hok (mem_below.2 ⟨hr, hbelow⟩)

/-- What has something below it is a directory. -/
theorem IsTree.hasDir (hok : NamesOk above) (hr : r ∈ files) (hbelow : keyOf above ++ [slash] <+: r.path) :
    HasDir files (keyOf above) := by
  obtain ⟨more, hne, _, hpath⟩ := htree.pathOk hok hr hbelow
  obtain ⟨tree, rfl⟩ := htree
  rcases eq_or_ne above [] with rfl | hfront
  · exact .inl keyOf_nil
  · obtain ⟨d, hd, hkey, hdir⟩ := directory_above hfront hne hr hpath
    exact .inr ⟨d, hkey ▸ InApp.get_of_mem tree.keys hd, hdir⟩

end Trees

theorem below_keyOf {names more : List Units} (hne : more ≠ []) : keyOf names ++ [slash] <+: keyOf (names ++ more) :=
  ⟨[slash].intercalate more, by rw [keyOf_append hne, List.append_assoc, List.singleton_append]⟩

theorem ne_of_below {p q : Units} (h : p ++ [slash] <+: q) : p ≠ q := by
  rintro rfl
  have hlength := h.length_le
  rw [List.length_append, List.length_singleton] at hlength
  omega

theorem ne_above {names : List Units} {name : Units} : keyOf (names ++ [name]) ≠ keyOf names :=
  (ne_of_below (below_keyOf (List.cons_ne_nil _ _))).symm

theorem hasDir_iff {files : List StoredFile} {names : List Units} (hok : NamesOk names) (hne : names ≠ []) :
    HasDir files (keyOf names) ↔ ∃ d ∈ get files (keyOf names), d.isDirectory = true :=
  or_iff_right fun h => hne ((keyOf_inj hok (by simp)).1 (h.trans keyOf_nil.symm))

/-! ## One record more -/

section Put

variable {files : List StoredFile} {r d : StoredFile} {names above : List Units} {name : Units}

theorem below_eq_nil {p : Units} : below files p = [] ↔ ∀ x ∈ files, ¬p ++ [slash] <+: x.path :=
  List.eq_nil_iff_forall_not_mem.trans (by simp only [mem_below, not_and])

theorem mem_put {x : StoredFile} : x ∈ put files r ↔ x ∈ files ∧ x.path ≠ r.path ∨ x = r := by simp [put]

/-- A record can be put where its directory is and, unless it is one itself, nothing is below it. -/
theorem IsTree.put (htree : IsTree files) (hok : NamesOk names) (hpath : r.path = keyOf names)
    (habove : ∀ above name, names = above ++ [name] → HasDir files (keyOf above))
    (hkind : r.isDirectory = true ∧ r.content = [] ∨ r.isDirectory = false ∧ below files r.path = []) : IsTree (put files r) := by
  obtain ⟨hkeys, hnamed, hnested, hempty⟩ := isTree_iff.1 htree
  refine isTree_iff.2 ⟨nodup_put hkeys, fun x hx => ?_, fun x hx above name hname hx' => ?_, fun x hx hdir => ?_⟩
  · obtain ⟨hx, hbelow⟩ := mem_below.1 hx
    rcases mem_put.1 hx with ⟨hx, _⟩ | rfl
    · exact hnamed x (mem_below.2 ⟨hx, hbelow⟩)
    · refine ⟨names, ?_, hok, hpath⟩
      rintro rfl
      rw [hpath, keyOf_nil] at hbelow
      exact absurd hbelow (by decide)
  · have hparent : HasDir files (keyOf above) := by
      rcases mem_put.1 hx with ⟨hx, _⟩ | rfl
      · exact hnested x hx above name hname hx'
      · exact habove above name ((keyOf_inj hok hname).1 (hpath.symm.trans hx'))
    refine hparent.imp_right fun ⟨d, hd, hdir⟩ => ?_
    rw [get_put]
    by_cases hkey : r.path = keyOf above
    · rw [if_pos hkey]
      refine ⟨r, rfl, hkind.elim And.left fun h => ?_⟩
      have hne : x ≠ r := fun heq => ne_above (hx'.symm.trans (heq ▸ hkey))
      refine absurd ?_ (below_eq_nil.1 h.2 x ((mem_put.1 hx).resolve_right hne).1)
      rw [hkey, hx']
      exact below_keyOf (List.cons_ne_nil _ _)
    · rw [if_neg hkey]
      exact ⟨d, hd, hdir⟩
  · rcases mem_put.1 hx with ⟨hx, _⟩ | rfl
    · exact hempty x hx hdir
    · exact hkind.elim And.right fun h => by simp [h.1] at hdir

/-- A record that was put into a tree has its directory there. -/
theorem hasDir_of_put (htree : IsTree (put files r)) (hok : NamesOk (above ++ [name])) (hpath : r.path = keyOf (above ++ [name])) :
    HasDir files (keyOf above) := by
  have hr : r ∈ put files r := mem_put.2 (.inr rfl)
  refine ((isTree_iff.1 htree).2.2.1 r hr above name hok hpath).imp_right fun ⟨d, hd, hdir⟩ => ?_
  rw [get_put, if_neg (hpath ▸ ne_above)] at hd
  exact ⟨d, hd, hdir⟩

end Put

/-! ## The directories above a file -/

section DirPaths

variable {files : List StoredFile} {names : List Units} {name : Units} {now : Int}

theorem dirPaths_concat (h : NamesOk (names ++ [name])) : dirPaths (keyOf (names ++ [name])) =
    (dirPaths (keyOf names)) ++ [keyOf names] := by
  have hnames := splitOn_keyOf (unslashed_of_ok h.left)
  rw [dirPaths, dirPaths, splitOn_keyOf (unslashed_of_ok h), hnames]
  simp only [List.length_cons, List.length_append, List.length_nil]
  have hcount : names.length + (0 + 1) + 1 + 1 - 2 = names.length + 1 := by omega
  have hcount' : names.length + 1 + 1 - 2 = names.length := by omega
  rw [hcount, hcount', List.range'_concat, List.map_append, List.map_singleton, ← List.cons_append, ← List.cons_append]
  congr 1
  · refine List.map_congr_left fun i hi => ?_
    have hlt := (List.mem_range'_1.1 hi).2
    rw [List.take_append_of_le_length (by simp; omega)]
  · rw [List.take_left' (by simp; omega)]
    rfl

theorem mem_dirPaths (h : NamesOk names) {p : Units} :
    p ∈ dirPaths (keyOf names) ↔ ∃ front back, back ≠ [] ∧ names = front ++ back ∧ p = keyOf front := by
  induction names using List.reverseRecOn with
  | nil =>
    have hnil : dirPaths (keyOf []) = [] := by decide
    simp only [hnil, List.not_mem_nil, false_iff, not_exists, not_and]
    intro front back hne heq
    exact absurd (List.append_eq_nil_iff.1 heq.symm).2 hne
  | append_singleton names name ih =>
    rw [dirPaths_concat h, List.mem_append, ih h.left, List.mem_singleton]
    constructor
    · rintro (⟨front, back, _, rfl, rfl⟩ | rfl)
      · exact ⟨front, back ++ [name], by simp, List.append_assoc .., rfl⟩
      · exact ⟨names, [name], List.cons_ne_nil _ _, rfl, rfl⟩
    · rintro ⟨front, back, hne, heq, rfl⟩
      rcases List.eq_nil_or_concat back with rfl | ⟨init, last, rfl⟩
      · exact absurd rfl hne
      · rw [List.concat_eq_append, ← List.append_assoc] at heq
        obtain ⟨rfl, _⟩ := List.append_inj' heq rfl
        rcases eq_or_ne init [] with rfl | hinit
        · exact .inr (by rw [List.append_nil])
        · exact .inl ⟨front, init, hinit, rfl, rfl⟩

/-- Above something, every directory is there once it is made where it was missing. -/
theorem hasDir_dirPaths (hok : NamesOk names)
    (hfiles : NoFileAbove files (keyOf names)) {front back : List Units} (hback : back ≠ []) (heq : names = front ++ back) :
    HasDir ((dirPaths (keyOf names)).foldl (makeDir now) files) (keyOf front) := by
  rcases eq_or_ne front [] with rfl | hfront
  · exact .inl keyOf_nil
  refine .inr ?_
  rw [get_foldl_makeDir]
  have hmem : keyOf front ∈ dirPaths (keyOf names) := (mem_dirPaths hok).2 ⟨front, back, hback, heq, rfl⟩
  cases hget : get files (keyOf front) with
  | none =>
    rw [if_pos ⟨hmem, rfl⟩]
    exact ⟨_, rfl, rfl⟩
  | some d =>
    rw [if_neg (by simp)]
    refine ⟨d, rfl, Bool.of_not_eq_false fun hfile => hfiles d (mem_of_get hget) hfile ?_ ?_⟩
    · rw [path_of_get hget, ← keyOf_nil]
      exact @below_keyOf [] front hfront
    · rw [path_of_get hget, heq]
      exact below_keyOf hback

theorem isTree_dirPaths (htree : IsTree files) (hok : NamesOk names) (hfiles : NoFileAbove files (keyOf names)) :
    IsTree ((dirPaths (keyOf names)).foldl (makeDir now) files) := by
  induction names using List.reverseRecOn with
  | nil => exact htree
  | append_singleton names name ih =>
    have hok' : NamesOk names := hok.left
    have hfiles' : NoFileAbove files (keyOf names) :=
      fun d hd hfile hbelow hfront => hfiles d hd hfile hbelow
        (hfront.trans (List.IsPrefix.trans (List.prefix_append _ [slash]) (below_keyOf (List.cons_ne_nil name []))))
    rw [dirPaths_concat hok, List.foldl_append]
    have hdirs := ih hok' hfiles'
    simp only [List.foldl_cons, List.foldl_nil]
    unfold makeDir
    split
    · exact hdirs
    · refine hdirs.put hok' rfl (fun above last heq => ?_) (.inl ⟨rfl, rfl⟩)
      exact hasDir_dirPaths hok' hfiles' (List.cons_ne_nil _ _) heq

end DirPaths

/-! ## Which mutations keep the tree -/

def parentOf (path : Units) : Units :=
  (if [slash] <+: path then [slash] else []) ++ [slash].intercalate ((path.splitOn slash).filter (· ≠ [])).dropLast

/-- The paths that a mutation is given are of names that can stand between slashes. -/
def Op.Named : Op → Prop
  | .write path _ => PathOk path
  | .mkdir path => PathOk path
  | .delete path => PathOk path
  | .rename src dst => PathOk src ∧ PathOk dst
  | .add path _ => PathOk path
  | .replaceTree entries _ => ∀ e ∈ entries, 0 ∉ e.relPath

/-- The mutation leaves a tree: no file comes to be above something, and nothing comes to be where there is no directory. -/
def Op.Fits (files : List StoredFile) : Op → Prop
  | .write path _ => NoFileAbove files path ∧ below files path = []
  | .mkdir path => HasDir files (parentOf path)
  | .delete _ => True
  | .rename src dst => HasDir files (parentOf dst) ∧ ¬Within src (parentOf dst)
  | .add path _ => HasDir files (parentOf path)
  | .replaceTree entries _ => ∀ e ∈ entries, ∀ rel ∈ pathsAbove e.relPath, ∃ f ∈ entries, f.relPath = rel

section Fits

variable {files files' : List StoredFile} {r : StoredFile} {above names : List Units} {name path src dst : Units} {now : Int}
  {content : List UInt8}

theorem parentOf_keyOf (hok : NamesOk (above ++ [name])) : parentOf (keyOf (above ++ [name])) = keyOf above := by
  have hparts : ((keyOf (above ++ [name])).splitOn slash).filter (· ≠ []) = ascii "buffer" :: (above ++ [name]) := by
    rw [splitOn_keyOf (unslashed_of_ok hok), List.filter_cons, if_neg (by simp)]
    refine List.filter_eq_self.2 fun seg hseg => decide_eq_true ?_
    rcases List.mem_cons.1 hseg with rfl | hseg
    · decide
    · exact (hok seg hseg).nonempty
  have hslash : ∀ {names : List Units}, keyOf names = slash :: [slash].intercalate (ascii "buffer" :: names) := fun {names} => by
    rw [keyOf, List.intercalate_cons_of_ne_nil (List.cons_ne_nil _ _), List.nil_append, List.singleton_append]
  have hdrop : (ascii "buffer" :: (above ++ [name])).dropLast = ascii "buffer" :: above := by
    rw [← List.cons_append, List.dropLast_concat]
  rw [parentOf, hparts, hdrop, if_pos ⟨_, (hslash).symm⟩, hslash]
  rfl

theorem PathOk.split (h : PathOk path) : ∃ above name, NamesOk (above ++ [name]) ∧ path = keyOf (above ++ [name]) := by
  obtain ⟨names, hne, hok, rfl⟩ := h
  rcases List.eq_nil_or_concat names with rfl | ⟨above, name, rfl⟩
  · exact absurd rfl hne
  · rw [List.concat_eq_append] at hok ⊢
    exact ⟨above, name, hok, rfl⟩

theorem isTree_write_iff (htree : IsTree files) (hpath : PathOk path) :
    IsTree (write now path content files) ↔ (Op.write path content).Fits files := by
  obtain ⟨above, name, hok, rfl⟩ := hpath.split
  constructor
  · intro hwritten
    have hfile : get (write now (keyOf (above ++ [name])) content files) (keyOf (above ++ [name])) =
        some ⟨keyOf (above ++ [name]), content, false, now⟩ := by rw [get_write, if_pos rfl]
    refine ⟨fun d hd hkind hroot hbelow => ?_, below_eq_nil.2 fun x hx hbelow => ?_⟩
    · have hne := (ne_of_below hbelow).symm
      obtain ⟨names, hnames, hnok, hdpath⟩ := (isTree_iff.1 htree).2.1 d (mem_below.2 ⟨hd, hroot⟩)
      obtain ⟨d', hd', hdir⟩ := (hasDir_iff hnok hnames).1 (hwritten.hasDir hnok (mem_of_get hfile) (hdpath ▸ hbelow))
      rw [← hdpath, get_write, if_neg hne, htree.get_of_mem hd, if_neg (by simp)] at hd'
      rw [← Option.some.inj hd', hkind] at hdir
      cases hdir
    · have hne := ne_of_below hbelow
      have hkept : get (write now (keyOf (above ++ [name])) content files) x.path = some x := by
        rw [get_write, if_neg hne, htree.get_of_mem hx, if_neg (by simp)]
      obtain ⟨d, hd, hdir⟩ := (hasDir_iff hok (by simp)).1 (hwritten.hasDir hok (mem_of_get hkept) hbelow)
      rw [hfile] at hd
      rw [← Option.some.inj hd] at hdir
      cases hdir
  · rintro ⟨hfiles, hbelow⟩
    refine (isTree_dirPaths htree hok hfiles).put hok rfl (fun above' last heq => ?_) (.inr ⟨rfl, ?_⟩)
    · exact hasDir_dirPaths hok hfiles (List.cons_ne_nil _ _) heq
    · refine below_eq_nil.2 fun x hx hxbelow => ?_
      have hget := (isTree_dirPaths htree hok hfiles).get_of_mem hx
      rw [get_foldl_makeDir] at hget
      split at hget
      · rename_i hdir
        obtain ⟨front, back, hne, heq, hfront⟩ := (mem_dirPaths hok).1 hdir.1
        have hup : x.path ++ [slash] <+: keyOf (above ++ [name]) := by
          rw [hfront, heq]
          exact below_keyOf hne
        exact absurd rfl (ne_of_below ((hup.trans (List.prefix_append _ [slash])).trans hxbelow))
      · exact below_eq_nil.1 hbelow x (mem_of_get hget) hxbelow

/-- A directory, or a file where nothing was, can be put where its directory is. -/
theorem isTree_put_iff (htree : IsTree files) (hpath : PathOk r.path)
    (hkind : r.isDirectory = true ∧ r.content = [] ∨ r.isDirectory = false ∧ get files r.path = none) :
    IsTree (put files r) ↔ HasDir files (parentOf r.path) := by
  obtain ⟨above, name, hok, heq⟩ := hpath.split
  rw [heq, parentOf_keyOf hok]
  refine ⟨fun h => hasDir_of_put h hok heq, fun h => htree.put hok heq (fun above' last hnames => ?_) (hkind.imp_right fun hfile => ?_)⟩
  · obtain ⟨rfl, _⟩ := List.append_inj' hnames rfl
    exact h
  · refine ⟨hfile.1, below_eq_nil.2 fun x hx hbelow => ?_⟩
    obtain ⟨d, hd, _⟩ := (hasDir_iff hok (by simp)).1 (htree.hasDir hok hx (heq ▸ hbelow))
    rw [← heq, hfile.2] at hd
    cases hd

theorem isTree_delete (htree : IsTree files) (hpath : PathOk path) : IsTree (delete path files) := by
  obtain ⟨hkeys, hnamed, hnested, hempty⟩ := isTree_iff.1 htree
  obtain ⟨names, _, hok, rfl⟩ := hpath
  have hend : ¬[slash] <:+ keyOf names := fun h => by
    have hlength := congrArg List.length (withSlash_keyOf hok)
    rw [withSlash, if_pos h, List.length_append, List.length_singleton] at hlength
    omega
  have hget : ∀ {x}, x ∈ delete (keyOf names) files → ¬Within (keyOf names) x.path ∧ x ∈ files := fun {x} hx => by
    have h := get_of_mem (nodup_delete hkeys) hx
    rw [get_delete hend] at h
    split at h
    · cases h
    · rename_i hout
      exact ⟨hout, mem_of_get h⟩
  refine isTree_iff.2 ⟨nodup_delete hkeys, fun x hx => ?_, fun x hx above name hname hx' => ?_, fun x hx => hempty x (hget hx).2⟩
  · obtain ⟨hx, hbelow⟩ := mem_below.1 hx
    exact hnamed x (mem_below.2 ⟨(hget hx).2, hbelow⟩)
  · refine (hnested x (hget hx).2 above name hname hx').imp_right fun ⟨d, hd, hdir⟩ => ⟨d, ?_, hdir⟩
    rw [get_delete hend, if_neg fun hin => (hget hx).1 (hin.trans (.inr (hx' ▸ below_keyOf (List.cons_ne_nil _ _))))]
    exact hd

theorem rebase_keyOf {more : List Units} (src dst : List Units) :
    keyOf dst ++ (keyOf (src ++ more)).drop (keyOf src).length = keyOf (dst ++ more) := by
  rcases eq_or_ne more [] with rfl | hne
  · simp
  · rw [keyOf_append hne, keyOf_append hne, List.drop_left]

theorem within_keyOf (names more : List Units) : Within (keyOf names) (keyOf (names ++ more)) := by
  rcases eq_or_ne more [] with rfl | hne
  · exact .inl (by rw [List.append_nil])
  · exact .inr (below_keyOf hne)

/-- What is at a path or below it has the names of the path in front. -/
theorem IsTree.names_of_within (htree : IsTree files) (hok : NamesOk names) (hr : r ∈ files) (hin : Within (keyOf names) r.path) :
    ∃ more, NamesOk more ∧ r.path = keyOf (names ++ more) := by
  rcases hin with heq | hbelow
  · exact ⟨[], by simp, by rw [heq, List.append_nil]⟩
  · obtain ⟨more, _, hmore, hpath⟩ := htree.pathOk hok hr hbelow
    exact ⟨more, hmore, hpath⟩

theorem moved_keyOf {more : List Units} (h : r.path = keyOf (names ++ more)) :
    moved (keyOf names) (keyOf above) r = { r with path := keyOf (above ++ more) } := by
  rw [moved, if_pos (h ▸ within_keyOf names more), h, rebase_keyOf]

/-- Where a rename leaves a tree, its target has a directory that it did not move. -/
theorem fits_of_rename (htree : IsTree files) (hsrc : PathOk src) (hok : NamesOk (above ++ [name]))
    (h : rename src (keyOf (above ++ [name])) files = .ok files') (htree' : IsTree files') :
    HasDir files (keyOf above) ∧ ¬Within src (keyOf above) := by
  have hkeys := (isTree_iff.1 htree).1
  obtain ⟨snames, hsne, hsok, rfl⟩ := hsrc
  obtain ⟨x, hx, hxin⟩ := (rename_ok hkeys h).1
  -- what is moved is itself a record
  obtain ⟨e, he, hepath⟩ : ∃ e ∈ files, e.path = keyOf snames := by
    rcases hxin with heq | hbelow
    · exact ⟨x, hx, heq⟩
    · obtain ⟨d, hd, _⟩ := (hasDir_iff hsok hsne).1 (htree.hasDir hsok hx hbelow)
      exact ⟨d, mem_of_get hd, path_of_get hd⟩
  have hroot := @moved_keyOf e (above ++ [name]) snames [] (by rw [hepath, List.append_nil])
  have hparent := (isTree_iff.1 htree').2.2.1 _ ((mem_rename hkeys h).2 ⟨e, he, rfl⟩) above name hok (by rw [hroot, List.append_nil])
  rcases hparent with hnil | ⟨d, hd, hdir⟩
  · refine ⟨.inl hnil, fun hwithin => ?_⟩
    have hlength := hwithin.front.length_le
    rw [hnil, keyOf_eq hsne, List.length_append, List.length_cons] at hlength
    omega
  · obtain ⟨e', he', heq⟩ := (mem_rename hkeys h).1 (mem_of_get hd)
    have hkey := path_of_get hd
    by_cases hwithin : Within (keyOf snames) e'.path
    · obtain ⟨more, _, hpath⟩ := htree.names_of_within hsok he' hwithin
      rw [← heq, moved_keyOf hpath, List.append_assoc] at hkey
      exact absurd hkey.symm (ne_of_below (below_keyOf (by simp)))
    · rw [moved_of_not hwithin] at heq
      subst heq
      exact ⟨.inr ⟨e', hkey ▸ get_of_mem hkeys he', hdir⟩, hkey ▸ hwithin⟩

theorem isTree_rename_iff (htree : IsTree files) (hsrc : PathOk src) (hdst : PathOk dst) (h : rename src dst files = .ok files') :
    IsTree files' ↔ (Op.rename src dst).Fits files := by
  obtain ⟨hkeys, hnamed, hnested, hempty⟩ := isTree_iff.1 htree
  obtain ⟨above, name, hok, rfl⟩ := hdst.split
  rw [Op.Fits, parentOf_keyOf hok]
  refine ⟨fits_of_rename htree hsrc hok h, ?_⟩
  rintro ⟨hdir, hnot⟩
  obtain ⟨snames, hsne, hsok, rfl⟩ := hsrc
  have hkeys' := (rename_ok hkeys h).2.2.1
  have hkept : ∀ {p}, HasDir files p → ¬Within (keyOf snames) p → HasDir files' p := fun {p} hp hwithin => by
    refine hp.imp_right ?_
    rintro ⟨d, hd, hdir⟩
    have hkey := path_of_get hd
    exact ⟨d, hkey ▸ get_of_mem hkeys' ((mem_rename hkeys h).2 ⟨d, mem_of_get hd, moved_of_not (hkey ▸ hwithin)⟩), hdir⟩
  refine isTree_iff.2 ⟨hkeys', fun r hr => ?_, fun r hr above' name' hname hpath => ?_, fun r hr hkind => ?_⟩
  · obtain ⟨hr, hbelow⟩ := mem_below.1 hr
    obtain ⟨e, he, rfl⟩ := (mem_rename hkeys h).1 hr
    by_cases hwithin : Within (keyOf snames) e.path
    · obtain ⟨more, hmore, hpath⟩ := htree.names_of_within hsok he hwithin
      rw [moved_keyOf hpath]
      exact ⟨above ++ [name] ++ more, by simp, hok.append hmore, rfl⟩
    · rw [moved_of_not hwithin] at hbelow ⊢
      exact hnamed e (mem_below.2 ⟨he, hbelow⟩)
  · obtain ⟨e, he, rfl⟩ := (mem_rename hkeys h).1 hr
    by_cases hwithin : Within (keyOf snames) e.path
    · obtain ⟨more, hmore, hepath⟩ := htree.names_of_within hsok he hwithin
      rw [moved_keyOf hepath] at hpath
      have hnames := (keyOf_inj (hok.append hmore) hname).1 hpath
      rcases List.eq_nil_or_concat more with rfl | ⟨init, last, rfl⟩
      · rw [List.append_nil] at hnames
        obtain ⟨rfl, _⟩ := List.append_inj' hnames rfl
        exact hkept hdir hnot
      · rw [List.concat_eq_append] at hnames hepath hmore
        rw [← List.append_assoc] at hnames hepath
        obtain ⟨rfl, _⟩ := List.append_inj' hnames rfl
        have hsub : NamesOk (snames ++ init ++ [last]) := List.append_assoc .. ▸ hsok.append hmore
        have hne : snames ++ init ≠ [] := List.append_ne_nil_of_left_ne_nil hsne _
        obtain ⟨d, hd, hdkind⟩ := (hasDir_iff hsub.left hne).1 (hnested e he _ last hsub hepath)
        have hd' := (mem_rename hkeys h).2 ⟨d, mem_of_get hd, moved_keyOf (path_of_get hd)⟩
        exact .inr ⟨_, get_of_mem hkeys' hd', hdkind⟩
    · rw [moved_of_not hwithin] at hpath
      refine hkept (hnested e he above' name' hname hpath) fun hin' => hwithin (hin'.trans (.inr ?_))
      exact hpath ▸ below_keyOf (List.cons_ne_nil _ _)
  · obtain ⟨e, he, rfl⟩ := (mem_rename hkeys h).1 hr
    by_cases hwithin : Within (keyOf snames) e.path
    · obtain ⟨more, _, hepath⟩ := htree.names_of_within hsok he hwithin
      rw [moved_keyOf hepath] at hkind ⊢
      exact hempty e he hkind
    · rw [moved_of_not hwithin] at hkind ⊢
      exact hempty e he hkind

theorem nodup_foldl_put {rs : List StoredFile} (h : (files.map (·.path)).Nodup) : ((rs.foldl put files).map (·.path)).Nodup := by
  induction rs generalizing files with
  | nil => exact h
  | cons r rs ih => exact ih (nodup_put h)

theorem pathsAbove_iff {rel p : Units} : p ∈ pathsAbove rel ↔
    ∃ front back, front ≠ [] ∧ back ≠ [] ∧ rel.splitOn slash = front ++ back ∧ p = [slash].intercalate front := by
  rw [pathsAbove, List.mem_map]
  constructor
  · rintro ⟨i, hi, rfl⟩
    obtain ⟨hpos, hlt⟩ := List.mem_range'_1.1 hi
    have hlen : 0 < i ∧ i < (rel.splitOn slash).length := by omega
    refine ⟨_, (rel.splitOn slash).drop i, ?_, ?_, (List.take_append_drop i _).symm, rfl⟩
    · exact List.ne_nil_of_length_pos (by rw [List.length_take]; omega)
    · exact List.ne_nil_of_length_pos (by rw [List.length_drop]; omega)
  · rintro ⟨front, back, hfront, hback, heq, rfl⟩
    have hf := List.length_pos_of_ne_nil hfront
    have hb := List.length_pos_of_ne_nil hback
    refine ⟨front.length, List.mem_range'_1.2 ?_, by rw [heq, List.take_left]⟩
    rw [heq, List.length_append]
    omega

theorem nodup_replaced {entries : List ReplaceEntry} (hentries : Replaceable entries) (hkeys : (files.map (·.path)).Nodup) :
    ((replaced now entries files).map (·.path)).Nodup := by
  rw [← puts_eq hentries]
  exact nodup_foldl_put (nodup_foldl_put (hkeys.sublist (List.filter_sublist.map _)))

theorem isTree_replaced_iff {entries : List ReplaceEntry} (htree : IsTree files) (hentries : Replaceable entries)
    (hnul : ∀ e ∈ entries, 0 ∉ e.relPath) :
    IsTree (replaced now entries files) ↔ (Op.replaceTree entries none).Fits files := by
  obtain ⟨hkeys, _, hnested, hempty⟩ := isTree_iff.1 htree
  have hroot : withSlash storageRoot = storageRoot ++ [slash] := by decide
  have hkeys' : ((replaced now entries files).map (·.path)).Nodup := nodup_replaced hentries hkeys
  have hrecord : ∀ e ∈ entries, (e.planned.record now storageRoot).path = keyOf (e.relPath.splitOn slash) := fun e he =>
    (hentries.paths e he).joined
  have hok : ∀ e ∈ entries, ∀ n ∈ e.relPath.splitOn slash, NameOk n := fun e he n hn => by
    have hlegal := (hentries.paths e he).segments n hn
    have hwhole : [slash].intercalate (e.relPath.splitOn slash) = e.relPath := List.intercalate_splitOn slash
    have hpart : n ⊆ e.relPath := hwhole ▸ Joined.subset_intercalate hn
    exact ⟨fun h => hlegal (.inl h), unslashed_splitOn n hn, fun h => (hentries.paths e he).plain (hpart h), fun h => hnul e he (hpart h),
      fun h => hlegal (.inr (.inl h)), fun h => hlegal (.inr (.inr h))⟩
  have hget : ∀ {front d}, front ≠ [] → get (replaced now entries files) (keyOf front) = some d →
      ∃ e ∈ entries, d = e.planned.record now storageRoot := fun {front d} hne hd => by
    refine ((mem_replaced.1 (mem_of_get hd)).resolve_left fun h => h.2 ?_)
    rw [path_of_get hd, hroot, ← keyOf_nil]
    exact @below_keyOf [] front hne
  constructor
  · intro htree' e he rel hrel
    obtain ⟨front, back, hfront, hback, hsplit, rfl⟩ := pathsAbove_iff.1 hrel
    have hfok : NamesOk front := fun n hn => hok e he n (hsplit ▸ List.mem_append_left _ hn)
    have hbelow : keyOf front ++ [slash] <+: (e.planned.record now storageRoot).path := by
      rw [hrecord e he, hsplit]
      exact below_keyOf hback
    obtain ⟨d, hd, _⟩ := (hasDir_iff hfok hfront).1 (htree'.hasDir hfok (mem_replaced.2 (.inr ⟨e, he, rfl⟩)) hbelow)
    obtain ⟨f, hf, rfl⟩ := hget hfront hd
    have hnames := (keyOf_inj (hok f hf) hfok).1 ((hrecord f hf).symm.trans (path_of_get hd))
    exact ⟨f, hf, by rw [← hnames, List.intercalate_splitOn]⟩
  · intro hlisted
    refine isTree_iff.2 ⟨hkeys', fun r hr => ?_, fun r hr above name hname hpath => ?_, fun r hr hkind => ?_⟩
    · obtain ⟨hr, hbelow⟩ := mem_below.1 hr
      obtain ⟨e, he, rfl⟩ := (mem_replaced.1 hr).resolve_left fun h => h.2 (hroot ▸ hbelow)
      exact ⟨_, List.splitOn_ne_nil slash _, hok e he, hrecord e he⟩
    · rcases eq_or_ne above [] with rfl | hne
      · exact .inl keyOf_nil
      obtain ⟨e, he, rfl⟩ : ∃ e ∈ entries, r = e.planned.record now storageRoot :=
        hget (by simp) (hpath ▸ get_of_mem hkeys' hr)
      have hnames := (keyOf_inj (hok e he) hname).1 ((hrecord e he).symm.trans hpath)
      have habove : [slash].intercalate above ∈ pathsAbove e.relPath :=
        pathsAbove_iff.2 ⟨above, [name], hne, List.cons_ne_nil _ _, hnames, rfl⟩
      obtain ⟨f, hf, hrel⟩ := hlisted e he _ habove
      have hdir := hentries.tree e he f hf (hrel ▸ habove)
      have hsplit : f.relPath.splitOn slash = above := by
        rw [hrel, List.splitOn_intercalate slash (unslashed_of_ok hname.left) hne]
      have hfile := get_of_mem hkeys' (mem_replaced.2 (.inr ⟨f, hf, rfl⟩) : f.planned.record now storageRoot ∈ replaced now entries files)
      rw [hrecord f hf, hsplit] at hfile
      exact .inr ⟨_, hfile, hdir⟩
    · rcases mem_replaced.1 hr with ⟨hr, _⟩ | ⟨e, he, rfl⟩
      · exact hempty r hr hkind
      · exact if_pos hkind

end Fits

/-! ## Runs -/

section Runs

variable {db db' : Database} {c : Call}

theorem next_eq (h : c.apply db = .ok db') : next db c = db' := by
  unfold next
  rw [h]

theorem next_error {e : OpError} (h : c.apply db = .error e) : next db c = db := by
  unfold next
  rw [h]

theorem map_ok {ε α β : Type} {x : Except ε α} {f : α → β} {b : β} (h : x.map f = .ok b) : ∃ a, x = .ok a ∧ b = f a := by
  cases x with
  | error e => cases h
  | ok a => exact ⟨a, rfl, (Except.ok.inj h).symm⟩

/-- What a mutation that goes through leaves. -/
theorem apply_ok (h : c.apply db = .ok db') : db'.revision = db.revision + 1 ∧
    match c.op with
    | .write path content => db'.files = write c.now path content db.files
    | .mkdir path => db'.files = put db.files ⟨path, [], true, c.now⟩
    | .delete path => db'.files = delete path db.files
    | .rename src dst => rename src dst db.files = .ok db'.files
    | .add path content => get db.files path = none ∧ db'.files = put db.files ⟨path, content.getD [], content.isNone, c.now⟩
    | .replaceTree entries expected =>
      Replaceable entries ∧ (∀ r ∈ expected, db.revision = r) ∧ db'.files = replaced c.now entries db.files := by
  obtain ⟨now, op⟩ := c
  cases op with
  | write path content => exact Except.ok.inj h ▸ ⟨rfl, rfl⟩
  | mkdir path => exact Except.ok.inj h ▸ ⟨rfl, rfl⟩
  | delete path => exact Except.ok.inj h ▸ ⟨rfl, rfl⟩
  | rename src dst =>
    obtain ⟨files', hok, rfl⟩ := map_ok h
    exact ⟨rfl, hok⟩
  | add path content =>
    obtain ⟨files', hok, rfl⟩ := map_ok h
    exact ⟨rfl, add_ok.1 hok⟩
  | replaceTree entries expected =>
    cases hok : replaceTree now storageRoot entries expected db with
    | error e =>
      simp only [Call.apply, hok] at h
      cases h
    | ok done =>
      simp only [Call.apply, hok] at h
      obtain rfl := Except.ok.inj h
      obtain ⟨hentries, hrevision, rfl⟩ := replaceTree_ok.1 hok
      exact ⟨rfl, hentries, hrevision, rfl⟩

/-- A mutation that goes through leaves a tree a tree just where it fits. -/
theorem isTree_next_iff (htree : IsTree db.files) (hnamed : c.op.Named) :
    IsTree (next db c).files ↔ ∀ db', c.apply db = .ok db' → c.op.Fits db.files := by
  cases happly : c.apply db with
  | error e => exact iff_of_true ((next_error happly).symm ▸ htree) nofun
  | ok db' =>
    have hall : (∀ d, Except.ok db' = (Except.ok d : Except OpError Database) → c.op.Fits db.files) ↔ c.op.Fits db.files :=
      ⟨fun h => h db' rfl, fun h _ _ => h⟩
    rw [next_eq happly, hall]
    obtain ⟨_, hfiles⟩ := apply_ok happly
    obtain ⟨now, op⟩ := c
    cases op with
    | write path content => exact hfiles ▸ isTree_write_iff htree hnamed
    | mkdir path => exact hfiles ▸ isTree_put_iff htree hnamed (.inl ⟨rfl, rfl⟩)
    | delete path => exact iff_of_true (hfiles ▸ isTree_delete htree hnamed) trivial
    | rename src dst => exact isTree_rename_iff htree hnamed.1 hnamed.2 hfiles
    | add path content =>
      refine hfiles.2 ▸ isTree_put_iff htree hnamed ?_
      cases content with
      | none => exact .inl ⟨rfl, rfl⟩
      | some bytes => exact .inr ⟨rfl, hfiles.1⟩
    | replaceTree entries expected => exact hfiles.2.2 ▸ isTree_replaced_iff htree hfiles.1 hnamed

/-- Over a run, the records are a tree all along just where every mutation that goes through fits the tree it finds. -/
theorem isTree_run_iff (htree : IsTree db.files) (calls : List Call) :
    Always next (fun db c => c.op.Named ∧ IsTree (next db c).files) db calls ↔
      Always next (fun db c => c.op.Named ∧ ∀ db', c.apply db = .ok db' → c.op.Fits db.files) db calls := by
  refine @always_iff _ _ next _ _ (fun db => IsTree db.files) (fun db c hdb => ?_) (fun db c _ h => h.2) calls db htree
  exact and_congr_right fun hnamed => isTree_next_iff hdb hnamed

/-- The last one moves a directory into itself. -/
def drafts : List Call :=
  [⟨1, .add (ascii "/buffer/a") none⟩, ⟨2, .write (ascii "/buffer/a/x") [7]⟩, ⟨3, .rename (ascii "/buffer/a") (ascii "/buffer/a/b")⟩]

theorem isTree_drafts_iff : Always next (fun db c => c.op.Named ∧ IsTree (next db c).files) ⟨[], 0⟩ drafts ↔
    Always next (fun db c => c.op.Named ∧ ∀ db', c.apply db = .ok db' → c.op.Fits db.files) ⟨[], 0⟩ drafts :=
  isTree_run_iff (isTree_iff.2 (by simp [below])) drafts

theorem isTree_foldl : ∀ {calls : List Call} {db : Database}, IsTree db.files →
    Always next (fun db c => c.op.Named ∧ ∀ db', c.apply db = .ok db' → c.op.Fits db.files) db calls → IsTree (calls.foldl next db).files
  | [], _, htree, _ => htree
  | c :: calls, db, htree, h => @isTree_foldl calls (next db c) ((isTree_next_iff htree h.1.1).2 h.1.2) h.2

/-- What the pane lists after a run of mutations that fit is what is stored, each record once. -/
theorem listed_of_run {localeCompare : Units → Units → Int} (htree : IsTree db.files) {calls : List Call} {fuel : Nat}
    (h : Always next (fun db c => c.op.Named ∧ ∀ db', c.apply db = .ok db' → c.op.Fits db.files) db calls)
    (hfuel : (calls.foldl next db).files.length < fuel) :
    (flatAll (listTreeUnder localeCompare (calls.foldl next db).files fuel storageRoot)).Perm
      ((below (calls.foldl next db).files storageRoot).map fun r => (r.path, r.isDirectory)) := by
  obtain ⟨tree, hfiles⟩ := isTree_foldl htree h
  rw [← hfiles] at hfuel ⊢
  rw [← keyOf_nil]
  exact flat_listTreeUnder namesOk_nil (lt_of_le_of_lt (List.length_filter_le _ _) hfuel)

theorem listed_restored : (flatAll (listTreeUnder (fun _ _ => 0) [⟨ascii "/buffer/n", [1], false, 9⟩] 2 storageRoot)).Perm
    [(ascii "/buffer/n", false)] :=
  @listed_of_run ⟨[], 0⟩ _ (isTree_iff.2 (by simp [below])) [⟨9, .replaceTree [⟨ascii "n", false, some [1]⟩] none⟩] 2
    ⟨⟨by simp [Op.Named]; decide, fun _ _ => by simp [Op.Fits]; decide⟩, trivial⟩ (by decide)

/-! ## The revision -/

theorem next_cases (db : Database) (c : Call) : next db c = db ∨ (next db c).revision = db.revision + 1 := by
  cases happly : c.apply db with
  | error e => exact .inl (next_error happly)
  | ok db' => exact .inr (next_eq happly ▸ (apply_ok happly).1)

/-- The revision only grows, and as long as it does not nothing has changed. -/
theorem revision_run : ∀ (calls : List Call) (db : Database),
    db.revision ≤ (calls.foldl next db).revision ∧ ((calls.foldl next db).revision = db.revision → calls.foldl next db = db)
  | [], db => ⟨Int.le_refl _, fun _ => rfl⟩
  | c :: calls, db => by
    obtain ⟨hle, hsame⟩ := revision_run calls (next db c)
    rw [List.foldl_cons]
    rcases next_cases db c with heq | hgrown
    · rw [heq] at hle hsame ⊢
      exact ⟨hle, hsame⟩
    · refine ⟨by omega, fun h => ?_⟩
      omega

/-- A restore that goes through at a revision that was read earlier replaces the tree of that time, whatever was done in between. -/
theorem replaceTree_guarded {calls : List Call} {now : Int} {entries : List ReplaceEntry}
    (h : (Call.mk now (.replaceTree entries (some db.revision))).apply (calls.foldl next db) = .ok db') :
    calls.foldl next db = db ∧ db' = ⟨replaced now entries db.files, db.revision + 1⟩ := by
  obtain ⟨hrevision, hentries, hexpected, hfiles⟩ := apply_ok h
  have hsame := (revision_run calls db).2 (hexpected _ rfl)
  rw [hsame] at hrevision hfiles
  refine ⟨hsame, ?_⟩
  cases db'
  simp_all

theorem replaceTree_missed : [Call.mk 8 (.rename (ascii "/buffer/q") (ascii "/buffer/z"))].foldl next ⟨[], 4⟩ = ⟨[], 4⟩ ∧
    (⟨[⟨ascii "/buffer/n", [1], false, 9⟩], 5⟩ : Database) = ⟨replaced 9 [⟨ascii "n", false, some [1]⟩] [], 4 + 1⟩ :=
  @replaceTree_guarded ⟨[], 4⟩ _ [⟨8, .rename (ascii "/buffer/q") (ascii "/buffer/z")⟩] 9 [⟨ascii "n", false, some [1]⟩] rfl

end Runs

end Purdex.InApp
