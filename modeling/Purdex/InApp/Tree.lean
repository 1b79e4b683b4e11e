/-
The tree that is kept in the In-App storage, and the walk that lists it.
-/
import Purdex.InApp.Store
import Mathlib.Data.List.Induction

namespace Purdex.InApp

open Utf16

/-! ## Trees -/

/-- The records below a path. -/
def below (files : List StoredFile) (path : Units) : List StoredFile := files.filter (path ++ [slash] <+: ·.path)

/-- Records of which those below the root are a tree: each has its names and lies in a directory. -/
structure FileTree where
  files : List StoredFile
  keys : (files.map (·.path)).Nodup
  named : ∀ r ∈ below files storageRoot, ∃ names, names ≠ [] ∧ (∀ name ∈ names, NameOk name) ∧ r.path = keyOf names
  nested : ∀ r ∈ files, ∀ above name, above ≠ [] → r.path = keyOf (above ++ [name]) → ∃ d ∈ files, d.path = keyOf above ∧ d.isDirectory = true
  empty : ∀ r ∈ files, r.isDirectory = true → r.content = []

/-! ## The walk -/

inductive TreeNode where
  | node (path name : Units) (isDir : Bool) (size : Nat) (children : List TreeNode)

def TreeNode.name : TreeNode → Units
  | .node _ name _ _ _ => name

def TreeNode.isDir : TreeNode → Bool
  | .node _ _ isDir _ _ => isDir

def sortNodes (localeCompare : Units → Units → Int) (nodes : List TreeNode) : List TreeNode :=
  nodes.mergeSort (dirsFirst localeCompare TreeNode.isDir TreeNode.name)

/-- Everything below `root`, as deep as the fuel goes. -/
def listTreeUnder (localeCompare : Units → Units → Int) (files : List StoredFile) : Nat → Units → List TreeNode
  | 0, _ => []
  | fuel + 1, root =>
    sortNodes localeCompare ((list localeCompare files root).map fun entry =>
      let path := join [root, entry.name]
      .node path entry.name entry.isDir entry.size (if entry.isDir then listTreeUnder localeCompare files fuel path else []))

mutual

/-- The paths of a node and of what is below it, depth first. -/
def TreeNode.flat : TreeNode → List (Units × Bool)
  | .node path _ isDir _ children => (path, isDir) :: if isDir then flatAll children else []

def flatAll : List TreeNode → List (Units × Bool)
  | [] => []
  | node :: rest => node.flat ++ flatAll rest

end

theorem flatAll_eq : ∀ nodes : List TreeNode, flatAll nodes = nodes.flatMap TreeNode.flat
  | [] => rfl
  | node :: rest => by rw [flatAll, flatAll_eq rest, List.flatMap_cons]

/-! ## Children -/

section Children

variable {files : List StoredFile} {front path name : Units}

theorem after_eq_some {text rest : Units} : after front text = some rest ↔ text = front ++ rest := by
  unfold after
  split
  · rename_i hfront
    obtain ⟨more, rfl⟩ := hfront
    rw [List.drop_left, Option.some.injEq, List.append_cancel_left_eq, eq_comm]
  · rename_i hfront
    exact ⟨nofun, fun h => absurd ⟨rest, h.symm⟩ hfront⟩

/-- A record right below a prefix. -/
def Child (front : Units) (r : StoredFile) : Prop := ∃ name ∈ after front r.path, slash ∉ name

instance (front : Units) (r : StoredFile) : Decidable (Child front r) :=
  inferInstanceAs (Decidable (∃ name ∈ after front r.path, _))

def StoredFile.entry (front : Units) (r : StoredFile) : FileEntry :=
  ⟨r.path.drop front.length, r.isDirectory, r.content.length⟩

/-- No name is met twice where no key is. -/
theorem childrenOf_eq : ∀ {files : List StoredFile} {seen : List Units}, (files.map (·.path)).Nodup →
    (∀ r ∈ files, ∀ name ∈ seen, r.path ≠ front ++ name) →
    childrenOf front seen files = (files.filter (Child front)).map (StoredFile.entry front)
  | [], _, _, _ => rfl
  | r :: rest, seen, hkeys, hseen => by
    rw [List.map_cons, List.nodup_cons] at hkeys
    obtain ⟨hr, hrest⟩ := List.forall_mem_cons.1 hseen
    rw [childrenOf, List.filter_cons]
    cases hafter : after front r.path with
    | none =>
      have hnot : ¬Child front r := fun ⟨_, hname, _⟩ => by
        rw [hafter] at hname
        cases hname
      rw [if_neg (by simpa using hnot), childrenOf_eq hkeys.2 hrest]
    | some name =>
      have hpath := after_eq_some.1 hafter
      have hfresh : name ∉ seen := fun hmem => hr name hmem hpath
      by_cases hslash : slash ∈ name
      · have hnot : ¬Child front r := fun ⟨_, hname, hunslashed⟩ => by
          obtain rfl := Option.some.inj (hafter.symm.trans hname)
          exact hunslashed hslash
        simp only [hslash, true_or, if_true]
        rw [if_neg (by simpa using hnot), childrenOf_eq hkeys.2 hrest]
      · have hchild : Child front r := ⟨name, hafter, hslash⟩
        have hentry : StoredFile.entry front r = ⟨name, r.isDirectory, r.content.length⟩ := by
          rw [StoredFile.entry, hpath, List.drop_left]
        simp only [hslash, hfresh, or_self, if_false]
        rw [if_pos (by simpa using hchild), List.map_cons, hentry, childrenOf_eq hkeys.2]
        intro r' hr' name' hname' heq
        rcases List.mem_cons.1 hname' with rfl | hname'
        · exact hkeys.1 (List.mem_map.2 ⟨r', hr', heq.trans hpath.symm⟩)
        · exact hrest r' hr' name' hname' heq

end Children

/-! ## What the walk lists -/

section Walk

variable {tree : FileTree} {above : List Units} {r : StoredFile}

theorem withSlash_keyOf (h : ∀ name ∈ above, NameOk name) : withSlash (keyOf above) = keyOf above ++ [slash] := by
  refine if_neg fun hsuffix => ?_
  have hlast : (keyOf above).getLast? = some slash := by
    obtain ⟨front, heq⟩ := hsuffix
    rw [← heq, List.getLast?_concat]
  rcases List.eq_nil_or_concat above with rfl | ⟨init, name, rfl⟩
  · exact absurd hlast (by decide)
  · rw [List.concat_eq_append] at h hlast
    have hname := h name (List.mem_append_right _ List.mem_cons_self)
    have htail : (slash :: name).getLast? = name.getLast? := List.getLast?_cons_of_ne_nil hname.nonempty
    rw [keyOf_concat, List.getLast?_append_of_ne_nil _ (List.cons_ne_nil _ _), htail] at hlast
    exact hname.unslashed (List.mem_of_getLast? hlast)

theorem mem_below {files : List StoredFile} {path : Units} : r ∈ below files path ↔ r ∈ files ∧ path ++ [slash] <+: r.path := by
  simp [below]

/-- What lies below a directory has the names of the directory in front of its own. -/
theorem names_of_mem_below (h : ∀ name ∈ above, NameOk name) (hr : r ∈ below tree.files (keyOf above)) :
    ∃ more, more ≠ [] ∧ (∀ name ∈ more, NameOk name) ∧ r.path = keyOf (above ++ more) := by
  obtain ⟨hmem, rest, hpath⟩ := mem_below.1 hr
  rw [List.append_assoc, List.singleton_append] at hpath
  have hroot : r ∈ below tree.files storageRoot := by
    refine mem_below.2 ⟨hmem, ?_⟩
    rcases List.eq_nil_or_concat above with rfl | ⟨init, name, rfl⟩
    · rw [keyOf_nil] at hpath
      exact ⟨rest, by rw [List.append_assoc, List.singleton_append, hpath]⟩
    · have hne : init.concat name ≠ [] := by simp
      rw [keyOf_eq hne] at hpath
      exact ⟨[slash].intercalate (init.concat name) ++ slash :: rest, by simpa using hpath⟩
  obtain ⟨names, hne, hnames, heq⟩ := tree.named r hroot
  have hsplit : names = above ++ rest.splitOn slash :=
    names_of_below (fun name hname => (hnames name hname).unslashed) (fun name hname => (h name hname).unslashed) (heq.symm.trans hpath.symm)
  refine ⟨rest.splitOn slash, List.splitOn_ne_nil slash rest, fun name hname => hnames name ?_, hsplit ▸ heq⟩
  rw [hsplit]
  exact List.mem_append_right _ hname

theorem mem_below_of_names {more : List Units} (hr : r ∈ tree.files) (hne : more ≠ []) (hpath : r.path = keyOf (above ++ more)) :
    r ∈ below tree.files (keyOf above) := by
  refine mem_below.2 ⟨hr, [slash].intercalate more, ?_⟩
  rw [hpath, keyOf_append hne, List.append_assoc, List.singleton_append]

theorem child_iff (h : ∀ name ∈ above, NameOk name) (hr : r ∈ tree.files) : Child (keyOf above ++ [slash]) r ↔
    ∃ name, NameOk name ∧ r.path = keyOf (above ++ [name]) := by
  constructor
  · rintro ⟨name, hname, hunslashed⟩
    have hpath := after_eq_some.1 hname
    obtain ⟨more, _, hmore, heq⟩ := names_of_mem_below h (mem_below.2 ⟨hr, name, hpath.symm⟩)
    have hnames : ∀ n ∈ above ++ more, slash ∉ n := fun n hn => by
      rcases List.mem_append.1 hn with hn | hn
      · exact (h n hn).unslashed
      · exact (hmore n hn).unslashed
    rw [List.append_assoc, List.singleton_append] at hpath
    have hsplit := names_of_below hnames (fun n hn => (h n hn).unslashed) (heq.symm.trans hpath)
    rw [List.splitOn_eq_singleton hunslashed] at hsplit
    obtain rfl := List.append_cancel_left hsplit
    exact ⟨name, hmore name List.mem_cons_self, heq⟩
  · rintro ⟨name, hname, hpath⟩
    refine ⟨name, after_eq_some.2 ?_, hname.unslashed⟩
    rw [hpath, keyOf_concat, List.append_assoc, List.singleton_append]

/-- The directories above whatever is in the tree are in it. -/
theorem directory_above {front : List Units} (hfront : front ≠ []) : ∀ {back : List Units}, back ≠ [] → ∀ {r : StoredFile}, r ∈ tree.files →
    r.path = keyOf (front ++ back) → ∃ d ∈ tree.files, d.path = keyOf front ∧ d.isDirectory = true := by
  intro back
  induction back using List.reverseRecOn with
  | nil => exact fun hne => absurd rfl hne
  | append_singleton back name ih =>
    intro _ r hr hpath
    rw [← List.append_assoc] at hpath
    obtain ⟨d, hd, hkey, hdir⟩ := tree.nested r hr _ name (List.append_ne_nil_of_left_ne_nil hfront _) hpath
    rcases eq_or_ne back [] with rfl | hne
    · rw [List.append_nil] at hkey
      exact ⟨d, hd, hkey, hdir⟩
    · exact ih hne hd hkey

theorem eq_of_path {r' : StoredFile} (hr : r ∈ tree.files) (hr' : r' ∈ tree.files) (h : r.path = r'.path) : r = r' :=
  List.inj_on_of_nodup_map tree.keys hr hr' h

/-- The records right below a directory. -/
def children (tree : FileTree) (above : List Units) : List StoredFile := tree.files.filter (Child (keyOf above ++ [slash]))

/-- What is below a directory is its children with what is below them. -/
theorem below_perm (h : ∀ name ∈ above, NameOk name) :
    ((children tree above).flatMap fun c => c :: below tree.files c.path).Perm (below tree.files (keyOf above)) := by
  have hchild : ∀ c ∈ children tree above, c ∈ tree.files ∧ ∃ name, NameOk name ∧ c.path = keyOf (above ++ [name]) := fun c hc =>
    have ⟨hmem, hc⟩ := List.mem_filter.1 hc
    ⟨hmem, (child_iff h hmem).1 (of_decide_eq_true hc)⟩
  have hok : ∀ {name}, NameOk name → ∀ n ∈ above ++ [name], NameOk n := fun hname n hn => by
    rcases List.mem_append.1 hn with hn | hn
    · exact h n hn
    · exact List.mem_singleton.1 hn ▸ hname
  -- a record below two children has the name of both behind those of the directory
  have hhead : ∀ {c x}, c ∈ children tree above → x ∈ c :: below tree.files c.path →
      ∃ name more, (∀ n ∈ name :: more, NameOk n) ∧ c.path = keyOf (above ++ [name]) ∧ x.path = keyOf (above ++ name :: more) := by
    intro c x hc hx
    obtain ⟨_, name, hname, hpath⟩ := hchild c hc
    rcases List.mem_cons.1 hx with rfl | hx
    · exact ⟨name, [], List.forall_mem_cons.2 ⟨hname, by simp⟩, hpath, hpath⟩
    · rw [hpath] at hx
      obtain ⟨more, _, hmore, heq⟩ := names_of_mem_below (hok hname) hx
      refine ⟨name, more, List.forall_mem_cons.2 ⟨hname, hmore⟩, hpath, ?_⟩
      rw [heq, List.append_assoc, List.singleton_append]
  have hnodup := List.Nodup.of_map _ tree.keys
  refine (List.perm_ext_iff_of_nodup (List.nodup_flatMap.2 ⟨fun c hc => ?_, ?_⟩) (hnodup.filter _)).2 fun x => ?_
  · refine List.nodup_cons.2 ⟨fun hself => ?_, hnodup.filter _⟩
    obtain ⟨rest, hrest⟩ := (mem_below.1 hself).2
    have hlength := congrArg List.length hrest
    simp only [List.length_append, List.length_singleton] at hlength
    omega
  · refine (hnodup.filter _).imp_of_mem fun {c c'} hc hc' hne => ?_
    intro x hx hx'
    obtain ⟨name, more, hnames, hpath, hxpath⟩ := hhead hc hx
    obtain ⟨name', more', hnames', hpath', hxpath'⟩ := hhead hc' hx'
    have hunslashed : ∀ {name more}, (∀ n ∈ name :: more, NameOk n) → ∀ n ∈ above ++ name :: more, slash ∉ n := fun hn n hmem => by
      rcases List.mem_append.1 hmem with hmem | hmem
      · exact (h n hmem).unslashed
      · exact (hn n hmem).unslashed
    have hsame := List.append_cancel_left (keyOf_injective (hunslashed hnames) (hunslashed hnames') (hxpath.symm.trans hxpath'))
    obtain ⟨rfl, _⟩ := List.cons.inj hsame
    exact hne (eq_of_path (hchild c hc).1 (hchild c' hc').1 (hpath.trans hpath'.symm))
  · rw [List.mem_flatMap]
    constructor
    · rintro ⟨c, hc, hx⟩
      obtain ⟨name, more, _, _, hxpath⟩ := hhead hc hx
      have hmem : x ∈ tree.files := by
        rcases List.mem_cons.1 hx with rfl | hx
        · exact (hchild x hc).1
        · exact (mem_below.1 hx).1
      exact mem_below_of_names hmem (List.cons_ne_nil _ _) hxpath
    · intro hx
      obtain ⟨more, hne, hmore, hpath⟩ := names_of_mem_below h hx
      have hmem := (mem_below.1 hx).1
      cases more with
      | nil => exact absurd rfl hne
      | cons name more =>
        obtain ⟨hname, _⟩ := List.forall_mem_cons.1 hmore
        rcases eq_or_ne more [] with rfl | hdeep
        · exact ⟨x, List.mem_filter.2 ⟨hmem, decide_eq_true ((child_iff h hmem).2 ⟨name, hname, hpath⟩)⟩, List.mem_cons_self⟩
        · have hsplit : above ++ name :: more = (above ++ [name]) ++ more := by rw [List.append_assoc, List.singleton_append]
          rw [hsplit] at hpath
          obtain ⟨d, hd, hkey, _⟩ := directory_above (List.append_ne_nil_of_right_ne_nil _ (List.cons_ne_nil _ _)) hdeep hmem hpath
          refine ⟨d, List.mem_filter.2 ⟨hd, decide_eq_true ((child_iff h hd).2 ⟨name, hname, hkey⟩)⟩, List.mem_cons_of_mem _ ?_⟩
          rw [hkey]
          exact mem_below_of_names hmem hdeep hpath

/-- Nothing is below a file. -/
theorem below_file {name : Units} (h : ∀ n ∈ above ++ [name], NameOk n) (hr : r ∈ tree.files) (hpath : r.path = keyOf (above ++ [name]))
    (hfile : r.isDirectory = false) : below tree.files r.path = [] := by
  refine List.eq_nil_iff_forall_not_mem.2 fun x hx => ?_
  rw [hpath] at hx
  obtain ⟨more, hne, _, heq⟩ := names_of_mem_below h hx
  obtain ⟨d, hd, hkey, hdir⟩ := directory_above (List.append_ne_nil_of_right_ne_nil _ (List.cons_ne_nil _ _)) hne (mem_below.1 hx).1 heq
  rw [eq_of_path hd hr (hkey.trans hpath.symm), hfile] at hdir
  cases hdir

theorem length_below_lt (hr : r ∈ below tree.files (keyOf above)) : (below tree.files r.path).length < (below tree.files (keyOf above)).length := by
  obtain ⟨hmem, front, hpath⟩ := mem_below.1 hr
  have hsub : (below tree.files r.path).Sublist (below tree.files (keyOf above)) := by
    refine List.monotone_filter_right _ fun x hx => ?_
    obtain ⟨rest, hrest⟩ := of_decide_eq_true hx
    refine decide_eq_true ⟨front ++ slash :: rest, ?_⟩
    rw [← hrest, ← hpath]
    simp
  refine Nat.lt_of_le_of_ne hsub.length_le fun heq => ?_
  have hself : r ∈ below tree.files r.path := (hsub.eq_of_length heq).symm ▸ hr
  obtain ⟨rest, hrest⟩ := (mem_below.1 hself).2
  have hlength := congrArg List.length hrest
  simp only [List.length_append, List.length_singleton] at hlength
  omega

variable {localeCompare : Units → Units → Int}

/-- With fuel for every record, the walk lists what is below a directory, each record once. -/
theorem flat_listTreeUnder : ∀ {fuel : Nat} {above : List Units}, (∀ name ∈ above, NameOk name) →
    (below tree.files (keyOf above)).length < fuel →
    (flatAll (listTreeUnder localeCompare tree.files fuel (keyOf above))).Perm
      ((below tree.files (keyOf above)).map fun r => (r.path, r.isDirectory))
  | 0, _, _, hfuel => absurd hfuel (Nat.not_lt_zero _)
  | fuel + 1, above, h, hfuel => by
    have hlist : (list localeCompare tree.files (keyOf above)).Perm
        ((children tree above).map (StoredFile.entry (keyOf above ++ [slash]))) := by
      rw [list, withSlash_keyOf h, childrenOf_eq tree.keys fun _ _ _ hmem => absurd hmem List.not_mem_nil]
      exact List.mergeSort_perm _ _
    rw [flatAll_eq, listTreeUnder, sortNodes]
    refine ((List.mergeSort_perm _ _).flatMap_right _).trans (((hlist.map _).flatMap_right _).trans ?_)
    refine List.Perm.trans ?_ ((below_perm h).map _)
    rw [List.map_map, List.flatMap_map, List.map_flatMap]
    refine List.Perm.flatMap_left _ fun c hc => ?_
    obtain ⟨hmem, hchild⟩ := List.mem_filter.1 hc
    obtain ⟨name, hname, hpath⟩ := (child_iff h hmem).1 (of_decide_eq_true hchild)
    have hok : ∀ n ∈ above ++ [name], NameOk n := fun n hn => by
      rcases List.mem_append.1 hn with hn | hn
      · exact h n hn
      · exact List.mem_singleton.1 hn ▸ hname
    have hentry : StoredFile.entry (keyOf above ++ [slash]) c = ⟨name, c.isDirectory, c.content.length⟩ := by
      have hkey : c.path = (keyOf above ++ [slash]) ++ name := by rw [hpath, keyOf_concat, List.append_assoc, List.singleton_append]
      rw [StoredFile.entry, hkey, List.drop_left]
    have hbelow : c ∈ below tree.files (keyOf above) := mem_below_of_names hmem (List.cons_ne_nil _ _) hpath
    simp only [Function.comp_apply, hentry, join_name h hname, TreeNode.flat, List.map_cons, ← hpath]
    refine List.Perm.cons _ ?_
    cases hdir : c.isDirectory with
    | true =>
      rw [if_pos rfl, if_pos rfl, hpath]
      exact flat_listTreeUnder hok (hpath ▸ Nat.lt_of_lt_of_le (length_below_lt hbelow) (Nat.le_of_lt_succ hfuel))
    | false =>
      rw [if_neg (by decide), below_file hok hmem hpath hdir]
      exact List.Perm.nil

end Walk

end Purdex.InApp
