/-
File trees as their directories are listed, and `filepath.WalkDir`: which leaves a walk gets to when the function that it calls skips some
directories, or stops it.
-/
import Purdex.Files.Lexical

namespace Files

/-! ## Trees -/

mutual

/-- What is at a path. Of a directory that could not be read to its end some entries are read, and some are there all the same. -/
inductive Node (ι : Type)
  | leaf (info : ι)
  | dir (entries : Listing ι)
  | broken (read missed : Listing ι)

inductive Listing (ι : Type)
  | nil
  | cons (name : String) (node : Node ι) (rest : Listing ι)

end

variable {ι σ ε : Type}

def Listing.toList : Listing ι → List (String × Node ι)
  | .nil => []
  | .cons name node rest => (name, node) :: rest.toList

/-- What is in a directory. -/
def Node.children : Node ι → List (String × Node ι)
  | .leaf _ => []
  | .dir entries => entries.toList
  | .broken read missed => read.toList ++ missed.toList

/-- What is read of it. -/
def Node.listed : Node ι → List (String × Node ι)
  | .leaf _ => []
  | .dir entries => entries.toList
  | .broken read _ => read.toList

/-- Where the names lead from a node, from one to a child of it each time. -/
inductive At (children : Node ι → List (String × Node ι)) : Node ι → List String → Node ι → Prop
  | here {node : Node ι} : At children node [] node
  | down {node child dest : Node ι} {name : String} {names : List String} : (name, child) ∈ children node → At children child names dest →
      At children node (name :: names) dest

mutual

/-- The entries of a directory have names, and not two of them the same. -/
def Node.Valid : Node ι → Prop
  | .leaf _ => True
  | .dir entries => entries.Valid ∧ (entries.toList.map Prod.fst).Nodup
  | .broken read missed => read.Valid ∧ missed.Valid ∧ ((read.toList ++ missed.toList).map Prod.fst).Nodup

def Listing.Valid : Listing ι → Prop
  | .nil => True
  | .cons name node rest => Named name ∧ node.Valid ∧ rest.Valid

end

/-! ## Paths -/

/-- The last name of a path, which is a slash for the root. -/
def base (path : String) : String := (comps path).getLast?.getD "/"

/-! ## Walks -/

/-- What the function is called with: an entry, a directory that could not be read, or a root that is not there. -/
inductive Visit (ι : Type)
  | leaf (name : String) (info : ι)
  | dir (name : String)
  | unread (name : String)
  | missing

/-- What it returns. -/
inductive Verdict (ε : Type)
  | next
  | skipDir
  | skipAll
  | fail (err : ε)

abbrev WalkFunc (ι σ ε : Type) := String → Visit ι → σ → Verdict ε × σ

/-- To go on, unless it was skipped or is over. -/
def enter (r : Verdict ε × σ) (k : σ → Verdict ε × σ) : Verdict ε × σ :=
  match r with
  | (.next, s) => k s
  | (.skipDir, s) => (.next, s)
  | (.skipAll, s) => (.skipAll, s)
  | (.fail err, s) => (.fail err, s)

mutual

def walkNode (fn : WalkFunc ι σ ε) (path name : String) : Node ι → σ → Verdict ε × σ
  | .leaf info, s => fn path (.leaf name info) s
  | .dir entries, s => enter (fn path (.dir name) s) fun s' => walkListing fn path entries s'
  | .broken read _, s =>
    enter (fn path (.dir name) s) fun s' => enter (fn path (.unread name) s') fun s'' => walkListing fn path read s''

def walkListing (fn : WalkFunc ι σ ε) (path : String) : Listing ι → σ → Verdict ε × σ
  | .nil, s => (.next, s)
  | .cons name node rest, s => enter (walkNode fn (join path name) name node s) fun s' => walkListing fn path rest s'

end

/-- The error that ended it, and what is left of the state. -/
def walkDir (fn : WalkFunc ι σ ε) (lstat : String → Option (Node ι)) (root : String) (s : σ) : Option ε × σ :=
  let r := match lstat root with
    | some node => walkNode fn root (base root) node s
    | none => fn root .missing s
  match r with
  | (.fail err, s') => (some err, s')
  | (_, s') => (none, s')

structure Leaf (ι : Type) where
  path : String
  name : String
  info : ι

mutual

/-- The leaves in the order of a walk that goes past some directories. -/
def leaves (prune : String → String → Bool) (path name : String) : Node ι → List (Leaf ι)
  | .leaf info => [⟨path, name, info⟩]
  | .dir entries => if prune path name then [] else leavesOf prune path entries
  | .broken read _ => if prune path name then [] else leavesOf prune path read

def leavesOf (prune : String → String → Bool) (path : String) : Listing ι → List (Leaf ι)
  | .nil => []
  | .cons name node rest => leaves prune (join path name) name node ++ leavesOf prune path rest

end

def Verdict.Stops : Verdict ε → Prop
  | .skipAll | .fail _ => True
  | _ => False

/-- What a function does that skips these directories and looks at the leaves one by one: `R` of those seen holds as long as it goes
on, and `Q` where it has stopped. -/
structure Collects (fn : WalkFunc ι σ ε) (prune : String → String → Bool) (R : List (Leaf ι) → σ → Prop)
    (Q : Verdict ε → List (Leaf ι) → σ → Prop) : Prop where
  dir : ∀ path name seen s v s', R seen s → fn path (.dir name) s = (v, s') →
    (v = if prune path name then .skipDir else .next) ∧ R seen s' ∨ v.Stops ∧ Q v seen s'
  unread : ∀ path name seen s v s', R seen s → fn path (.unread name) s = (v, s') → v = .next ∧ R seen s' ∨ v.Stops ∧ Q v seen s'
  leaf : ∀ path name info seen s v s', R seen s → fn path (.leaf name info) s = (v, s') →
    v = .next ∧ R (seen ++ [⟨path, name, info⟩]) s' ∨ v.Stops ∧ ∃ l, l <+: [⟨path, name, info⟩] ∧ Q v (seen ++ l) s'

section Walking

variable {fn : WalkFunc ι σ ε} {prune : String → String → Bool} {R : List (Leaf ι) → σ → Prop} {Q : Verdict ε → List (Leaf ι) → σ → Prop}
  {seen : List (Leaf ι)} {s s' : σ} {v : Verdict ε}

theorem enter_stopped (hstop : v.Stops) (s : σ) (k : σ → Verdict ε × σ) : enter (v, s) k = (v, s) := by
  cases v with
  | next => exact hstop.elim
  | skipDir => exact hstop.elim
  | skipAll => rfl
  | fail err => rfl

/-- What a part of a walk does that would see these leaves. -/
def Collected (R : List (Leaf ι) → σ → Prop) (Q : Verdict ε → List (Leaf ι) → σ → Prop) (seen all : List (Leaf ι)) (r : Verdict ε × σ) : Prop :=
  r.1 = .next ∧ R (seen ++ all) r.2 ∨ r.1.Stops ∧ ∃ l, l <+: all ∧ Q r.1 (seen ++ l) r.2

/-- Behind a part that is done, or where it has stopped. -/
theorem Collected.enter {all rest : List (Leaf ι)} {r : Verdict ε × σ} {k : σ → Verdict ε × σ} (h : Collected R Q seen all r)
    (hk : ∀ s, R (seen ++ all) s → Collected R Q (seen ++ all) rest (k s)) : Collected R Q seen (all ++ rest) (enter r k) := by
  obtain ⟨v, s⟩ := r
  rcases h with ⟨rfl, hR⟩ | ⟨hstop, l, hl, hQ⟩
  · rcases hk s hR with ⟨hv, hR'⟩ | ⟨hstop, l, hl, hQ⟩
    · exact .inl ⟨hv, by rw [← List.append_assoc]; exact hR'⟩
    · refine .inr ⟨hstop, all ++ l, (List.prefix_append_right_inj all).2 hl, ?_⟩
      rw [← List.append_assoc]
      exact hQ
  · rw [enter_stopped hstop]
    exact .inr ⟨hstop, l, hl.trans (List.prefix_append all rest), hQ⟩

/-- Where it has stopped before any more leaf. -/
theorem collected_stopped {all : List (Leaf ι)} (hstop : v.Stops) (hQ : Q v seen s) : Collected R Q seen all (v, s) :=
  .inr ⟨hstop, [], List.nil_prefix, by rw [List.append_nil]; exact hQ⟩

/-- A directory is skipped, or gone through. -/
theorem Collects.enter (h : Collects fn prune R Q) {path name : String} {all : List (Leaf ι)} {k : σ → Verdict ε × σ} (hR : R seen s)
    (hk : ∀ s, R seen s → Collected R Q seen all (k s)) :
    Collected R Q seen (if prune path name then [] else all) (enter (fn path (.dir name) s) k) := by
  rcases hfn : fn path (.dir name) s with ⟨v, s'⟩
  rcases h.dir path name seen s v s' hR hfn with ⟨rfl, hR'⟩ | ⟨hstop, hQ⟩
  · split
    · exact .inl ⟨rfl, by rw [List.append_nil]; exact hR'⟩
    · exact hk s' hR'
  · rw [enter_stopped hstop]
    exact collected_stopped hstop hQ

mutual

/-- A walk sees the leaves that are not skipped in their order, all of them or up to where it has stopped. -/
theorem walkNode_collected (h : Collects fn prune R Q) : ∀ (node : Node ι) (path name : String) (seen : List (Leaf ι)) (s : σ), R seen s →
    Collected R Q seen (leaves prune path name node) (walkNode fn path name node s)
  | .leaf info, path, name, seen, s, hR => by
    rw [walkNode, leaves]
    exact h.leaf path name info seen s _ _ hR rfl
  | .dir entries, path, name, seen, s, hR => by
    rw [walkNode, leaves]
    exact h.enter hR fun s' hR' => walkListing_collected h entries path seen s' hR'
  | .broken read _, path, name, seen, s, hR => by
    rw [walkNode, leaves]
    refine h.enter hR fun s' hR' => ?_
    rcases hfn : fn path (.unread name) s' with ⟨v, s''⟩
    rcases h.unread path name seen s' v s'' hR' hfn with ⟨rfl, hR''⟩ | ⟨hstop, hQ⟩
    · exact walkListing_collected h read path seen s'' hR''
    · rw [enter_stopped hstop]
      exact collected_stopped hstop hQ

theorem walkListing_collected (h : Collects fn prune R Q) : ∀ (entries : Listing ι) (path : String) (seen : List (Leaf ι)) (s : σ), R seen s →
    Collected R Q seen (leavesOf prune path entries) (walkListing fn path entries s)
  | .nil, path, seen, s, hR => by
    rw [walkListing, leavesOf]
    exact .inl ⟨rfl, by rw [List.append_nil]; exact hR⟩
  | .cons name node rest, path, seen, s, hR => by
    rw [walkListing, leavesOf]
    exact (walkNode_collected h node (join path name) name seen s hR).enter fun s' hR' =>
      walkListing_collected h rest path _ s' hR'

end

end Walking

/-! ## Leaves -/

/-- None of the directories on the way is skipped. -/
def Passed (prune : String → String → Bool) (path name : String) (names : List String) : Prop :=
  ∀ before, before <+: names → before ≠ names → prune (pathAt path before) (before.getLast?.getD name) = false

section Leaves

variable {prune : String → String → Bool} {path name n : String} {names : List String} {node child dest : Node ι} {leaf : Leaf ι}
  {children : Node ι → List (String × Node ι)}

theorem passed_nil : Passed prune path name [] := fun _ hpre hne => absurd (List.prefix_nil.1 hpre) hne

theorem passed_cons : Passed prune path name (n :: names) ↔ prune path name = false ∧ Passed prune (join path n) n names := by
  constructor
  · intro h
    refine ⟨h [] List.nil_prefix (List.cons_ne_nil _ _).symm, fun before hpre hne => ?_⟩
    have hbefore := h (n :: before) (List.cons_prefix_cons.2 ⟨rfl, hpre⟩) (fun heq => hne (List.cons.inj heq).2)
    rw [List.getLast?_cons] at hbefore
    exact hbefore
  · rintro ⟨hself, hrest⟩ before hpre hne
    cases before with
    | nil => exact hself
    | cons n' before =>
      obtain ⟨rfl, hbehind⟩ := List.cons_prefix_cons.1 hpre
      have hbefore := hrest before hbehind (fun heq => hne (heq ▸ rfl))
      rw [List.getLast?_cons]
      exact hbefore

theorem at_nil : At children node [] dest ↔ dest = node := by
  constructor
  · rintro ⟨⟩
    rfl
  · rintro rfl
    exact .here

theorem at_cons : At children node (n :: names) dest ↔ ∃ child, (n, child) ∈ children node ∧ At children child names dest := by
  constructor
  · rintro (_ | ⟨hmem, hat⟩)
    exact ⟨_, hmem, hat⟩
  · rintro ⟨child, hmem, hat⟩
    exact .down hmem hat

/-- What is read is there. -/
theorem At.children_of_listed (h : At Node.listed node names dest) : At Node.children node names dest := by
  induction h with
  | here => exact .here
  | @down node _ _ _ _ hmem _ ih =>
    refine .down ?_ ih
    cases node with
    | leaf info => exact hmem
    | dir entries => exact hmem
    | broken read missed => exact List.mem_append_left _ hmem

/-- A leaf at the end of a way that is not skipped. -/
def Reached (prune : String → String → Bool) (path name : String) (node : Node ι) (leaf : Leaf ι) (names : List String) : Prop :=
  At Node.listed node names (.leaf leaf.info) ∧ leaf.path = pathAt path names ∧ leaf.name = names.getLast?.getD name ∧ Passed prune path name names

/-- The next name of the way. -/
theorem reached_cons : Reached prune path name node leaf (n :: names) ↔
    prune path name = false ∧ ∃ child, (n, child) ∈ node.listed ∧ Reached prune (join path n) n child leaf names := by
  unfold Reached
  rw [at_cons, passed_cons, List.getLast?_cons]
  constructor
  · rintro ⟨⟨child, hmem, hat⟩, hpath, hname, hself, hrest⟩
    exact ⟨hself, child, hmem, hat, hpath, hname, hrest⟩
  · rintro ⟨hself, child, hmem, hat, hpath, hname, hrest⟩
    exact ⟨⟨child, hmem, hat⟩, hpath, hname, hself, hrest⟩

theorem exists_reached (h : ∀ info, node ≠ .leaf info) : (∃ names, Reached prune path name node leaf names) ↔
    prune path name = false ∧ ∃ p ∈ node.listed, ∃ names, Reached prune (join path p.1) p.1 p.2 leaf names := by
  constructor
  · rintro ⟨names, hreached⟩
    cases names with
    | nil => exact absurd (at_nil.1 hreached.1).symm (h _)
    | cons n names =>
      obtain ⟨hself, child, hmem, hchild⟩ := reached_cons.1 hreached
      exact ⟨hself, (n, child), hmem, names, hchild⟩
  · rintro ⟨hself, ⟨n, child⟩, hmem, names, hchild⟩
    exact ⟨n :: names, reached_cons.2 ⟨hself, child, hmem, hchild⟩⟩

mutual

theorem mem_leaves (prune : String → String → Bool) (leaf : Leaf ι) : ∀ (node : Node ι) (path name : String),
    leaf ∈ leaves prune path name node ↔ ∃ names, Reached prune path name node leaf names
  | .leaf info, path, name => by
    rw [leaves, List.mem_singleton]
    constructor
    · rintro rfl
      exact ⟨[], .here, rfl, rfl, passed_nil⟩
    · rintro ⟨names, hat, hpath, hname, -⟩
      cases hat with
      | here =>
        obtain ⟨path', name', info'⟩ := leaf
        cases hpath
        cases hname
        rfl
      | down hmem _ => exact absurd hmem List.not_mem_nil
  | .dir entries, path, name => by
    rw [leaves, @exists_reached ι prune path name (.dir entries) leaf fun _ hleaf => nomatch hleaf]
    split
    · rename_i hprune
      simp [hprune]
    · rename_i hprune
      rw [mem_leavesOf prune leaf entries path]
      exact ⟨fun h => ⟨Bool.not_eq_true _ ▸ hprune, h⟩, And.right⟩
  | .broken read missed, path, name => by
    rw [leaves, @exists_reached ι prune path name (.broken read missed) leaf fun _ hleaf => nomatch hleaf]
    split
    · rename_i hprune
      simp [hprune]
    · rename_i hprune
      rw [mem_leavesOf prune leaf read path]
      exact ⟨fun h => ⟨Bool.not_eq_true _ ▸ hprune, h⟩, And.right⟩

theorem mem_leavesOf (prune : String → String → Bool) (leaf : Leaf ι) : ∀ (entries : Listing ι) (path : String),
    leaf ∈ leavesOf prune path entries ↔ ∃ p ∈ entries.toList, ∃ names, Reached prune (join path p.1) p.1 p.2 leaf names
  | .nil, path => by simp [leavesOf, Listing.toList]
  | .cons name node rest, path => by
    rw [leavesOf, List.mem_append, mem_leaves prune leaf node, mem_leavesOf prune leaf rest, Listing.toList]
    simp only [List.mem_cons, exists_eq_or_imp]

end

/-! ### Valid trees -/

theorem Listing.Valid.named : ∀ {entries : Listing ι}, entries.Valid → ∀ p ∈ entries.toList, Named p.1 ∧ p.2.Valid
  | .nil, _ => fun _ hp => absurd hp List.not_mem_nil
  | .cons _ _ _, ⟨hnamed, hnode, hrest⟩ => List.forall_mem_cons.2 ⟨⟨hnamed, hnode⟩, hrest.named⟩

theorem Node.Valid.named (h : node.Valid) : ∀ p ∈ node.children, Named p.1 ∧ p.2.Valid := by
  cases node with
  | leaf info => exact fun _ hp => absurd hp List.not_mem_nil
  | dir entries =>
    rw [Node.Valid] at h
    exact h.1.named
  | broken read missed =>
    rw [Node.Valid] at h
    exact List.forall_mem_append.2 ⟨h.1.named, h.2.1.named⟩

theorem At.named (h : At Node.children node names dest) (hvalid : node.Valid) : ∀ n ∈ names, Named n := by
  induction h with
  | here => exact fun _ hn => absurd hn List.not_mem_nil
  | down hmem _ ih =>
    obtain ⟨hnamed, hchild⟩ := hvalid.named _ hmem
    exact List.forall_mem_cons.2 ⟨hnamed, ih hchild⟩

theorem Reached.named (h : Reached prune path name node leaf names) (hvalid : node.Valid) : ∀ n ∈ names, Named n :=
  h.1.children_of_listed.named hvalid

mutual

/-- No leaf is seen twice. -/
theorem nodup_leaves (prune : String → String → Bool) : ∀ (node : Node ι) (path name : String), node.Valid →
    ((leaves prune path name node).map Leaf.path).Nodup
  | .leaf info, path, name, _ => by
    rw [leaves]
    exact List.pairwise_singleton _ _
  | .dir entries, path, name, hvalid => by
    rw [Node.Valid] at hvalid
    rw [leaves]
    split
    · exact List.nodup_nil
    · exact nodup_leavesOf prune entries path hvalid.1 hvalid.2
  | .broken read missed, path, name, hvalid => by
    rw [Node.Valid, List.map_append] at hvalid
    rw [leaves]
    split
    · exact List.nodup_nil
    · exact nodup_leavesOf prune read path hvalid.1 (List.nodup_append.1 hvalid.2.2).1

theorem nodup_leavesOf (prune : String → String → Bool) : ∀ (entries : Listing ι) (path : String), entries.Valid →
    (entries.toList.map Prod.fst).Nodup → ((leavesOf prune path entries).map Leaf.path).Nodup
  | .nil, path, _, _ => by
    rw [leavesOf]
    exact List.nodup_nil
  | .cons name node rest, path, hvalid, hnames => by
    rw [Listing.Valid] at hvalid
    obtain ⟨hname, hnode, hrest⟩ := hvalid
    rw [Listing.toList, List.map_cons, List.nodup_cons] at hnames
    rw [leavesOf, List.map_append, List.nodup_append]
    refine ⟨nodup_leaves prune node _ _ hnode, nodup_leavesOf prune rest path hrest hnames.2, fun a ha b hb hab => ?_⟩
    obtain ⟨leaf, hleaf, rfl⟩ := List.mem_map.1 ha
    obtain ⟨leaf', hleaf', rfl⟩ := List.mem_map.1 hb
    obtain ⟨names, hreached⟩ := (mem_leaves prune leaf node _ _).1 hleaf
    obtain ⟨⟨name', node'⟩, hmem, names', hreached'⟩ := (mem_leavesOf prune leaf' rest path).1 hleaf'
    obtain ⟨hname', hnode'⟩ := hrest.named _ hmem
    -- One path is below the first entry and the other below a later one, which has another name.
    have hpaths : pathAt path (name :: names) = pathAt path (name' :: names') := hreached.2.1.symm.trans (hab.trans hreached'.2.1)
    have hsame := pathAt_injective (List.forall_mem_cons.2 ⟨hname, hreached.named hnode⟩)
      (List.forall_mem_cons.2 ⟨hname', hreached'.named hnode'⟩) hpaths
    obtain ⟨rfl, -⟩ := List.cons.inj hsame
    exact hnames.1 (List.mem_map.2 ⟨_, hmem, rfl⟩)

end

end Leaves

end Files
