/-
What a search finds: files of the name only, each once for a root, and all of them unless the result says that it is partial.
-/
import Purdex.Fs.Search
import Mathlib

namespace Purdex.Fs

open Files

/-! ## What is promised -/

/-- A file at or below a root, by its names from there. -/
def FileAt (children : Node (Option FileInfo) → List (String × Node (Option FileInfo))) (disk : Disk) (root : SearchRoot)
    (names : List String) (info : FileInfo) : Prop :=
  ∃ node, disk.lstat root.absolute = some node ∧ At children node names (.leaf (some info))

def basenameAt (root : SearchRoot) (names : List String) : String := names.getLast?.getD (base root.absolute)

def matchAt (root : SearchRoot) (names : List String) (info : FileInfo) : SearchMatch :=
  ⟨pathAt root.absolute names, info.modTime, info.size, root.absolute⟩

/-- What is searched for, whatever the caller filters. -/
structure Sought (req : SearchRequest) (root : SearchRoot) (names : List String) : Prop where
  deep : ((names.length - 1 : Nat) : Int) ≤ req.maxDepth
  named : basenameAt root names = req.query.basename
  dirs : ∀ name ∈ names.dropLast, name ∉ mandatoryExcludeDirs
  globs : ∀ glob ∈ mandatoryExcludeBasenameGlobs, Glob.isMatch glob (basenameAt root names) = false

/-- What neither the caller nor the patterns of the root exclude. -/
structure Admitted (req : SearchRequest) (gi : Option (String → Bool)) (root : SearchRoot) (names : List String) : Prop where
  dirs : ∀ name ∈ names.dropLast, name ∉ req.filters.excludeDirs
  globs : ∀ glob ∈ req.filters.excludeBasenameGlobs, Glob.isMatch glob (basenameAt root names) = false
  dirIgnored : ∀ before, before <+: names → before ≠ names → before ≠ [] → gi.any (· (render false before ++ "/")) = false
  ignored : gi.any (· (render false names)) = false

/-- A path that is at or below a root. -/
def Holds (disk : Disk) (path : String) (root : SearchRoot) : Prop := ∃ names info, FileAt Node.children disk root names info ∧ path = pathAt root.absolute names

open Classical in
structure ExactUpToLimits (env : Env) (req : SearchRequest) (res : SearchResponse) : Prop where
  sound : ∀ m ∈ res.matched, ∃ root ∈ req.roots, ∃ names info, FileAt Node.children env.disk root names info ∧ Sought req root names ∧
    m = matchAt root names info
  once : ∀ path, res.matched.countP (·.path = path) ≤ req.roots.countP fun root => Holds env.disk path root
  bounded : (res.matched.length : Int) ≤ req.maxResults
  complete : res.isPartial = false → ∀ root ∈ req.roots, ∃ gi, loadGitignore env req root = .ok gi ∧
    ∀ names info, FileAt Node.listed env.disk root names info → Sought req root names → Admitted req gi root names →
      matchAt root names info ∈ res.matched

/-! ## One root -/

section Root

variable {env : Env} {req : SearchRequest} {gi : Option (String → Bool)} {root : SearchRoot} {names : List String} {info : FileInfo}
  {leaf : Leaf (Option FileInfo)}

/-- The directories that are not walked. -/
def prune (req : SearchRequest) (gi : Option (String → Bool)) (root path name : String) : Bool :=
  (rel root path).any (skipsDir req gi root path name)

/-- The match that a leaf gives. -/
def pick (req : SearchRequest) (gi : Option (String → Bool)) (root : String) (leaf : Leaf (Option FileInfo)) : Option SearchMatch := do
  let rel ← rel root leaf.path
  if letsThrough req gi rel leaf.name then leaf.info.map fun info => ⟨leaf.path, info.modTime, info.size, root⟩ else none

/-- What a walk that is not cut finds. -/
def hits (env : Env) (req : SearchRequest) (gi : Option (String → Bool)) (root : SearchRoot) : List SearchMatch :=
  match env.disk.lstat root.absolute with
  | none => []
  | some node => (leaves (prune req gi root.absolute) root.absolute (base root.absolute) node).filterMap (pick req gi root.absolute)

/-- As long as the walk goes on: the matches of the leaves so far are behind those of before. -/
def Going (req : SearchRequest) (gi : Option (String → Bool)) (root : String) (before : List SearchMatch) (seen : List (Leaf (Option FileInfo)))
    (s : Progress) : Prop :=
  s.matched = before ++ seen.filterMap (pick req gi root) ∧ s.isPartial = false ∧ (s.matched.length : Int) < req.maxResults

/-- Where the walk has stopped. -/
def Stopped (req : SearchRequest) (gi : Option (String → Bool)) (root : String) (before : List SearchMatch) (v : Verdict ContextError)
    (seen : List (Leaf (Option FileInfo))) (s : Progress) : Prop :=
  s.matched = before ++ seen.filterMap (pick req gi root) ∧ (v = .skipAll → s.isPartial = true) ∧ (s.matched.length : Int) ≤ req.maxResults

variable {r path name : String} {before : List SearchMatch} {seen : List (Leaf (Option FileInfo))} {s s' : Progress}
  {v : Verdict ContextError} {finfo : Option FileInfo}

theorem filterMap_pick_append : (seen ++ [leaf]).filterMap (pick req gi r) = seen.filterMap (pick req gi r) ++ (pick req gi r leaf).toList := by
  rw [List.filterMap_append]
  cases hpick : pick req gi r leaf <;> simp [hpick]

/-- A leaf that gives no match. -/
theorem Going.without (h : Going req gi r before seen s) (hpick : pick req gi r leaf = none) : Going req gi r before (seen ++ [leaf]) s := by
  refine ⟨?_, h.2⟩
  rw [filterMap_pick_append, hpick, h.1, Option.toList_none, List.append_nil]

/-- A leaf that gives one. -/
theorem Going.addMatch {m : SearchMatch} (h : Going req gi r before seen s) (hpick : pick req gi r leaf = some m)
    (hadd : addMatch req m s = (v, s')) :
    v = .next ∧ Going req gi r before (seen ++ [leaf]) s' ∨ v.Stops ∧ Stopped req gi r before v (seen ++ [leaf]) s' := by
  obtain ⟨hmatched, hwhole, hlt⟩ := h
  have hnew : s.matched ++ [m] = before ++ (seen ++ [leaf]).filterMap (pick req gi r) := by
    rw [filterMap_pick_append, hpick, hmatched, Option.toList_some, List.append_assoc]
  have hlength : ((s.matched ++ [m]).length : Int) = s.matched.length + 1 := by simp
  unfold Fs.addMatch at hadd
  dsimp only at hadd
  split at hadd
  · rename_i hfull
    cases hadd
    refine .inr ⟨trivial, hnew, fun _ => rfl, ?_⟩
    change ((s.matched ++ [m]).length : Int) ≤ req.maxResults
    omega
  · rename_i hroom
    cases hadd
    exact .inl ⟨rfl, hnew, hwhole, not_le.1 hroom⟩

theorem Going.visitFile {rel : String} (h : Going req gi r before seen s) (hrel : Files.rel r path = some rel)
    (hvisit : visitFile req gi r path name rel finfo s = (v, s')) :
    v = .next ∧ Going req gi r before (seen ++ [⟨path, name, finfo⟩]) s' ∨
      v.Stops ∧ Stopped req gi r before v (seen ++ [⟨path, name, finfo⟩]) s' := by
  have hpick : pick req gi r ⟨path, name, finfo⟩ =
      if letsThrough req gi rel name then finfo.map fun info => ⟨path, info.modTime, info.size, r⟩ else none := by
    rw [pick, hrel]
    rfl
  unfold Fs.visitFile at hvisit
  split at hvisit
  · rename_i hlets
    rw [if_pos hlets] at hpick
    split at hvisit
    · cases hvisit
      exact .inl ⟨rfl, h.without hpick⟩
    · exact h.addMatch hpick hvisit
  · rename_i hlets
    rw [if_neg hlets] at hpick
    cases hvisit
    exact .inl ⟨rfl, h.without hpick⟩

theorem visit_collects (env : Env) (req : SearchRequest) (gi : Option (String → Bool)) (r : String) (before : List SearchMatch) :
    Collects (visit env req gi r) (prune req gi r) (Going req gi r before) (Stopped req gi r before) where
  dir path name seen s v s' h hvisit := by
    simp only [visit] at hvisit
    split at hvisit
    · cases hvisit
      exact .inr ⟨trivial, h.1, nofun, le_of_lt h.2.2⟩
    · split at hvisit
      · rename_i hrel
        cases hvisit
        refine .inl ⟨?_, h⟩
        rw [prune, hrel]
        rfl
      · rename_i hrel
        cases hvisit
        refine .inl ⟨?_, h⟩
        rw [prune, hrel]
        rfl
  unread path name seen s v s' h hvisit := by
    cases hvisit
    exact .inl ⟨rfl, h⟩
  leaf path name info seen s v s' h hvisit := by
    simp only [visit] at hvisit
    split at hvisit
    · cases hvisit
      exact .inr ⟨trivial, [], List.nil_prefix, by rw [List.append_nil]; exact ⟨h.1, nofun, le_of_lt h.2.2⟩⟩
    · split at hvisit
      · rename_i hrel
        cases hvisit
        refine .inl ⟨rfl, ?_⟩
        refine Going.without h ?_
        rw [pick, hrel]
        rfl
      · rename_i hrel
        have hasked : Going req gi r before seen { s with asked := s.asked + 1 } := h
        rcases hasked.visitFile hrel hvisit with hgoing | ⟨hstop, hstopped⟩
        · exact .inl hgoing
        · exact .inr ⟨hstop, _, List.prefix_rfl, hstopped⟩

/-- What the walk of a root adds: what it would find without a limit, or a part of that where it is cut. -/
theorem walkDir_hits (h : s.isPartial = false) (hroom : (s.matched.length : Int) < req.maxResults) {err : Option ContextError}
    (hwalk : walkDir (visit env req gi root.absolute) env.disk.lstat root.absolute s = (err, s')) :
    ∃ part, part <+: hits env req gi root ∧ s'.matched = s.matched ++ part ∧ (s'.matched.length : Int) ≤ req.maxResults ∧
      (err = none → s'.isPartial = false → part = hits env req gi root ∧ (s'.matched.length : Int) < req.maxResults) := by
  have hgoing : Going req gi root.absolute s.matched [] s := ⟨(List.append_nil _).symm, h, hroom⟩
  unfold walkDir at hwalk
  unfold hits
  cases hnode : env.disk.lstat root.absolute with
  | none =>
    rw [hnode] at hwalk
    cases hwalk
    exact ⟨[], List.prefix_rfl, (List.append_nil _).symm, le_of_lt hroom, fun _ _ => ⟨rfl, hroom⟩⟩
  | some node =>
    rw [hnode] at hwalk
    dsimp only at hwalk ⊢
    have hcollected := walkNode_collected (visit_collects env req gi root.absolute s.matched) node root.absolute (base root.absolute) [] s hgoing
    rcases hr : walkNode (visit env req gi root.absolute) root.absolute (base root.absolute) node s with ⟨v, s''⟩
    rw [hr] at hwalk hcollected
    rcases hcollected with ⟨hv, hmatched, hwhole, hlt⟩ | ⟨hstop, l, hl, hmatched, hfull, hle⟩
    · cases hv
      cases hwalk
      exact ⟨_, List.prefix_rfl, hmatched, le_of_lt hlt, fun _ _ => ⟨rfl, hlt⟩⟩
    · refine ⟨l.filterMap (pick req gi root.absolute), hl.filterMap _, ?_⟩
      cases v with
      | next => exact hstop.elim
      | skipDir => exact hstop.elim
      | skipAll =>
        cases hwalk
        exact ⟨hmatched, hle, fun _ hwhole => absurd (hwhole.symm.trans (hfull rfl)) Bool.false_ne_true⟩
      | fail err =>
        cases hwalk
        exact ⟨hmatched, hle, nofun⟩

/-! ### The files of a root -/

theorem depth_render {cs : List String} (h : ∀ c ∈ cs, Named c) : depth (render false cs) = ((cs.length - 1 : Nat) : Int) := by
  rw [depth, count_slash h]
  split
  · rename_i hhere
    rw [(render_eq_here_iff h).1 hhere]
    rfl
  · rfl

theorem maxResults_pos (req : SearchRequest) : 0 < req.maxResults := by
  simp only [SearchRequest.maxResults, defaultSearchMaxResults, hardCapMaxResults]
  split <;> split <;> omega

/-- The directories on the way. -/
theorem mem_dropLast_iff {l : List String} {n : String} :
    n ∈ l.dropLast ↔ ∃ init, init <+: l ∧ init ≠ l ∧ init.getLast? = some n := by
  constructor
  · intro hmem
    obtain ⟨a, b, hab⟩ := List.append_of_mem hmem
    have hpre : a ++ [n] <+: l.dropLast := ⟨b, by rw [hab, List.append_assoc, List.singleton_append]⟩
    refine ⟨a ++ [n], hpre.trans (List.dropLast_prefix l), fun heq => ?_, List.getLast?_concat⟩
    have hle := hpre.length_le
    have hpos : 0 < l.length := by rw [← heq]; simp
    rw [heq, List.length_dropLast] at hle
    omega
  · rintro ⟨init, ⟨behind, rfl⟩, hne, hlast⟩
    have hbehind : behind ≠ [] := fun hnil => hne (by rw [hnil, List.append_nil])
    rw [List.dropLast_append_of_ne_nil hbehind]
    exact List.mem_append_left _ (List.mem_of_getLast? hlast)

theorem not_mem_excludeDirs {n : String} (hn : Named n) :
    req.excludeDirs.contains n = false ↔ n ∉ mandatoryExcludeDirs ∧ n ∉ req.filters.excludeDirs := by
  rw [← Bool.not_eq_true, List.contains_iff_mem, SearchRequest.excludeDirs, List.mem_append, not_or, List.mem_filter]
  exact and_congr_right fun _ => not_congr (and_iff_left (decide_eq_true hn.nonempty))

/-- A directory on the way is walked. -/
theorem prune_eq_false_iff {init : List String} (h : ∀ c ∈ init, Named c) : prune req gi root.absolute (pathAt root.absolute init) name = false ↔
    (init ≠ [] → req.excludeDirs.contains name = false) ∧ (init ≠ [] → gi.any (· (render false init ++ "/")) = false) ∧
      ((init.length - 1 : Nat) : Int) ≤ req.maxDepth := by
  have hroot : pathAt root.absolute init = root.absolute ↔ init = [] :=
    ⟨fun heq => pathAt_injective h (fun c hc => absurd hc List.not_mem_nil) heq, fun hnil => by rw [hnil]; rfl⟩
  rw [prune, rel_pathAt root.absolute h, Option.any_some, skipsDir, depth_render h, Bool.or_eq_false_iff, Bool.or_eq_false_iff, and_assoc,
    decide_eq_false_iff_not, not_lt]
  refine and_congr ?_ (and_congr ?_ Iff.rfl)
  · by_cases hnil : init = []
    · simp [hnil, pathAt]
    · simp [hnil, hroot]
  · by_cases hnil : init = []
    · subst hnil
      simp [show render false [] = "." from rfl]
    · simp [hnil, render_eq_here_iff h]

/-- A file is found when it is searched for and admitted. -/
theorem found_iff (h : ∀ n ∈ names, Named n) :
    Passed (prune req gi root.absolute) root.absolute (base root.absolute) names ∧
        letsThrough req gi (render false names) (basenameAt root names) = true ↔
      Sought req root names ∧ Admitted req gi root names := by
  have hinit : ∀ init, init <+: names → ∀ c ∈ init, Named c := fun init hpre c hc => h c (hpre.subset hc)
  rw [letsThrough, depth_render h]
  simp only [Bool.and_eq_true, decide_eq_true_iff, Bool.not_eq_true', List.any_eq_false, Bool.not_eq_true]
  constructor
  · rintro ⟨hpassed, ⟨⟨⟨hdeep, hglobs⟩, hignored⟩, hname⟩⟩
    have hdirs : ∀ n ∈ names.dropLast, n ∉ mandatoryExcludeDirs ∧ n ∉ req.filters.excludeDirs := by
      intro n hn
      obtain ⟨init, hpre, hne, hlast⟩ := mem_dropLast_iff.1 hn
      have hwalked := ((prune_eq_false_iff (hinit init hpre)).1 (hpassed init hpre hne)).1
        (fun hnil => by rw [hnil] at hlast; cases hlast)
      rw [hlast] at hwalked
      exact (not_mem_excludeDirs (h n (List.dropLast_subset _ hn))).1 hwalked
    refine ⟨⟨hdeep, hname, fun n hn => (hdirs n hn).1, fun glob hglob => hglobs glob (List.mem_append_left _ hglob)⟩,
      ⟨fun n hn => (hdirs n hn).2, fun glob hglob => hglobs glob (List.mem_append_right _ hglob), fun init hpre hne hnil => ?_, hignored⟩⟩
    exact ((prune_eq_false_iff (hinit init hpre)).1 (hpassed init hpre hne)).2.1 hnil
  · rintro ⟨hsought, hadmitted⟩
    refine ⟨fun init hpre hne => ?_, ⟨⟨hsought.deep, fun glob hglob => ?_⟩, hadmitted.ignored⟩, hsought.named⟩
    · refine (prune_eq_false_iff (hinit init hpre)).2 ⟨fun hnil => ?_, hadmitted.dirIgnored init hpre hne, ?_⟩
      · obtain ⟨n, hlast⟩ := Option.isSome_iff_exists.1 (List.getLast?_isSome.2 hnil)
        have hmem := mem_dropLast_iff.2 ⟨init, hpre, hne, hlast⟩
        rw [hlast]
        exact (not_mem_excludeDirs (h n (List.dropLast_subset _ hmem))).2 ⟨hsought.dirs n hmem, hadmitted.dirs n hmem⟩
      · have hle := hpre.length_le
        have hdeep := hsought.deep
        omega
    · rcases List.mem_append.1 hglob with hglob | hglob
      · exact hsought.globs glob hglob
      · exact hadmitted.globs glob hglob

theorem pick_eq_some {m : SearchMatch} (h : ∀ n ∈ names, Named n) (hpath : leaf.path = pathAt root.absolute names)
    (hname : leaf.name = basenameAt root names) : pick req gi root.absolute leaf = some m ↔
    letsThrough req gi (render false names) (basenameAt root names) = true ∧ ∃ info, leaf.info = some info ∧ m = matchAt root names info := by
  rw [pick, hpath, rel_pathAt root.absolute h, hname]
  change (if letsThrough req gi (render false names) (basenameAt root names) = true then _ else none) = some m ↔ _
  split
  · rename_i hlets
    rw [Option.map_eq_some_iff]
    exact ⟨fun ⟨info, hinfo, heq⟩ => ⟨hlets, info, hinfo, heq.symm⟩, fun ⟨_, info, hinfo, heq⟩ => ⟨info, hinfo, heq.symm⟩⟩
  · rename_i hlets
    exact ⟨nofun, fun hmatch => absurd hmatch.1 hlets⟩

theorem mem_hits {m : SearchMatch} : m ∈ hits env req gi root ↔
    ∃ names info, FileAt Node.listed env.disk root names info ∧ Sought req root names ∧ Admitted req gi root names ∧ m = matchAt root names info := by
  unfold hits FileAt
  cases hnode : env.disk.lstat root.absolute with
  | none => simp
  | some node =>
    have hvalid := env.disk.valid _ _ hnode
    simp only [List.mem_filterMap, mem_leaves, Option.some.injEq, exists_eq_left']
    constructor
    · rintro ⟨leaf, ⟨names, hreached⟩, hpick⟩
      have hnamed := hreached.named hvalid
      obtain ⟨hat, hpath, hname, hpassed⟩ := hreached
      obtain ⟨hlets, info, hinfo, rfl⟩ := (pick_eq_some hnamed hpath hname).1 hpick
      obtain ⟨hsought, hadmitted⟩ := (found_iff hnamed).1 ⟨hpassed, hlets⟩
      exact ⟨names, info, hinfo ▸ hat, hsought, hadmitted, rfl⟩
    · rintro ⟨names, info, hat, hsought, hadmitted, rfl⟩
      have hnamed := hat.children_of_listed.named hvalid
      obtain ⟨hpassed, hlets⟩ := (found_iff hnamed).2 ⟨hsought, hadmitted⟩
      exact ⟨⟨pathAt root.absolute names, basenameAt root names, some info⟩, ⟨names, hat, rfl, rfl, hpassed⟩,
        (pick_eq_some hnamed rfl rfl).2 ⟨hlets, info, rfl, rfl⟩⟩

theorem path_of_pick {m : SearchMatch} (h : pick req gi r leaf = some m) : m.path = leaf.path := by
  obtain ⟨rel, -, hpick⟩ := Option.bind_eq_some_iff.1 h
  split at hpick
  · obtain ⟨info, -, rfl⟩ := Option.map_eq_some_iff.1 hpick
    rfl
  · cases hpick

/-- A root gives a path once. -/
theorem nodup_hits (env : Env) (req : SearchRequest) (gi : Option (String → Bool)) (root : SearchRoot) :
    ((hits env req gi root).map SearchMatch.path).Nodup := by
  have hsub : ∀ l : List (Leaf (Option FileInfo)),
      ((l.filterMap (pick req gi root.absolute)).map SearchMatch.path).Sublist (l.map Leaf.path) := by
    intro l
    induction l with
    | nil => exact List.Sublist.refl _
    | cons leaf l ih =>
      cases hpick : pick req gi root.absolute leaf with
      | none =>
        rw [List.filterMap_cons_none hpick]
        exact ih.cons _
      | some m =>
        rw [List.filterMap_cons_some hpick, List.map_cons, List.map_cons, path_of_pick hpick]
        exact ih.cons_cons _
  unfold hits
  cases hnode : env.disk.lstat root.absolute with
  | none => exact List.nodup_nil
  | some node => exact (nodup_leaves _ node _ _ (env.disk.valid _ _ hnode)).sublist (hsub _)

end Root

/-! ## All roots -/

section Roots

variable {env : Env} {req : SearchRequest} {roots : List SearchRoot} {s s' : Progress}

/-- What is found of a root is a part of what an uncut walk would find. -/
def PartOf (env : Env) (req : SearchRequest) (root : SearchRoot) (part : List SearchMatch) : Prop :=
  ∃ gi, part <+: hits env req gi root

def WholeOf (env : Env) (req : SearchRequest) (root : SearchRoot) (part : List SearchMatch) : Prop :=
  ∃ gi, loadGitignore env req root = .ok gi ∧ part = hits env req gi root

/-- The roots that are not searched any more give nothing. -/
theorem partOf_nil (env : Env) (req : SearchRequest) : ∀ roots, List.Forall₂ (PartOf env req) roots (roots.map fun _ => [])
  | [] => .nil
  | _ :: roots => .cons ⟨none, List.nil_prefix⟩ (partOf_nil env req roots)

theorem flatten_nothing (roots : List SearchRoot) : (roots.map fun _ => ([] : List SearchMatch)).flatten = [] := by
  simp

/-- The walks one after another: a part for each root, and all of it for each where nothing was cut. -/
theorem searchRoots_parts (h : searchRoots env req roots s = .ok s') (hwhole : s.isPartial = false)
    (hroom : (s.matched.length : Int) < req.maxResults) : ∃ parts, List.Forall₂ (PartOf env req) roots parts ∧
      s'.matched = s.matched ++ parts.flatten ∧ (s'.matched.length : Int) ≤ req.maxResults ∧
        (s'.isPartial = false → List.Forall₂ (WholeOf env req) roots parts) := by
  induction roots generalizing s with
  | nil =>
    cases h
    exact ⟨[], .nil, (List.append_nil _).symm, le_of_lt hroom, fun _ => .nil⟩
  | cons root rest ih =>
    rw [searchRoots] at h
    cases hgi : loadGitignore env req root with
    | error err =>
      rw [hgi] at h
      cases h
    | ok gi =>
      rw [hgi] at h
      dsimp only [bind, Except.bind] at h
      rcases hwalk : walkDir (visit env req gi root.absolute) env.disk.lstat root.absolute s with ⟨err, s₁⟩
      obtain ⟨part, hpart, hmatched, hle, hdone⟩ := walkDir_hits hwhole hroom hwalk
      -- Where the search ends here, the other roots give nothing.
      have hcut : ∀ s₂ : Progress, s₂.matched = s₁.matched → s₂.isPartial = true → ∃ parts, List.Forall₂ (PartOf env req) (root :: rest) parts ∧
          s₂.matched = s.matched ++ parts.flatten ∧ (s₂.matched.length : Int) ≤ req.maxResults ∧
            (s₂.isPartial = false → List.Forall₂ (WholeOf env req) (root :: rest) parts) := by
        intro s₂ heq hmarked
        refine ⟨part :: rest.map fun _ => [], .cons ⟨gi, hpart⟩ (partOf_nil env req rest), ?_, heq ▸ hle, fun hfalse => ?_⟩
        · rw [List.flatten_cons, flatten_nothing, List.append_nil, heq, hmatched]
        · rw [hmarked] at hfalse
          cases hfalse
      rw [hwalk] at h
      cases err with
      | some err =>
        cases h
        exact hcut _ rfl rfl
      | none =>
        dsimp only at h
        split at h
        · rename_i hmarked
          cases h
          exact hcut _ rfl hmarked
        · rename_i hmarked
          obtain ⟨hall, hlt⟩ := hdone rfl (Bool.not_eq_true _ ▸ hmarked)
          obtain ⟨parts, hparts, hmatched', hle', hdone'⟩ := ih h (Bool.not_eq_true _ ▸ hmarked) hlt
          refine ⟨part :: parts, .cons ⟨gi, hpart⟩ hparts, ?_, hle', fun hfalse => .cons ⟨gi, hgi, hall⟩ (hdone' hfalse)⟩
          rw [hmatched', hmatched, List.flatten_cons, List.append_assoc]

theorem exists_of_mem_right {α β : Type} {R : α → β → Prop} {as : List α} {bs : List β} (h : List.Forall₂ R as bs) {b : β} (hb : b ∈ bs) :
    ∃ a ∈ as, R a b := by
  induction h with
  | nil => exact absurd hb List.not_mem_nil
  | @cons a b' as bs hab _ ih =>
    rcases List.mem_cons.1 hb with rfl | hb
    · exact ⟨a, List.mem_cons_self, hab⟩
    · obtain ⟨a', ha', hR⟩ := ih hb
      exact ⟨a', List.mem_cons_of_mem _ ha', hR⟩

theorem FileAt.holds {root : SearchRoot} {names : List String} {info : FileInfo} (h : FileAt Node.listed env.disk root names info) :
    FileAt Node.children env.disk root names info := by
  obtain ⟨node, hnode, hat⟩ := h
  exact ⟨node, hnode, hat.children_of_listed⟩

theorem PartOf.sound {root : SearchRoot} {part : List SearchMatch} (h : PartOf env req root part) : ∀ m ∈ part, ∃ names info,
    FileAt Node.children env.disk root names info ∧ Sought req root names ∧ m = matchAt root names info := by
  obtain ⟨gi, hpre⟩ := h
  intro m hm
  obtain ⟨names, info, hfile, hsought, -, rfl⟩ := mem_hits.1 (hpre.subset hm)
  exact ⟨names, info, hfile.holds, hsought, rfl⟩

theorem PartOf.once {root : SearchRoot} {part : List SearchMatch} (h : PartOf env req root part) (path : String) :
    part.countP (·.path = path) ≤ 1 ∧ (¬Holds env.disk path root → part.countP (·.path = path) = 0) := by
  constructor
  · obtain ⟨gi, hpre⟩ := h
    have hnodup : (part.map SearchMatch.path).Nodup := (nodup_hits env req gi root).sublist (hpre.sublist.map _)
    calc part.countP (·.path = path) = (part.map SearchMatch.path).count path := by
          rw [List.count, List.countP_map]
          exact List.countP_congr fun m _ => by simp
      _ ≤ 1 := List.nodup_iff_count_le_one.1 hnodup path
  · intro hnot
    rw [List.countP_eq_zero]
    rintro m hm heq
    obtain ⟨names, info, hfile, -, rfl⟩ := h.sound m hm
    exact hnot ⟨names, info, hfile, (of_decide_eq_true heq).symm⟩

open Classical in
theorem countP_parts {parts : List (List SearchMatch)} (h : List.Forall₂ (PartOf env req) roots parts) (path : String) :
    parts.flatten.countP (·.path = path) ≤ roots.countP fun root => Holds env.disk path root := by
  induction h with
  | nil => exact le_rfl
  | @cons root part roots parts hpart _ ih =>
    obtain ⟨hone, hzero⟩ := hpart.once path
    rw [List.flatten_cons, List.countP_append, List.countP_cons]
    split
    · omega
    · rename_i hnot
      have hnone := hzero (by simpa using hnot)
      omega

end Roots

theorem search_cases {env : Env} {req : SearchRequest} {res : SearchResponse} (h : search env req = .ok res) :
    ∃ s, searchRoots env req req.roots ⟨[], false, 0⟩ = .ok s ∧ res = ⟨env.slice.sort s.matched, s.isPartial⟩ := by
  unfold search at h
  dsimp only at h
  generalize (if req.mode = "" then "basename" else req.mode) = mode at h
  split at h
  · cases h
  · split at h
    · cases h
    · cases hroots : searchRoots env req req.roots ⟨[], false, 0⟩ with
      | error err =>
        rw [hroots] at h
        cases h
      | ok s =>
        rw [hroots] at h
        exact ⟨s, rfl, (Except.ok.inj h).symm⟩

theorem search_exact {env : Env} {req : SearchRequest} {res : SearchResponse} (h : search env req = .ok res) : ExactUpToLimits env req res := by
  obtain ⟨s, hroots, rfl⟩ := search_cases h
  obtain ⟨parts, hparts, hmatched, hle, hwhole⟩ := searchRoots_parts hroots rfl (maxResults_pos req)
  rw [List.nil_append] at hmatched
  have hmem : ∀ m, m ∈ env.slice.sort s.matched ↔ m ∈ parts.flatten := fun m => by rw [(env.slice.perm _).mem_iff, hmatched]
  refine ⟨fun m hm => ?_, fun path => ?_, ?_, fun hmarked root hroot => ?_⟩
  · obtain ⟨part, hpart, hm⟩ := List.mem_flatten.1 ((hmem m).1 hm)
    obtain ⟨root, hroot, hof⟩ := exists_of_mem_right hparts hpart
    exact ⟨root, hroot, hof.sound m hm⟩
  · change (env.slice.sort s.matched).countP _ ≤ _
    rw [(env.slice.perm _).countP_eq, hmatched]
    exact countP_parts hparts path
  · change ((env.slice.sort s.matched).length : Int) ≤ _
    rw [(env.slice.perm _).length_eq]
    exact hle
  · obtain ⟨part, hpart, gi, hgi, rfl⟩ := exists_of_mem_right (hwhole hmarked).flip hroot
    refine ⟨gi, hgi, fun names info hfile hsought hadmitted => (hmem _).2 (List.mem_flatten.2 ⟨_, hpart, ?_⟩)⟩
    exact mem_hits.2 ⟨names, info, hfile, hsought, hadmitted, rfl⟩

/-! ## One tree -/

/-- The node that names lead to. -/
def find (node : Node (Option FileInfo)) : List String → Option (Node (Option FileInfo))
  | [] => some node
  | n :: names => (node.children.find? (·.1 = n)).bind fun p => find p.2 names

theorem valid_of_find {names : List String} : ∀ {node dest : Node (Option FileInfo)}, node.Valid → find node names = some dest → dest.Valid := by
  induction names with
  | nil =>
    rintro node dest hvalid ⟨⟩
    exact hvalid
  | cons n names ih =>
    intro node dest hvalid h
    obtain ⟨p, hp, hdest⟩ := Option.bind_eq_some_iff.1 h
    exact ih (hvalid.named p (List.mem_of_find?_eq_some hp)).2 hdest

/-- The disk with this tree at its root, and without patterns to ignore. -/
def Disk.ofTree (tree : Node (Option FileInfo)) (h : tree.Valid) : Disk where
  lstat path := if isAbs path then find tree (cleaned path) else none
  readFile _ := none
  valid path node hnode := by
    split at hnode
    · exact valid_of_find h hnode
    · cases hnode

/-- The first of equal times stays first. -/
def SliceSort.stable : SliceSort where
  sort := List.insertionSort fun a b => b.modTime ≤ a.modTime
  perm l := List.perm_insertionSort _ l
  newest l := by
    have : Std.Total fun a b : SearchMatch => b.modTime ≤ a.modTime := ⟨fun a b => le_total b.modTime a.modTime⟩
    have : IsTrans SearchMatch fun a b => b.modTime ≤ a.modTime := ⟨fun a b c hab hbc => hbc.trans hab⟩
    exact (List.pairwise_insertionSort _ l).imp fun h => not_lt.2 h

def note : Node (Option FileInfo) := .leaf (some ⟨7, 1⟩)

/-- A project with a directory that cannot be read, and one that is excluded. -/
def project : Node (Option FileInfo) :=
  .dir (.cons "p" (.dir (.cons "node_modules" (.dir (.cons "a.md" note .nil))
    (.cons "secret" (.broken .nil (.cons "a.md" note .nil)) (.cons "sub" (.dir (.cons "a.md" note .nil)) .nil)))) .nil)

instance (c : String) : Decidable (Named c) :=
  decidable_of_iff (c ≠ "" ∧ '/' ∉ c.toList ∧ c ≠ "." ∧ c ≠ "..") ⟨fun ⟨h₁, h₂, h₃, h₄⟩ => ⟨h₁, h₂, h₃, h₄⟩, fun h => ⟨h.1, h.2, h.3, h.4⟩⟩

theorem project_valid : project.Valid := by
  have hnames : Named "p" ∧ Named "a.md" ∧ Named "node_modules" ∧ Named "secret" ∧ Named "sub" := by decide
  simp [project, note, Node.Valid, Listing.Valid, Listing.toList, hnames]

def projectEnv : Env := ⟨.ofTree project project_valid, fun _ _ => false, .stable, fun _ => none⟩

def searchFor (roots : List String) : SearchRequest := ⟨"", ⟨"a.md"⟩, roots.map SearchRoot.mk, ⟨0, 0⟩, ⟨[], [], none⟩⟩

theorem search_exact_overlapping : ∃ res, search projectEnv (searchFor ["/p", "/p/sub"]) = .ok res ∧ res.isPartial = false ∧
    ExactUpToLimits projectEnv (searchFor ["/p", "/p/sub"]) res := by
  have hfound : search projectEnv (searchFor ["/p", "/p/sub"]) =
      .ok ⟨[⟨"/p/sub/a.md", 7, 1, "/p"⟩, ⟨"/p/sub/a.md", 7, 1, "/p/sub"⟩], false⟩ := by decide
  exact ⟨_, hfound, rfl, search_exact hfound⟩

/-- A path that is below two roots appears twice; a directory that cannot be read leaves its files out of a result that is not partial; and
a root may be within an excluded directory, or a file itself. -/
theorem search_not_exact :
    (∃ res, search projectEnv (searchFor ["/p", "/p/sub"]) = .ok res ∧ ¬(res.matched.map SearchMatch.path).Nodup) ∧
    (∃ res names info, search projectEnv (searchFor ["/p"]) = .ok res ∧ res.isPartial = false ∧
      FileAt Node.children projectEnv.disk ⟨"/p"⟩ names info ∧ Sought (searchFor ["/p"]) ⟨"/p"⟩ names ∧
        Admitted (searchFor ["/p"]) none ⟨"/p"⟩ names ∧ matchAt ⟨"/p"⟩ names info ∉ res.matched) ∧
    (∃ res, search projectEnv (searchFor ["/p/node_modules"]) = .ok res ∧ ∃ m ∈ res.matched, "node_modules" ∈ comps m.path) ∧
    ∃ res, search projectEnv (searchFor ["/p/sub/a.md"]) = .ok res ∧ ∃ m ∈ res.matched, m.path = m.root := by
  refine ⟨?_, ?_, ?_, ?_⟩
  · have hfound : search projectEnv (searchFor ["/p", "/p/sub"]) =
        .ok ⟨[⟨"/p/sub/a.md", 7, 1, "/p"⟩, ⟨"/p/sub/a.md", 7, 1, "/p/sub"⟩], false⟩ := by decide
    exact ⟨_, hfound, by decide⟩
  · have hfound : search projectEnv (searchFor ["/p"]) = .ok ⟨[⟨"/p/sub/a.md", 7, 1, "/p"⟩], false⟩ := by decide
    have hnode : ∃ node, projectEnv.disk.lstat "/p" = some node ∧ ("secret", .broken .nil (.cons "a.md" note .nil)) ∈ node.children :=
      ⟨_, rfl, .tail _ (.head _)⟩
    obtain ⟨node, hlstat, hmem⟩ := hnode
    refine ⟨_, ["secret", "a.md"], ⟨7, 1⟩, hfound, rfl, ⟨node, hlstat, .down hmem (.down (.head _) .here)⟩, ⟨?_, ?_, ?_, ?_⟩,
      ⟨?_, ?_, fun _ _ _ _ => rfl, rfl⟩, ?_⟩
    all_goals decide
  · have hfound : search projectEnv (searchFor ["/p/node_modules"]) =
        .ok ⟨[⟨"/p/node_modules/a.md", 7, 1, "/p/node_modules"⟩], false⟩ := by decide
    exact ⟨_, hfound, _, List.mem_cons_self, by decide⟩
  · have hfound : search projectEnv (searchFor ["/p/sub/a.md"]) = .ok ⟨[⟨"/p/sub/a.md", 7, 1, "/p/sub/a.md"⟩], false⟩ := by decide
    exact ⟨_, hfound, _, List.mem_cons_self, rfl⟩

end Purdex.Fs
