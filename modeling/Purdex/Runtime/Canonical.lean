/-
The one path that a repository has for the locks: absolute, without links and below a root that is allowed.
-/
import Purdex.Files.Tree
import Purdex.Runtime.Daemon
import Mathlib

namespace Purdex.Runtime

open Files

/-! ## The path of a repository -/

/-- A file tree, and the directory in it that relative paths are read from, with what `os.Getwd` says of it. -/
structure Site where
  tree : FileTree
  cwd : List String
  wd : Option String
  dir : tree.entry cwd = some .dir
  named : ∀ c ∈ cwd, Named c
  getwd : ∀ w, wd = some w → isAbs w = true ∧ ∃ n, Leads tree n [] (steps w) cwd

/-- A path from the root down, as it is spelled. -/
def Site.spelled (site : Site) (path : String) : Option String :=
  if isAbs path then some path else site.wd.map (· ++ "/" ++ path)

/-- `filepath.Abs`. -/
def Site.abs (site : Site) (path : String) : Option String := (site.spelled path).map clean

inductive CanonicalError
  | noAllowedRoots
  | emptyLocalDir
  | abs (localDir : String)
  | resolve (localDir : String)
  | escapes (resolved : String)
  deriving Repr, DecidableEq

def usableRoots (roots : List String) : List String := roots.filter (trimSpace · ≠ "")

def withinRoot (path root : String) : Bool :=
  match rel root path with
  | none => false
  | some rel => rel = "." ∨ rel ≠ ".." ∧ ¬['.', '.', '/'] <+: rel.toList

/-- A root that cannot be resolved is skipped. -/
def withinAnyRoot (site : Site) (resolved : String) (roots : List String) : Bool :=
  roots.any fun root =>
    match evalSymlinks site.tree site.cwd root with
    | none => false
    | some canonRoot => withinRoot resolved (clean canonRoot)

def canonicalize (site : Site) (localDir : String) (allowedRoots : List String) : Except CanonicalError String :=
  if usableRoots allowedRoots = [] then .error .noAllowedRoots
  else if trimSpace localDir = "" then .error .emptyLocalDir
  else
    match site.abs localDir with
    | none => .error (.abs localDir)
    | some abs =>
      match evalSymlinks site.tree site.cwd abs with
      | none => .error (.resolve localDir)
      | some resolved =>
        if withinAnyRoot site (clean resolved) (usableRoots allowedRoots) then .ok (clean resolved) else .error (.escapes (clean resolved))

/-! ## What is promised -/

/-- Where a path leads, link by link. -/
def Site.Names (site : Site) (path : String) (place : List String) : Prop :=
  ∃ spelled, site.spelled path = some spelled ∧ Leads site.tree maxLinks [] (steps spelled) place

/-- Where it leads once `.` and `..` are taken out of the text. -/
def Site.NamesClean (site : Site) (path : String) (place : List String) : Prop :=
  ∃ abs, site.abs path = some abs ∧ Leads site.tree maxLinks [] (steps abs) place

/-- Below a root that is allowed, or that root. -/
def Site.Below (site : Site) (roots : List String) (names : List String) : Prop :=
  ∃ root ∈ roots, ∃ canonRoot, evalSymlinks site.tree site.cwd root = some canonRoot ∧ isAbs canonRoot = true ∧ comps canonRoot <+: names

/-- What holds of every path under these roots. -/
structure Contained (site : Site) (roots : List String) : Prop where
  absolute : ∀ path r, canonicalize site path roots = .ok r → isAbs r = true
  linkFree : ∀ path r, canonicalize site path roots = .ok r → evalSymlinks site.tree site.cwd r = some r
  again : ∀ path r, canonicalize site path roots = .ok r → canonicalize site r roots = .ok r
  below : ∀ path r, canonicalize site path roots = .ok r → site.Below roots (comps r)
  same : ∀ path path' place, trimSpace path ≠ "" → trimSpace path' ≠ "" → site.NamesClean path place → site.NamesClean path' place →
    canonicalize site path roots = canonicalize site path' roots
  plain : ∀ path place, site.Names path place → (∀ spelled, site.spelled path = some spelled → ".." ∉ comps spelled) →
    site.NamesClean path place
  outside : ∀ path place, site.NamesClean path place → ¬site.Below roots place → ∃ e, canonicalize site path roots = .error e
  rootless : (∀ root ∈ roots, evalSymlinks site.tree site.cwd root = none) → ∀ path, ∃ e, canonicalize site path roots = .error e

section Canonical

variable {site : Site} {path root r canonRoot resolved : String} {roots : List String} {names place : List String}

theorem isAbs_spelled {spelled : String} (h : site.spelled path = some spelled) : isAbs spelled = true := by
  unfold Site.spelled at h
  split at h
  · rename_i habs
    exact Option.some.inj h ▸ habs
  · obtain ⟨w, hw, rfl⟩ := Option.map_eq_some_iff.1 h
    have hroot := (site.getwd w hw).1
    unfold isAbs at hroot ⊢
    rw [decide_eq_true_eq] at hroot ⊢
    rw [String.toList_append, String.toList_append, List.append_assoc, List.head?_append, hroot]
    rfl

/-- What is absolute and clean has names only. -/
theorem abs_names {abs : String} (h : site.abs path = some abs) : ∃ names, abs = render true names ∧ ∀ c ∈ names, Named c := by
  obtain ⟨spelled, hspelled, rfl⟩ := Option.map_eq_some_iff.1 h
  rw [clean, isAbs_spelled hspelled]
  exact ⟨_, rfl, named_cleanComps (comps_segment spelled) fun _ h => absurd h List.not_mem_nil⟩

/-- An input that is resolved is resolved to a place. -/
theorem resolved_place {abs : String} (habs : site.abs path = some abs) (h : evalSymlinks site.tree site.cwd abs = some resolved) :
    ∃ place, Leads site.tree maxLinks [] (steps abs) place ∧ resolved = render true place ∧ (∀ c ∈ place, Named c) ∧
      (site.tree.entry place = some .dir ∨ site.tree.entry place = some .file) := by
  obtain ⟨names, rfl, hnamed⟩ := abs_names habs
  obtain ⟨place, hleads, rfl⟩ := leads_of_evalSymlinks (isAbs_render names) h
  obtain ⟨hreal, hplace⟩ := hleads.real site.tree.root nofun
  exact ⟨place, hleads, rfl, hplace, hreal⟩

/-! ## Roots -/

/-- Component by component, not by the characters that both begin with. -/
theorem withinRoot_render {base : List String} (hnames : ∀ c ∈ names, Named c) (hbase : ∀ c ∈ base, Named c) :
    withinRoot (render true names) (render true base) = true ↔ base <+: names := by
  rw [withinRoot, rel_render hbase hnames]
  constructor
  · intro h
    refine prefix_of_dropCommon ?_
    cases hleft : (dropCommon base names).1 with
    | nil => rfl
    | cons b bs =>
      rw [hleft] at h
      split at h
      · cases h
      · rename_i rel hrel
        split at hrel
        · cases hrel
        · obtain rfl := Option.some.inj hrel
          rw [decide_eq_true_eq, List.map_cons, List.cons_append] at h
          rcases above_render (bs.map (fun _ => "..") ++ (dropCommon base names).2) with habove | habove
          · rcases h with hhere | ⟨hne, _⟩
            · rw [habove] at hhere
              exact absurd hhere (by decide)
            · exact absurd habove hne
          · rcases h with hhere | ⟨_, hnot⟩
            · rw [hhere] at habove
              exact absurd habove (by decide)
            · exact absurd habove hnot
  · rintro ⟨rest, rfl⟩
    rw [dropCommon_append, if_neg nofun]
    change decide (render false rest = "." ∨ _) = true
    rw [decide_eq_true_eq]
    cases rest with
    | nil => exact .inl rfl
    | cons c rest => exact .inr (below_render (hnames c (List.mem_append_right _ List.mem_cons_self)) rest)

theorem withinRoot_relative (hroot : isAbs root = false) : withinRoot (render true names) root = false := by
  rw [withinRoot, rel_relative hroot]

theorem usable_of_resolved (hmem : root ∈ usableRoots roots) : root ∈ roots := List.mem_of_mem_filter hmem

/-- The check of the roots, and what it is for. -/
theorem withinAnyRoot_iff (hnames : ∀ c ∈ names, Named c) :
    withinAnyRoot site (render true names) (usableRoots roots) = true ↔ site.Below (usableRoots roots) names := by
  rw [withinAnyRoot, List.any_eq_true]
  refine exists_congr fun root => and_congr_right fun _ => ?_
  constructor
  · intro h
    split at h
    · cases h
    · rename_i canonRoot hcanon
      refine ⟨canonRoot, hcanon, ?_⟩
      rcases evalSymlinks_cases site.dir site.named hcanon with ⟨base, rfl, hbase⟩ | hrelative
      · rw [clean_render hbase, withinRoot_render hnames hbase] at h
        rw [comps_render fun c hc => (hbase c hc).segment]
        exact ⟨isAbs_render base, h⟩
      · rw [withinRoot_relative ((isAbs_clean canonRoot).trans hrelative)] at h
        cases h
  · rintro ⟨canonRoot, hcanon, habs, hprefix⟩
    rw [hcanon]
    rcases evalSymlinks_cases site.dir site.named hcanon with ⟨base, rfl, hbase⟩ | hrelative
    · rw [comps_render fun c hc => (hbase c hc).segment] at hprefix
      exact (congrArg _ (clean_render hbase)).trans ((withinRoot_render hnames hbase).2 hprefix)
    · rw [hrelative] at habs
      cases habs

theorem Below.of_usable (h : site.Below (usableRoots roots) names) : site.Below roots names := by
  obtain ⟨root, hroot, hbelow⟩ := h
  exact ⟨root, usable_of_resolved hroot, hbelow⟩

/-! ## Results -/

/-- Where an input is resolved, that place is the result if it is below a root. -/
theorem canonicalize_place (hroots : usableRoots roots ≠ []) (hblank : trimSpace path ≠ "") (h : site.NamesClean path place) :
    (∀ c ∈ place, Named c) ∧ canonicalize site path roots =
      if withinAnyRoot site (render true place) (usableRoots roots) then .ok (render true place) else .error (.escapes (render true place)) := by
  obtain ⟨abs, habs, hleads⟩ := h
  obtain ⟨names, rfl, hnames⟩ := abs_names habs
  have heval : evalSymlinks site.tree site.cwd (render true names) = _ := evalSymlinks_abs (isAbs_render names) hleads
  have hnamed := (hleads.real site.tree.root nofun).2
  refine ⟨hnamed, ?_⟩
  rw [canonicalize, if_neg hroots, if_neg hblank, habs]
  change (match evalSymlinks site.tree site.cwd (render true names) with | none => _ | some resolved => _) = _
  rw [heval]
  change (if _ then _ else _) = _
  rw [clean_render hnamed]

/-- What a result is. -/
theorem canonicalize_ok (h : canonicalize site path roots = .ok r) : ∃ place, r = render true place ∧ site.NamesClean path place ∧
    (∀ c ∈ place, Named c) ∧ (site.tree.entry place = some .dir ∨ site.tree.entry place = some .file) ∧
      site.Below (usableRoots roots) place ∧ usableRoots roots ≠ [] := by
  have hok := h
  unfold canonicalize at h
  split at h
  · cases h
  rename_i hroots
  split at h
  · cases h
  rename_i hblank
  split at h
  · cases h
  rename_i abs habs
  split at h
  · cases h
  rename_i resolved hresolved
  obtain ⟨place, hleads, rfl, hnamed, hreal⟩ := resolved_place habs hresolved
  rw [clean_render hnamed] at h
  split at h
  · rename_i hwithin
    obtain rfl := Except.ok.inj h
    exact ⟨place, rfl, ⟨abs, habs, hleads⟩, hnamed, hreal, (withinAnyRoot_iff hnamed).1 hwithin, hroots⟩
  · cases h

/-- A place below a root is a result of itself. -/
theorem canonicalize_again (hroots : usableRoots roots ≠ []) (hnamed : ∀ c ∈ place, Named c)
    (hreal : site.tree.entry place = some .dir ∨ site.tree.entry place = some .file) (hbelow : site.Below (usableRoots roots) place) :
    canonicalize site (render true place) roots = .ok (render true place) := by
  have hblank : trimSpace (render true place) ≠ "" := by
    refine trimSpace_ne (c := '/') ?_ (by decide)
    rw [render, if_pos rfl, String.toList_ofList]
    exact List.mem_cons_self
  have habs : site.abs (render true place) = some (render true place) := by
    rw [Site.abs, Site.spelled, if_pos (isAbs_render place), Option.map_some, clean_render hnamed]
  have hself : evalSymlinks site.tree site.cwd (render true place) = some (render true place) := evalSymlinks_place hnamed hreal
  obtain ⟨dest, hleads, heq⟩ := leads_of_evalSymlinks (isAbs_render place) hself
  have hdest : dest = place := by
    have hcomps := congrArg comps heq
    rw [comps_render fun c hc => (hnamed c hc).segment, comps_render fun c hc => ((hleads.real site.tree.root fun _ h => absurd h List.not_mem_nil).2 c hc).segment] at hcomps
    exact hcomps.symm
  subst hdest
  rw [(canonicalize_place hroots hblank ⟨_, habs, hleads⟩).2, if_pos ((withinAnyRoot_iff hnamed).2 hbelow)]

end Canonical

/-- Under every site and every list of roots. -/
theorem contained (site : Site) (roots : List String) : Contained site roots where
  absolute path r h := by
    obtain ⟨place, rfl, _⟩ := canonicalize_ok h
    exact isAbs_render place
  linkFree path r h := by
    obtain ⟨place, rfl, _, hnamed, hreal, _⟩ := canonicalize_ok h
    exact evalSymlinks_place hnamed hreal
  again path r h := by
    obtain ⟨place, rfl, _, hnamed, hreal, hbelow, hroots⟩ := canonicalize_ok h
    exact canonicalize_again hroots hnamed hreal hbelow
  below path r h := by
    obtain ⟨place, rfl, _, hnamed, _, hbelow, _⟩ := canonicalize_ok h
    rw [comps_render fun c hc => (hnamed c hc).segment]
    exact Below.of_usable hbelow
  same path path' place hblank hblank' h h' := by
    by_cases hroots : usableRoots roots = []
    · rw [canonicalize, if_pos hroots, canonicalize, if_pos hroots]
    · rw [(canonicalize_place hroots hblank h).2, (canonicalize_place hroots hblank' h').2]
  plain path place h habove := by
    obtain ⟨spelled, hspelled, hleads⟩ := h
    exact ⟨clean spelled, congrArg (Option.map clean) hspelled, hleads.clean (isAbs_spelled hspelled) (habove spelled hspelled)⟩
  outside path place h hout := by
    by_cases hroots : usableRoots roots = []
    · exact ⟨_, if_pos hroots⟩
    by_cases hblank : trimSpace path = ""
    · exact ⟨.emptyLocalDir, by rw [canonicalize, if_neg hroots, if_pos hblank]⟩
    obtain ⟨hnamed, hresult⟩ := canonicalize_place hroots hblank h
    refine ⟨_, hresult.trans (if_neg fun hwithin => hout ?_)⟩
    exact Below.of_usable ((withinAnyRoot_iff hnamed).1 hwithin)
  rootless h path := by
    cases hresult : canonicalize site path roots with
    | error e => exact ⟨e, rfl⟩
    | ok r =>
      obtain ⟨_, _, _, _, _, hbelow, _⟩ := canonicalize_ok hresult
      obtain ⟨root, hroot, canonRoot, hcanon, _⟩ := Below.of_usable hbelow
      rw [h root hroot] at hcanon
      cases hcanon

/-! ## A link into the depth -/

/-- `/r/link` is a link to `x/y`. -/
def linkedSite : Site where
  tree := .ofList [(["r"], .dir), (["r", "link"], .link "x/y"), (["r", "x"], .dir), (["r", "x", "y"], .dir)] (by decide)
  cwd := []
  wd := some "/"
  dir := rfl
  named := nofun
  getwd w hw := by
    obtain rfl := Option.some.inj hw
    exact ⟨rfl, 0, .stay .here⟩

/-- The directory above the one that is linked to is not the one above the link, which is what the text says. -/
theorem linked_parent_differs : ¬ ∀ (site : Site) (roots : List String) (path path' : String) (place : List String),
    site.Names path place → site.Names path' place → canonicalize site path roots = canonicalize site path' roots := by
  intro h
  have hx : Named "x" := ⟨by decide, by decide, by decide, by decide⟩
  have hr : Named "r" := ⟨by decide, by decide, by decide, by decide⟩
  have hy : Named "y" := ⟨by decide, by decide, by decide, by decide⟩
  have hlink : Named "link" := ⟨by decide, by decide, by decide, by decide⟩
  have hnames : linkedSite.Names "/r/link/.." ["r", "x"] :=
    ⟨_, rfl, .down hr rfl (.follow hlink rfl (.down hx rfl (.down hy rfl (.up .here))))⟩
  have hnames' : linkedSite.Names "/r/x" ["r", "x"] := ⟨_, rfl, .down hr rfl (.down hx rfl .here)⟩
  have hsame := h linkedSite ["/"] _ _ _ hnames hnames'
  have hother : canonicalize linkedSite "/r/link/.." ["/"] = .ok "/r" := by decide
  have hother' : canonicalize linkedSite "/r/x" ["/"] = .ok "/r/x" := by decide
  rw [hother, hother'] at hsame
  exact absurd hsame (by decide)

end Purdex.Runtime
