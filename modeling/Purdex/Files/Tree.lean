/-
File trees with symbolic links: where a path leads in one, and `filepath.EvalSymlinks`, which finds out by text.
-/
import Purdex.Files.Lexical
import Mathlib.Data.List.Induction

namespace Files

/-! ## Trees -/

inductive Entry
  | file
  | dir
  | link (target : String)
  deriving Repr, DecidableEq

/-- What is at each place, which is named from the root down. Only a directory has something in it. -/
structure FileTree where
  entry : List String → Option Entry
  root : entry [] = some .dir
  parents : ∀ place name, (entry (place ++ [name])).isSome → entry place = some .dir

/-- The tree with these entries below the root. -/
def FileTree.ofList (l : List (List String × Entry)) (h : ∀ p ∈ l, p.1.dropLast = [] ∨ l.lookup p.1.dropLast = some .dir) : FileTree where
  entry place := if place = [] then some .dir else l.lookup place
  root := rfl
  parents place name hsome := by
    rw [if_neg (List.append_ne_nil_of_right_ne_nil _ (List.cons_ne_nil _ _)), List.lookup_isSome_iff] at hsome
    obtain ⟨p, hp, heq⟩ := hsome
    have hparent := h p hp
    rw [← eq_of_beq heq, List.dropLast_concat] at hparent
    rcases hparent with hnil | hdir
    · exact if_pos hnil
    · split
      · rfl
      · exact hdir

/-- Where a target is read from. -/
def start (target : String) (place : List String) : List String := if isAbs target then [] else place

/-- Where the steps lead from a directory, over so many links at most. -/
inductive Leads (fs : FileTree) : Nat → List String → List String → List String → Prop
  | here {n : Nat} {place : List String} : Leads fs n place [] place
  | stay {n : Nat} {place rest dest : List String} : Leads fs n place rest dest → Leads fs n place ("." :: rest) dest
  | up {n : Nat} {place rest dest : List String} : Leads fs n place.dropLast rest dest → Leads fs n place (".." :: rest) dest
  | down {n : Nat} {place rest dest : List String} {c : String} : Named c → fs.entry (place ++ [c]) = some .dir →
      Leads fs n (place ++ [c]) rest dest → Leads fs n place (c :: rest) dest
  | file {n : Nat} {place : List String} {c : String} : Named c → fs.entry (place ++ [c]) = some .file →
      Leads fs n place [c] (place ++ [c])
  | follow {n : Nat} {place rest dest : List String} {c target : String} : Named c → fs.entry (place ++ [c]) = some (.link target) →
      Leads fs n (start target place) (steps target ++ rest) dest → Leads fs (n + 1) place (c :: rest) dest

/-! ## Resolving -/

/-- A path without links, from the root or from so many directories above the working directory. -/
structure Dest where
  absolute : Bool
  above : Nat
  names : List String
  deriving Repr, DecidableEq

def Dest.place (cwd : List String) (dest : Dest) : List String :=
  if dest.absolute then dest.names else cwd.take (cwd.length - dest.above) ++ dest.names

def Dest.push (dest : Dest) (c : String) : Dest := { dest with names := dest.names ++ [c] }

/-- Above the root is the root. -/
def Dest.back (dest : Dest) : Dest :=
  if dest.names ≠ [] then { dest with names := dest.names.dropLast }
  else if dest.absolute then dest
  else { dest with above := dest.above + 1 }

def Dest.text (dest : Dest) : String :=
  if dest.absolute then render true dest.names else render false (List.replicate dest.above ".." ++ dest.names)

/-- The steps, up to a link that has to be followed. -/
def walkWith (fs : FileTree) (cwd : List String) (follow : Dest → List String → Option Dest) : Dest → List String → Option Dest
  | dest, [] => some dest
  | dest, c :: rest =>
    if c = "." then walkWith fs cwd follow dest rest
    else if c = ".." then walkWith fs cwd follow dest.back rest
    else
      match fs.entry ((dest.push c).place cwd) with
      | none => none
      | some .dir => walkWith fs cwd follow (dest.push c) rest
      | some .file => if rest = [] then some (dest.push c) else none
      | some (.link target) => follow (if isAbs target then ⟨true, 0, []⟩ else dest) (steps target ++ rest)

def walk (fs : FileTree) (cwd : List String) : Nat → Dest → List String → Option Dest
  | 0 => walkWith fs cwd fun _ _ => none
  | n + 1 => walkWith fs cwd (walk fs cwd n)

def maxLinks : Nat := 255

def evalSymlinks (fs : FileTree) (cwd : List String) (path : String) : Option String :=
  (walk fs cwd maxLinks ⟨isAbs path, 0, []⟩ (steps path)).map Dest.text

section Resolving

variable {fs : FileTree} {cwd place dest todo : List String} {n : Nat} {d d' : Dest} {c path target : String}
  {follow : Dest → List String → Option Dest}

theorem place_push (d : Dest) (c : String) : (d.push c).place cwd = d.place cwd ++ [c] := by
  unfold Dest.place Dest.push
  split
  · rfl
  · exact (List.append_assoc _ _ _).symm

theorem place_back (d : Dest) : d.back.place cwd = (d.place cwd).dropLast := by
  obtain ⟨absolute, above, names⟩ := d
  unfold Dest.back
  by_cases hnames : names = []
  · subst hnames
    cases absolute with
    | true => rfl
    | false =>
      change cwd.take (cwd.length - (above + 1)) ++ [] = (cwd.take (cwd.length - above) ++ []).dropLast
      rw [List.append_nil, List.append_nil, List.dropLast_eq_take, List.length_take, List.take_take]
      congr 1
      omega
  · rw [if_pos hnames]
    cases absolute with
    | true => rfl
    | false => exact (List.dropLast_append_of_ne_nil hnames).symm

theorem absolute_back (d : Dest) : d.back.absolute = d.absolute := by
  unfold Dest.back
  split
  · rfl
  · split <;> rfl

theorem steps_segment (path : String) : ∀ c ∈ steps path, c ≠ "" ∧ '/' ∉ c.toList := by
  intro c hc
  rcases List.mem_append.1 hc with hc | hc
  · exact comps_segment path c hc
  · split at hc
    · obtain rfl := List.mem_singleton.1 hc
      decide
    · cases hc

theorem place_target (target : String) (d : Dest) :
    (if isAbs target then (⟨true, 0, []⟩ : Dest) else d).place cwd = start target (d.place cwd) := by
  unfold start
  split <;> rfl

theorem walk_nil : walk fs cwd n d [] = some d := by
  cases n <;> rfl

theorem walk_cons (rest : List String) : walk fs cwd n d (c :: rest) =
    if c = "." then walk fs cwd n d rest
    else if c = ".." then walk fs cwd n d.back rest
    else
      match fs.entry ((d.push c).place cwd) with
      | none => none
      | some .dir => walk fs cwd n (d.push c) rest
      | some .file => if rest = [] then some (d.push c) else none
      | some (.link target) =>
        match n with
        | 0 => none
        | m + 1 => walk fs cwd m (if isAbs target then ⟨true, 0, []⟩ else d) (steps target ++ rest) := by
  cases n <;> rfl

/-- A walk ends where its steps lead. -/
theorem walk_sound (hsegments : ∀ c ∈ todo, c ≠ "" ∧ '/' ∉ c.toList) (h : walk fs cwd n d todo = some d') :
    Leads fs n (d.place cwd) todo (d'.place cwd) := by
  induction n using Nat.strongRecOn generalizing d todo with
  | ind n ihn =>
    induction todo generalizing d with
    | nil =>
      rw [walk_nil] at h
      obtain rfl := Option.some.inj h
      exact .here
    | cons c rest ih =>
      obtain ⟨hc, hrest⟩ := List.forall_mem_cons.1 hsegments
      rw [walk_cons] at h
      by_cases hhere : c = "."
      · subst hhere
        exact .stay (ih hrest h)
      rw [if_neg hhere] at h
      by_cases habove : c = ".."
      · subst habove
        exact .up (place_back d ▸ ih hrest h)
      rw [if_neg habove] at h
      have hnamed : Named c := ⟨hc.1, hc.2, hhere, habove⟩
      split at h
      · cases h
      · rename_i hentry
        rw [place_push] at hentry
        exact .down hnamed hentry (place_push d c ▸ ih hrest h)
      · rename_i hentry
        rw [place_push] at hentry
        split at h
        · rename_i hlast
          subst hlast
          obtain rfl := Option.some.inj h
          rw [place_push]
          exact .file hnamed hentry
        · cases h
      · rename_i target hentry
        rw [place_push] at hentry
        cases n with
        | zero => cases h
        | succ m =>
          refine .follow hnamed hentry ?_
          rw [← place_target target d]
          exact ihn m (Nat.lt_succ_self m) (List.forall_mem_append.2 ⟨steps_segment target, hrest⟩) h

/-- And finds where its steps lead. -/
theorem walk_complete (h : Leads fs n place todo dest) : ∀ {d : Dest}, d.place cwd = place →
    ∃ d', walk fs cwd n d todo = some d' ∧ d'.place cwd = dest := by
  induction h with
  | here => exact fun hplace => ⟨_, walk_nil, hplace⟩
  | stay _ ih =>
    intro d hplace
    rw [walk_cons, if_pos rfl]
    exact ih hplace
  | up _ ih =>
    intro d hplace
    rw [walk_cons, if_neg (by decide), if_pos rfl]
    exact ih (hplace ▸ place_back d)
  | down hnamed hentry _ ih =>
    intro d hplace
    rw [walk_cons, if_neg hnamed.here, if_neg hnamed.above, place_push, hplace, hentry]
    exact ih (by rw [place_push, hplace])
  | file hnamed hentry =>
    intro d hplace
    rw [walk_cons, if_neg hnamed.here, if_neg hnamed.above, place_push, hplace, hentry]
    exact ⟨_, if_pos rfl, by rw [place_push, hplace]⟩
  | @follow _ _ _ _ _ target hnamed hentry _ ih =>
    intro d hplace
    rw [walk_cons, if_neg hnamed.here, if_neg hnamed.above, place_push, hplace, hentry]
    exact ih ((place_target target d).trans (congrArg (start target) hplace))

theorem walk_absolute (habsolute : d.absolute = true) (h : walk fs cwd n d todo = some d') : d'.absolute = true := by
  induction n using Nat.strongRecOn generalizing d todo with
  | ind n ihn =>
    induction todo generalizing d with
    | nil =>
      rw [walk_nil] at h
      exact Option.some.inj h ▸ habsolute
    | cons c rest ih =>
      rw [walk_cons] at h
      split at h
      · exact ih habsolute h
      split at h
      · exact ih ((absolute_back d).trans habsolute) h
      split at h
      · cases h
      · exact ih (show (d.push c).absolute = true from habsolute) h
      · split at h
        · exact Option.some.inj h ▸ habsolute
        · cases h
      · rename_i target _
        cases n with
        | zero => cases h
        | succ m =>
          refine ihn m (Nat.lt_succ_self m) ?_ h
          split
          · rfl
          · exact habsolute

/-! ## Places -/

theorem entry_of_prefix {rest : List String} (h : (fs.entry (place ++ rest)).isSome) (hne : rest ≠ []) : fs.entry place = some .dir := by
  induction rest using List.reverseRecOn with
  | nil => exact absurd rfl hne
  | append_singleton rest c ih =>
    have hparent := fs.parents (place ++ rest) c (List.append_assoc _ _ _ ▸ h)
    by_cases hrest : rest = []
    · rw [hrest, List.append_nil] at hparent
      exact hparent
    · exact ih (Option.isSome_of_eq_some hparent) hrest

theorem entry_dropLast (h : fs.entry place = some .dir) : fs.entry place.dropLast = some .dir := by
  rcases List.eq_nil_or_concat place with rfl | ⟨init, c, rfl⟩
  · exact h
  · rw [List.concat_eq_append] at h ⊢
    rw [List.dropLast_concat]
    exact fs.parents init c (Option.isSome_of_eq_some h)

/-- What is led to is no link, and has names only. -/
theorem Leads.real (h : Leads fs n place todo dest) (hdir : fs.entry place = some .dir) (hnamed : ∀ c ∈ place, Named c) :
    (fs.entry dest = some .dir ∨ fs.entry dest = some .file) ∧ ∀ c ∈ dest, Named c := by
  induction h with
  | here => exact ⟨.inl hdir, hnamed⟩
  | stay _ ih => exact ih hdir hnamed
  | up _ ih => exact ih (entry_dropLast hdir) fun c hc => hnamed c (List.dropLast_subset _ hc)
  | down hc hentry _ ih => exact ih hentry (List.forall_mem_append.2 ⟨hnamed, List.forall_mem_singleton.2 hc⟩)
  | file hc hentry => exact ⟨.inr hentry, List.forall_mem_append.2 ⟨hnamed, List.forall_mem_singleton.2 hc⟩⟩
  | @follow _ place _ _ _ target _ _ _ ih =>
    refine ih ?_ ?_
    · unfold start
      split
      · exact fs.root
      · exact hdir
    · unfold start
      split
      · exact nofun
      · exact hnamed

/-- Without links, names lead to themselves. -/
theorem leads_names {names : List String} (hnamed : ∀ c ∈ names, Named c)
    (h : fs.entry (place ++ names) = some .dir ∨ fs.entry (place ++ names) = some .file) (hne : names = [] → fs.entry place = some .dir) :
    Leads fs n place names (place ++ names) := by
  induction names generalizing place with
  | nil => rw [List.append_nil]; exact .here
  | cons c rest ih =>
    obtain ⟨hc, hrest⟩ := List.forall_mem_cons.1 hnamed
    rw [List.append_cons] at h ⊢
    by_cases hlast : rest = []
    · subst hlast
      rw [List.append_nil] at h ⊢
      rcases h with hentry | hentry
      · exact .down hc hentry .here
      · exact .file hc hentry
    · have hdir : fs.entry (place ++ [c]) = some .dir := by
        refine entry_of_prefix ?_ hlast
        rcases h with hentry | hentry <;> exact Option.isSome_of_eq_some hentry
      exact .down hc hdir (ih hrest h fun _ => hdir)

/-! ## Dots -/

/-- The same steps, but for some that stay where they are. -/
inductive Undotted : List String → List String → Prop
  | nil : Undotted [] []
  | keep {c : String} {todo todo' : List String} : Undotted todo todo' → Undotted (c :: todo) (c :: todo')
  | skip {todo todo' : List String} : Undotted todo todo' → Undotted ("." :: todo) todo'

theorem Undotted.append_left {todo' : List String} (h : Undotted todo todo') : ∀ before, Undotted (before ++ todo) (before ++ todo')
  | [] => h
  | _ :: before => .keep (h.append_left before)

theorem undotted_filter : ∀ todo : List String, Undotted todo (todo.filter (· ≠ "."))
  | [] => .nil
  | c :: todo => by
    by_cases hc : c = "."
    · rw [List.filter_cons_of_neg (by simpa using hc), hc]
      exact .skip (undotted_filter todo)
    · rw [List.filter_cons_of_pos (by simpa using hc)]
      exact .keep (undotted_filter todo)

theorem Undotted.cons_inv {todo' : List String} (h : Undotted (c :: todo) todo') (hc : c ≠ ".") :
    ∃ rest, todo' = c :: rest ∧ Undotted todo rest := by
  cases h with
  | keep h => exact ⟨_, rfl, h⟩
  | skip h => exact absurd rfl hc

theorem Leads.undot (h : Leads fs n place todo dest) : ∀ {todo'}, Undotted todo todo' → Leads fs n place todo' dest := by
  induction h with
  | here =>
    rintro _ ⟨⟩
    exact .here
  | stay _ ih =>
    rintro _ (_ | hrest | hrest)
    · exact .stay (ih hrest)
    · exact ih hrest
  | up _ ih =>
    intro _ hundotted
    obtain ⟨_, rfl, hrest⟩ := hundotted.cons_inv (by decide)
    exact .up (ih hrest)
  | down hnamed hentry _ ih =>
    intro _ hundotted
    obtain ⟨_, rfl, hrest⟩ := hundotted.cons_inv hnamed.here
    exact .down hnamed hentry (ih hrest)
  | file hnamed hentry =>
    intro _ hundotted
    obtain ⟨_, rfl, hrest⟩ := hundotted.cons_inv hnamed.here
    cases hrest
    exact .file hnamed hentry
  | @follow _ _ _ _ _ target hnamed hentry _ ih =>
    intro _ hundotted
    obtain ⟨_, rfl, hrest⟩ := hundotted.cons_inv hnamed.here
    exact .follow hnamed hentry (ih (hrest.append_left (steps target)))

/-- A path without a step up leads where it does when it is clean. -/
theorem Leads.clean (habs : isAbs path = true) (habove : ".." ∉ comps path) (h : Leads fs n [] (steps path) dest) :
    Leads fs n [] (steps (clean path)) dest := by
  have hclean : Files.clean path = render true ((comps path).filter (· ≠ ".")) := by
    rw [Files.clean, habs, cleanComps, cleanComps_plain true habove, List.nil_append]
  have hnamed : ∀ c ∈ (comps path).filter (· ≠ "."), Named c := by
    intro c hc
    obtain ⟨hmem, hhere⟩ := List.mem_filter.1 hc
    obtain ⟨hne, hslash⟩ := comps_segment path c hmem
    exact ⟨hne, hslash, by simpa using hhere, fun heq => habove (heq ▸ hmem)⟩
  have hundotted : Undotted (steps path) ((comps path).filter (· ≠ ".")) := by
    have hfilter := undotted_filter (steps path)
    rw [steps, List.filter_append] at hfilter
    rw [steps]
    split at hfilter
    · rename_i hlast
      rw [if_pos hlast]
      simpa using hfilter
    · rename_i hlast
      rw [if_neg hlast]
      simpa using hfilter
  have hleads := h.undot hundotted
  rw [hclean, steps_render hnamed]
  split
  · rename_i hnil
    rw [hnil] at hleads
    exact .stay hleads
  · exact hleads

/-! ## Absolute paths -/

theorem evalSymlinks_abs (habs : isAbs path = true) (hleads : Leads fs maxLinks [] (steps path) dest) :
    evalSymlinks fs cwd path = some (render true dest) := by
  obtain ⟨d', hwalk, hplace⟩ := @walk_complete fs cwd _ _ _ _ hleads ⟨true, 0, []⟩ rfl
  have habsolute := walk_absolute rfl hwalk
  rw [Dest.place, if_pos habsolute] at hplace
  rw [evalSymlinks, habs, hwalk, Option.map_some, Dest.text, if_pos habsolute, hplace]

theorem leads_of_evalSymlinks {r : String} (habs : isAbs path = true) (h : evalSymlinks fs cwd path = some r) :
    ∃ dest, Leads fs maxLinks [] (steps path) dest ∧ r = render true dest := by
  rw [evalSymlinks, habs] at h
  obtain ⟨d', hwalk, rfl⟩ := Option.map_eq_some_iff.1 h
  have habsolute := walk_absolute rfl hwalk
  have hsound := walk_sound (steps_segment path) hwalk
  rw [Dest.place, if_pos rfl, Dest.place, if_pos habsolute] at hsound
  exact ⟨d'.names, hsound, by rw [Dest.text, if_pos habsolute]⟩

/-- A place is resolved to itself. -/
theorem evalSymlinks_place (hnamed : ∀ c ∈ dest, Named c) (h : fs.entry dest = some .dir ∨ fs.entry dest = some .file) :
    evalSymlinks fs cwd (render true dest) = some (render true dest) := by
  refine evalSymlinks_abs (isAbs_render dest) ?_
  rw [steps_render hnamed]
  by_cases hne : dest = []
  · rw [if_pos hne, hne]
    exact .stay .here
  · rw [if_neg hne]
    exact @leads_names fs [] _ dest hnamed h fun heq => absurd heq hne

/-- A result is a place with names only, or relative. -/
theorem evalSymlinks_cases {r : String} (hdir : fs.entry cwd = some .dir) (hcwd : ∀ c ∈ cwd, Named c) (h : evalSymlinks fs cwd path = some r) :
    (∃ dest, r = render true dest ∧ ∀ c ∈ dest, Named c) ∨ isAbs r = false := by
  obtain ⟨⟨absolute, above, names⟩, hwalk, rfl⟩ := Option.map_eq_some_iff.1 h
  have hstart : (⟨isAbs path, 0, []⟩ : Dest).place cwd = if isAbs path then [] else cwd := by
    unfold Dest.place
    split
    · rfl
    · rw [Nat.sub_zero, List.take_length, List.append_nil]
  have hnames : ∀ c ∈ (Dest.mk absolute above names).place cwd, Named c := by
    refine (walk_sound (steps_segment path) hwalk |>.real ?_ ?_).2
    · rw [hstart]
      split
      · exact fs.root
      · exact hdir
    · rw [hstart]
      split
      · exact nofun
      · exact hcwd
  cases absolute with
  | true => exact .inl ⟨names, rfl, hnames⟩
  | false =>
    refine .inr (isAbs_relative fun c hc => ?_)
    rcases List.mem_append.1 hc with hc | hc
    · obtain rfl := List.eq_of_mem_replicate hc
      decide
    · exact (hnames c (List.mem_append_right _ hc)).segment

end Resolving

end Files
