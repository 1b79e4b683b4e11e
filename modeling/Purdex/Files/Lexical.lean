/-
Paths as texts: their components, and what can be said of them without a look at any file.
-/
import Purdex.Text.Joined

namespace Files

/-! ## Components -/

def isAbs (s : String) : Bool := s.toList.head? = some '/'

def comps (s : String) : List String := ((s.toList.splitOn '/').filter (· ≠ [])).map String.ofList

/-- What is gone through one by one: a slash at the end asks for a directory. -/
def steps (s : String) : List String := comps s ++ if s.toList.getLast? = some '/' then ["."] else []

/-- A component that is the name of an entry. -/
structure Named (c : String) : Prop where
  nonempty : c ≠ ""
  unslashed : '/' ∉ c.toList
  here : c ≠ "."
  above : c ≠ ".."

/-- Components with slashes between them, behind one where the path is absolute. -/
def render (absolute : Bool) (cs : List String) : String :=
  if absolute then String.ofList ('/' :: ['/'].intercalate (cs.map String.toList))
  else if cs = [] then "."
  else String.ofList (['/'].intercalate (cs.map String.toList))

/-- One more component behind those that are clean. -/
def cleanStep (absolute : Bool) (done : List String) (c : String) : List String :=
  if c = "." then done
  else if c = ".." then
    match done.getLast? with
    | some name => if name = ".." then done ++ [".."] else done.dropLast
    | none => if absolute then [] else [".."]
  else done ++ [c]

def cleanComps (absolute : Bool) (cs : List String) : List String := cs.foldl (cleanStep absolute) []

/-- `filepath.Clean`. -/
def clean (s : String) : String := render (isAbs s) (cleanComps (isAbs s) (comps s))

/-- What is left of two lists behind what both begin with. -/
def dropCommon : List String → List String → List String × List String
  | b :: bs, t :: ts => if b = t then dropCommon bs ts else (b :: bs, t :: ts)
  | bs, ts => (bs, ts)

/-- `filepath.Rel`: none where one is absolute and the other not, or where what is above the base is not told by its text. -/
def rel (base target : String) : Option String :=
  if isAbs base ≠ isAbs target then none
  else
    let (bs, ts) := dropCommon (cleanComps (isAbs base) (comps base)) (cleanComps (isAbs target) (comps target))
    if bs.head? = some ".." then none else some (render false (bs.map (fun _ => "..") ++ ts))

section Lexical

variable {s : String} {c : String} {cs bs ts : List String}

theorem comps_segment (s : String) : ∀ c ∈ comps s, c ≠ "" ∧ '/' ∉ c.toList := by
  intro c hc
  obtain ⟨seg, hseg, rfl⟩ := List.mem_map.1 hc
  obtain ⟨hmem, hne⟩ := List.mem_filter.1 hseg
  refine ⟨fun h => ?_, ?_⟩
  · have hnil : seg = [] := by rw [← String.toList_ofList (l := seg), h]; rfl
    exact absurd hnil (by simpa using hne)
  · rw [String.toList_ofList]
    exact Joined.not_mem_splitOn seg hmem

theorem comps_joined (h : ∀ c ∈ cs, c ≠ "" ∧ '/' ∉ c.toList) :
    (((['/'].intercalate (cs.map String.toList)).splitOn '/').filter (· ≠ [])).map String.ofList = cs := by
  cases cs with
  | nil => rfl
  | cons c rest =>
    have hunslashed : ∀ seg ∈ (c :: rest).map String.toList, '/' ∉ seg := by
      intro seg hseg
      obtain ⟨c', hc', rfl⟩ := List.mem_map.1 hseg
      exact (h c' hc').2
    have hnonempty : ((c :: rest).map String.toList).filter (· ≠ []) = (c :: rest).map String.toList := by
      refine List.filter_eq_self.2 fun seg hseg => decide_eq_true ?_
      obtain ⟨c', hc', rfl⟩ := List.mem_map.1 hseg
      exact fun hnil => (h c' hc').1 (String.toList_eq_nil_iff.1 hnil)
    rw [List.splitOn_intercalate '/' hunslashed (List.cons_ne_nil _ _), hnonempty, List.map_map]
    exact List.map_id'' (fun _ => String.ofList_toList) _

theorem isAbs_render (cs : List String) : isAbs (render true cs) = true := by
  simp [isAbs, render]

theorem comps_render (h : ∀ c ∈ cs, c ≠ "" ∧ '/' ∉ c.toList) : comps (render true cs) = cs := by
  have hsplit : (render true cs).toList.splitOn '/' = [] :: (['/'].intercalate (cs.map String.toList)).splitOn '/' := by
    rw [render, if_pos rfl, String.toList_ofList, List.splitOn_cons_eq_if_modifyHead, if_pos (by decide)]
  rw [comps, hsplit, List.filter_cons_of_neg (by simp), comps_joined h]

theorem cleanComps_named (absolute : Bool) (h : ∀ c ∈ cs, Named c) (done : List String) : cs.foldl (cleanStep absolute) done = done ++ cs := by
  induction cs generalizing done with
  | nil => simp
  | cons c cs ih =>
    obtain ⟨hc, hcs⟩ := List.forall_mem_cons.1 h
    rw [List.foldl_cons, cleanStep, if_neg hc.here, if_neg hc.above, ih hcs, List.append_assoc, List.singleton_append]

/-- Without a step up nothing but the dots goes. -/
theorem cleanComps_plain (absolute : Bool) (h : ".." ∉ cs) (done : List String) :
    cs.foldl (cleanStep absolute) done = done ++ cs.filter (· ≠ ".") := by
  induction cs generalizing done with
  | nil => simp
  | cons c cs ih =>
    rw [List.mem_cons, not_or] at h
    rw [List.foldl_cons, cleanStep, ih h.2]
    by_cases hc : c = "."
    · rw [if_pos hc, List.filter_cons_of_neg (by simpa using hc)]
    · rw [if_neg hc, if_neg (Ne.symm h.1), List.filter_cons_of_pos (by simpa using hc), List.append_assoc, List.singleton_append]

/-- What is clean and absolute has names only. -/
theorem named_cleanComps (h : ∀ c ∈ cs, c ≠ "" ∧ '/' ∉ c.toList) : ∀ {done : List String}, (∀ c ∈ done, Named c) →
    ∀ c ∈ cs.foldl (cleanStep true) done, Named c := by
  induction cs with
  | nil => exact fun hdone => hdone
  | cons c cs ih =>
    intro done hdone
    obtain ⟨hc, hcs⟩ := List.forall_mem_cons.1 h
    rw [List.foldl_cons]
    refine ih hcs ?_
    unfold cleanStep
    split
    · exact hdone
    rename_i hhere
    split
    · split
      · rename_i name hlast
        rw [if_neg (hdone name (List.mem_of_getLast? hlast)).above]
        exact fun c' hc' => hdone c' (List.dropLast_subset _ hc')
      · exact nofun
    · rename_i habove
      intro c' hc'
      rcases List.mem_append.1 hc' with hc' | hc'
      · exact hdone c' hc'
      · obtain rfl := List.mem_singleton.1 hc'
        exact ⟨hc.1, hc.2, hhere, habove⟩

theorem Named.segment (h : Named c) : c ≠ "" ∧ '/' ∉ c.toList := ⟨h.nonempty, h.unslashed⟩

theorem clean_render (h : ∀ c ∈ cs, Named c) : clean (render true cs) = render true cs := by
  rw [clean, isAbs_render, comps_render fun c hc => (h c hc).segment, cleanComps, cleanComps_named true h, List.nil_append]

theorem getLast?_joined (h : ∀ c ∈ cs, Named c) (hne : cs ≠ []) : (['/'].intercalate (cs.map String.toList)).getLast? ≠ some '/' := by
  induction cs with
  | nil => exact absurd rfl hne
  | cons c rest ih =>
    obtain ⟨hc, hrest⟩ := List.forall_mem_cons.1 h
    cases rest with
    | nil =>
      rw [List.map_singleton, List.intercalate_singleton]
      exact fun hlast => hc.unslashed (List.mem_of_getLast? hlast)
    | cons c' rest =>
      have hlast := ih hrest (List.cons_ne_nil _ _)
      rw [List.map_cons, List.map_cons, List.intercalate_cons_cons, List.append_assoc, List.getLast?_append, List.getLast?_append]
      intro heq
      cases hjoined : (['/'].intercalate (c'.toList :: rest.map String.toList)).getLast? with
      | some x =>
        rw [hjoined] at heq
        exact hlast (hjoined.trans heq)
      | none =>
        rw [List.getLast?_eq_none_iff] at hjoined
        have hsegments := @comps_joined (c' :: rest) fun c hc => (hrest c hc).segment
        rw [List.map_cons, hjoined] at hsegments
        cases hsegments

/-- The steps of a clean path are its names, but for those of the root. -/
theorem steps_render (h : ∀ c ∈ cs, Named c) : steps (render true cs) = if cs = [] then ["."] else cs := by
  have hcomps : comps (render true cs) = cs := comps_render fun c hc => (h c hc).segment
  rw [steps, hcomps]
  by_cases hne : cs = []
  · subst hne
    rfl
  · have hlast : (render true cs).toList.getLast? ≠ some '/' := by
      rw [render, if_pos rfl, String.toList_ofList, List.getLast?_cons]
      cases hjoined : (['/'].intercalate (cs.map String.toList)).getLast? with
      | some x => exact fun heq => getLast?_joined h hne (hjoined.trans (by simpa using heq))
      | none =>
        have hsegments := @comps_joined cs fun c hc => (h c hc).segment
        rw [List.getLast?_eq_none_iff.1 hjoined] at hsegments
        exact absurd hsegments.symm hne
    rw [if_neg hlast, if_neg hne, List.append_nil]

theorem dropCommon_append (rest : List String) : dropCommon bs (bs ++ rest) = ([], rest) := by
  induction bs with
  | nil =>
    rw [List.nil_append]
    unfold dropCommon
    cases rest <;> rfl
  | cons b bs ih => rw [List.cons_append, dropCommon, if_pos rfl, ih]

theorem prefix_of_dropCommon (h : (dropCommon bs ts).1 = []) : bs <+: ts := by
  induction bs generalizing ts with
  | nil => exact List.nil_prefix
  | cons b bs ih =>
    cases ts with
    | nil => cases h
    | cons t ts =>
      rw [dropCommon] at h
      split at h
      · rename_i heq
        exact heq ▸ List.cons_prefix_cons.2 ⟨rfl, ih h⟩
      · cases h

/-! ## Relative paths -/

theorem toList_render (c : String) (rest : List String) : (render false (c :: rest)).toList =
    c.toList ++ if rest = [] then [] else '/' :: ['/'].intercalate (rest.map String.toList) := by
  rw [render, if_neg Bool.false_ne_true, if_neg (List.cons_ne_nil _ _), String.toList_ofList]
  cases rest with
  | nil => simp
  | cons c' rest => rw [if_neg (List.cons_ne_nil _ _), List.map_cons, List.map_cons, List.intercalate_cons_cons, List.append_assoc]; rfl

theorem isAbs_relative (h : ∀ c ∈ cs, c ≠ "" ∧ '/' ∉ c.toList) : isAbs (render false cs) = false := by
  cases cs with
  | nil => rfl
  | cons c rest =>
    obtain ⟨hne, hslash⟩ := h c List.mem_cons_self
    rw [isAbs, toList_render, decide_eq_false_iff_not]
    cases hc : c.toList with
    | nil => exact absurd (String.toList_eq_nil_iff.1 hc) hne
    | cons x xs =>
      rw [List.cons_append, List.head?_cons]
      intro heq
      exact hslash (hc ▸ Option.some.inj heq ▸ List.mem_cons_self)

/-- A text that begins with the step up. -/
theorem above_render (rest : List String) :
    render false (".." :: rest) = ".." ∨ ['.', '.', '/'] <+: (render false (".." :: rest)).toList := by
  by_cases hrest : rest = []
  · subst hrest
    exact .inl rfl
  · right
    rw [toList_render, if_neg hrest]
    exact ⟨_, rfl⟩

/-- A text that begins with a name does not begin with the step up. -/
theorem below_render (hc : Named c) (rest : List String) :
    render false (c :: rest) ≠ ".." ∧ ¬['.', '.', '/'] <+: (render false (c :: rest)).toList := by
  obtain ⟨hne, hslash, hhere, habove⟩ := hc
  have hdots : c.toList ≠ ['.', '.'] := fun h => habove (String.toList_inj.1 h)
  have htail : ∃ tail, (render false (c :: rest)).toList = c.toList ++ tail ∧ (tail = [] ∨ tail.head? = some '/') := by
    refine ⟨_, toList_render c rest, ?_⟩
    split
    · exact .inl rfl
    · exact .inr rfl
  obtain ⟨tail, htext, htail⟩ := htail
  constructor
  · intro heq
    rw [heq] at htext
    change ['.', '.'] = _ at htext
    rcases htail with rfl | htail
    · exact hdots (by rw [htext, List.append_nil])
    · have hmem : '/' ∈ ['.', '.'] := htext ▸ List.mem_append_right _ (List.mem_of_head? htail)
      exact absurd hmem (by decide)
  · rw [htext]
    -- the third character is within the name, or ends it
    rcases hc : c.toList with _ | ⟨x, _ | ⟨y, _ | ⟨z, cs⟩⟩⟩
    · exact absurd (String.toList_eq_nil_iff.1 hc) hne
    · rintro ⟨more, hmore⟩
      obtain ⟨-, hmore⟩ := List.cons.inj hmore
      rcases htail with rfl | htail
      · cases hmore
      · change '.' :: '/' :: more = tail at hmore
        rw [← hmore] at htail
        cases htail
    · rintro ⟨more, hmore⟩
      obtain ⟨hx, hrest⟩ := List.cons.inj hmore
      obtain ⟨hy, -⟩ := List.cons.inj hrest
      exact hdots (by rw [hc, ← hx, ← hy])
    · rintro ⟨more, hmore⟩
      obtain ⟨-, hrest⟩ := List.cons.inj hmore
      obtain ⟨-, hrest⟩ := List.cons.inj hrest
      obtain ⟨hz, -⟩ := List.cons.inj hrest
      exact hslash (by rw [hc, ← hz]; simp)

/-- Of two clean absolute paths the second is told by names from the first exactly where it is below. -/
theorem rel_render (hbs : ∀ c ∈ bs, Named c) (hts : ∀ c ∈ ts, Named c) : rel (render true bs) (render true ts) =
    if (dropCommon bs ts).1.head? = some ".." then none
    else some (render false ((dropCommon bs ts).1.map (fun _ => "..") ++ (dropCommon bs ts).2)) := by
  rw [rel, if_neg (by rw [isAbs_render, isAbs_render]; exact not_not.2 rfl), isAbs_render, isAbs_render,
    comps_render fun c hc => (hbs c hc).segment, comps_render fun c hc => (hts c hc).segment, cleanComps, cleanComps,
    cleanComps_named true hbs, cleanComps_named true hts, List.nil_append, List.nil_append]

theorem rel_relative {base : String} (hbase : isAbs base = false) : rel base (render true ts) = none := by
  rw [rel, if_pos (by rw [hbase, isAbs_render]; exact Bool.false_ne_true)]

theorem segment_cleanComps (absolute : Bool) (h : ∀ c ∈ cs, c ≠ "" ∧ '/' ∉ c.toList) : ∀ {done : List String},
    (∀ c ∈ done, c ≠ "" ∧ '/' ∉ c.toList) → ∀ c ∈ cs.foldl (cleanStep absolute) done, c ≠ "" ∧ '/' ∉ c.toList := by
  induction cs with
  | nil => exact fun hdone => hdone
  | cons c cs ih =>
    intro done hdone
    obtain ⟨hc, hcs⟩ := List.forall_mem_cons.1 h
    have hup : ".." ≠ "" ∧ '/' ∉ "..".toList := by decide
    rw [List.foldl_cons]
    refine ih hcs ?_
    unfold cleanStep
    split
    · exact hdone
    split
    · split
      · split
        · exact List.forall_mem_append.2 ⟨hdone, List.forall_mem_singleton.2 hup⟩
        · exact fun c' hc' => hdone c' (List.dropLast_subset _ hc')
      · split
        · exact nofun
        · exact List.forall_mem_singleton.2 hup
    · exact List.forall_mem_append.2 ⟨hdone, List.forall_mem_singleton.2 hc⟩

theorem isAbs_clean (s : String) : isAbs (clean s) = isAbs s := by
  rw [clean]
  cases h : isAbs s with
  | true => exact isAbs_render _
  | false => exact isAbs_relative (segment_cleanComps false (comps_segment s) nofun)

/-! ### Going down -/

/-- What is left of a relative path: steps up, and names behind them. -/
def Upward (cs : List String) : Prop := ∃ k names, cs = List.replicate k ".." ++ names ∧ ∀ c ∈ names, Named c

theorem upward_cleanStep (hc : c ≠ "" ∧ '/' ∉ c.toList) {done : List String} (h : Upward done) : Upward (cleanStep false done c) := by
  obtain ⟨k, names, rfl, hnames⟩ := h
  unfold cleanStep
  split
  · exact ⟨k, names, rfl, hnames⟩
  rename_i hhere
  split
  · rcases List.eq_nil_or_concat names with rfl | ⟨names, name, rfl⟩
    · -- There is nothing to go back from.
      refine ⟨k + 1, [], ?_, nofun⟩
      rw [List.append_nil, List.append_nil]
      cases k with
      | zero => rfl
      | succ k => rw [List.getLast?_replicate, if_neg (Nat.succ_ne_zero k)]; exact List.replicate_succ'.symm
    · rw [List.concat_eq_append] at hnames ⊢
      refine ⟨k, names, ?_, fun c' hc' => hnames c' (List.mem_append_left _ hc')⟩
      have hname := hnames name (List.mem_append_right _ List.mem_cons_self)
      rw [← List.append_assoc, List.getLast?_concat, List.dropLast_concat]
      exact if_neg hname.above
  · rename_i habove
    refine ⟨k, names ++ [c], List.append_assoc _ _ _, List.forall_mem_append.2 ⟨hnames, List.forall_mem_singleton.2 ?_⟩⟩
    exact ⟨hc.1, hc.2, hhere, habove⟩

theorem upward_cleanComps (h : ∀ c ∈ cs, c ≠ "" ∧ '/' ∉ c.toList) : ∀ {done : List String}, Upward done → Upward (cs.foldl (cleanStep false) done) := by
  induction cs with
  | nil => exact id
  | cons c cs ih =>
    intro done hdone
    obtain ⟨hc, hcs⟩ := List.forall_mem_cons.1 h
    exact ih hcs (upward_cleanStep hc hdone)

theorem cleanComps_upward (h : Upward cs) : cleanComps false cs = cs := by
  obtain ⟨k, names, rfl, hnames⟩ := h
  have hup : ∀ j k, (List.replicate k "..").foldl (cleanStep false) (List.replicate j "..") = List.replicate (j + k) ".." := by
    intro j k
    induction k generalizing j with
    | zero => rfl
    | succ k ih =>
      have hstep : cleanStep false (List.replicate j "..") ".." = List.replicate (j + 1) ".." := by
        cases j with
        | zero => rfl
        | succ j =>
          rw [cleanStep, if_neg (by decide), if_pos rfl, List.getLast?_replicate, if_neg (Nat.succ_ne_zero j)]
          exact List.replicate_succ'.symm
      rw [List.replicate_succ, List.foldl_cons, hstep, ih, Nat.add_right_comm, Nat.add_assoc]
  rw [cleanComps, List.foldl_append, cleanComps_named false hnames]
  exact congrArg (· ++ names) ((hup 0 k).trans (by rw [Nat.zero_add]))

theorem cleanComps_idem (absolute : Bool) (h : ∀ c ∈ cs, c ≠ "" ∧ '/' ∉ c.toList) :
    cleanComps absolute (cleanComps absolute cs) = cleanComps absolute cs := by
  cases absolute with
  | true =>
    have hnamed : ∀ c ∈ cleanComps true cs, Named c := named_cleanComps h nofun
    exact cleanComps_named true hnamed []
  | false => exact cleanComps_upward (upward_cleanComps h ⟨0, [], rfl, nofun⟩)

/-- The components that a text means. -/
def cleaned (s : String) : List String := cleanComps (isAbs s) (comps s)

theorem comps_relative (h : ∀ c ∈ cs, c ≠ "" ∧ '/' ∉ c.toList) (hne : cs ≠ []) : comps (render false cs) = cs := by
  rw [render, if_neg Bool.false_ne_true, if_neg hne, comps, String.toList_ofList]
  exact comps_joined h

theorem cleaned_clean (s : String) : cleaned (clean s) = cleaned s := by
  have hsegment : ∀ c ∈ cleanComps (isAbs s) (comps s), c ≠ "" ∧ '/' ∉ c.toList := segment_cleanComps (isAbs s) (comps_segment s) nofun
  rw [cleaned, isAbs_clean, clean]
  cases habs : isAbs s with
  | true =>
    rw [habs] at hsegment
    rw [comps_render hsegment, cleanComps_idem true (comps_segment s), cleaned, habs]
  | false =>
    rw [habs] at hsegment
    rw [cleaned, habs]
    by_cases hnil : cleanComps false (comps s) = []
    · rw [hnil]
      rfl
    · rw [comps_relative hsegment hnil, cleanComps_idem false (comps_segment s)]

/-- `filepath.Join` of two. -/
def join (a b : String) : String := if a = "" then (if b = "" then "" else clean b) else clean (a ++ "/" ++ b)

theorem comps_append (a b : String) : comps (a ++ "/" ++ b) = comps a ++ comps b := by
  have hlist : (a ++ "/" ++ b).toList = a.toList ++ '/' :: b.toList := by
    rw [String.toList_append, String.toList_append, List.append_assoc]
    rfl
  rw [comps, hlist, List.splitOn_append_cons_self, List.filter_append, List.map_append, comps, comps]

theorem comps_named (h : Named c) : comps c = [c] := by
  rw [comps, List.splitOn_eq_singleton h.unslashed, List.filter_cons_of_pos (by simpa using h.nonempty)]
  simp

theorem isAbs_named (h : Named c) : isAbs c = false := by
  refine decide_eq_false fun hhead => h.unslashed ?_
  exact List.mem_of_mem_head? hhead

theorem isAbs_join (a : String) (h : Named c) : isAbs (join a c) = isAbs a := by
  unfold join
  split
  · rename_i hnil
    rw [hnil, if_neg h.nonempty, isAbs_clean, isAbs_named h]
    rfl
  · rename_i hne
    rw [isAbs_clean, isAbs, isAbs, String.toList_append, String.toList_append, List.append_assoc]
    cases hlist : a.toList with
    | nil => exact absurd (String.toList_eq_nil_iff.1 hlist) hne
    | cons x l => rfl

/-- A name more. -/
theorem cleaned_join (a : String) (h : Named c) : cleaned (join a c) = cleaned a ++ [c] := by
  unfold join
  split
  · rename_i hnil
    subst hnil
    rw [if_neg h.nonempty, cleaned_clean, cleaned, comps_named h]
    exact cleanComps_named _ (List.forall_mem_singleton.2 h) []
  · rename_i hne
    have habs : isAbs (a ++ "/" ++ c) = isAbs a := by
      rw [← isAbs_join a h, join, if_neg hne, isAbs_clean]
    rw [cleaned_clean, cleaned, habs, comps_append, comps_named h, cleanComps, List.foldl_append]
    exact cleanComps_named _ (List.forall_mem_singleton.2 h) _

/-- Some names further down. -/
def pathAt (root : String) (names : List String) : String := names.foldl join root

theorem cleaned_pathAt (root : String) (h : ∀ c ∈ cs, Named c) : cleaned (pathAt root cs) = cleaned root ++ cs := by
  unfold pathAt
  induction cs generalizing root with
  | nil => exact (List.append_nil _).symm
  | cons c cs ih =>
    obtain ⟨hc, hcs⟩ := List.forall_mem_cons.1 h
    rw [List.foldl_cons, ih _ hcs, cleaned_join root hc, List.append_assoc, List.singleton_append]

theorem isAbs_pathAt (root : String) (h : ∀ c ∈ cs, Named c) : isAbs (pathAt root cs) = isAbs root := by
  unfold pathAt
  induction cs generalizing root with
  | nil => rfl
  | cons c cs ih =>
    obtain ⟨hc, hcs⟩ := List.forall_mem_cons.1 h
    rw [List.foldl_cons, ih _ hcs, isAbs_join root hc]

/-- Different names lead to different paths. -/
theorem pathAt_injective {root : String} (hbs : ∀ c ∈ bs, Named c) (hts : ∀ c ∈ ts, Named c) (h : pathAt root bs = pathAt root ts) : bs = ts := by
  have hcleaned : cleaned (pathAt root bs) = cleaned (pathAt root ts) := by rw [h]
  rw [cleaned_pathAt root hbs, cleaned_pathAt root hts] at hcleaned
  exact List.append_cancel_left hcleaned

theorem render_eq_here_iff (h : ∀ c ∈ cs, Named c) : render false cs = "." ↔ cs = [] := by
  refine ⟨fun heq => ?_, fun hnil => hnil ▸ rfl⟩
  by_contra hne
  have hcomps : cs = ["."] := by
    rw [← comps_relative (fun c hc => (h c hc).segment) hne, heq]
    decide
  exact (h "." (hcomps ▸ List.mem_cons_self)).here rfl

/-- There is a slash between any two. -/
theorem count_slash (h : ∀ c ∈ cs, Named c) : (render false cs).toList.count '/' = cs.length - 1 := by
  cases cs with
  | nil => decide
  | cons c rest =>
    induction rest generalizing c with
    | nil =>
      rw [toList_render, if_pos rfl, List.append_nil]
      exact List.count_eq_zero.2 (h c List.mem_cons_self).unslashed
    | cons c' rest ih =>
      obtain ⟨hc, hrest⟩ := List.forall_mem_cons.1 h
      have hrender : ['/'].intercalate ((c' :: rest).map String.toList) = (render false (c' :: rest)).toList := by
        rw [render, if_neg Bool.false_ne_true, if_neg (List.cons_ne_nil _ _), String.toList_ofList]
      rw [toList_render, if_neg (List.cons_ne_nil _ _), List.count_append, List.count_cons_self, hrender, ih c' hrest,
        List.count_eq_zero.2 hc.unslashed]
      simp only [List.length_cons]
      omega

theorem rel_eq (a b : String) : rel a b =
    if isAbs a ≠ isAbs b then none
    else if (dropCommon (cleaned a) (cleaned b)).1.head? = some ".." then none
    else some (render false ((dropCommon (cleaned a) (cleaned b)).1.map (fun _ => "..") ++ (dropCommon (cleaned a) (cleaned b)).2)) := rfl

/-- What is below a path is told by its names. -/
theorem rel_pathAt (root : String) (h : ∀ c ∈ cs, Named c) : rel root (pathAt root cs) = some (render false cs) := by
  have hdrop : dropCommon (cleaned root) (cleaned (pathAt root cs)) = ([], cs) := by
    rw [cleaned_pathAt root h, dropCommon_append]
  rw [rel_eq, if_neg (by rw [isAbs_pathAt root h]; exact not_not.2 rfl), hdrop]
  rfl

end Lexical

end Files
