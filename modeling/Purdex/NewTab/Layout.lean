/-
The layout of the new tab: three profiles of columns of modules, what the store does to them, what it makes of a persisted one, and which modules
are then in the columns, how often, and where.
-/
import Purdex.Json.Value
import Purdex.Lists.Reorder
import Mathlib.Data.List.Sort
import Mathlib.Data.List.Flatten
import Mathlib.Data.Rat.Defs
import Mathlib.Algebra.Order.Ring.Rat

namespace Purdex.NewTab

open Json Reorder

inductive ProfileKey where
  | col3
  | col2
  | col1
  deriving DecidableEq, Repr

namespace ProfileKey

def all : List ProfileKey := [.col3, .col2, .col1]

def name : ProfileKey → String
  | .col3 => "3col"
  | .col2 => "2col"
  | .col1 => "1col"

def colCount : ProfileKey → Nat
  | .col3 => 3
  | .col2 => 2
  | .col1 => 1

theorem colCount_pos (key : ProfileKey) : 0 < key.colCount := by cases key <;> decide

end ProfileKey

structure Profile where
  enabled : Bool
  columns : List (List String)
  deriving DecidableEq, Repr

def makeProfile (enabled : Bool) (colCount : Nat) : Profile := ⟨enabled, List.replicate colCount []⟩

structure ProviderInfo where
  id : String
  order : ℚ
  disabled : Bool
  deriving DecidableEq

structure State where
  profiles : ProfileKey → Profile
  knownIds : List String
  activeEditingProfile : ProfileKey

def initialState : State := ⟨fun key => makeProfile (key = .col1) key.colCount, [], .col1⟩

/-- The state with another profile. -/
def State.setProfile (s : State) (key : ProfileKey) (profile : Profile) : State := { s with profiles := Function.update s.profiles key profile }

/-! ## Columns -/

def clamp (n lo hi : Int) : Int := max lo (min hi n)

def lengthAt (cols : List (List String)) (i : Nat) : Nat := (cols.getD i []).length

/-- The first one of the shortest. -/
def shortestColIdx (cols : List (List String)) : Nat :=
  (List.range' 1 (cols.length - 1)).foldl (fun best i => if lengthAt cols i < lengthAt cols best then i else best) 0

/-- The first column that has the id, and its row there. -/
def findId (cols : List (List String)) (id : String) : Option (Nat × Nat) :=
  (cols.findIdx? (id ∈ ·)).map fun c => (c, (cols.getD c []).idxOf id)

/-- An id that is in the profile moves; the row is the one before it is taken out. -/
def placeIn (profile : Profile) (id : String) (colIdx rowIdx : Int) : Profile :=
  if ¬(0 ≤ colIdx ∧ colIdx < profile.columns.length) then profile
  else
    let found := findId profile.columns id
    let columns := match found with
      | none => profile.columns
      | some (fromCol, fromRow) => profile.columns.set fromCol ((profile.columns.getD fromCol []).eraseIdx fromRow)
    let target := columns.getD colIdx.toNat []
    let toRow := clamp rowIdx 0 target.length
    let toRow := match found with
      | none => toRow
      | some (fromCol, fromRow) => if fromCol = colIdx ∧ fromRow < toRow ∧ toRow < target.length then toRow - 1 else toRow
    { profile with columns := columns.set colIdx.toNat (spliceAt target toRow [id]) }

/-! ## Actions -/

namespace State

variable (s : State)

/-- The profile of one column stays enabled. -/
def setEnabled (p : ProfileKey) (enabled : Bool) : State :=
  if p = .col1 ∧ enabled = false then s else s.setProfile p { s.profiles p with enabled }

def setEditing (p : ProfileKey) : State := { s with activeEditingProfile := p }

def placeModule (p : ProfileKey) (providerId : String) (colIdx rowIdx : Int) : State :=
  s.setProfile p (placeIn (s.profiles p) providerId colIdx rowIdx)

def placeModuleInShortest (p : ProfileKey) (providerId : String) : State :=
  let cols := (s.profiles p).columns
  let target := shortestColIdx cols
  s.setProfile p (placeIn (s.profiles p) providerId target (lengthAt cols target))

def removeModule (p : ProfileKey) (providerId : String) : State :=
  let next := (s.profiles p).columns.map fun col => col.erase providerId
  let changed := (s.profiles p).columns.any (providerId ∈ ·)
  if changed = false then s else s.setProfile p { s.profiles p with columns := next }

/-- The enabled providers that are not known yet, in their order. -/
def newcomers (providers : List ProviderInfo) : List ProviderInfo :=
  (providers.filter fun p => p.id ∉ s.knownIds ∧ p.disabled = false).insertionSort fun a b => a.order ≤ b.order

/-- `cols[shortestColIdx(cols)].push(id)`. -/
def pushShortest (cols : List (List String)) (id : String) : List (List String) :=
  cols.set (shortestColIdx cols) (cols.getD (shortestColIdx cols) [] ++ [id])

/-- A provider that becomes known goes into every profile. -/
def addDefault (id : String) : State where
  profiles key := { s.profiles key with columns := pushShortest (s.profiles key).columns id }
  knownIds := s.knownIds ++ [id]
  activeEditingProfile := s.activeEditingProfile

def ensureDefaults (providers : List ProviderInfo) : State :=
  if (s.newcomers providers).length = 0 then s else (s.newcomers providers).foldl (fun s p => s.addDefault p.id) s

end State

/-! ## What was persisted -/

/-- `partialize`. -/
def State.partialize (s : State) : List (String × Raw) :=
  let profile (key : ProfileKey) : String × Raw := (key.name, .obj [
    ("enabled", .bool (s.profiles key).enabled),
    ("columns", .arr ((s.profiles key).columns.map fun col => .arr (col.map .str)))])
  [("profiles", .obj [profile .col3, profile .col2, profile .col1]),
    ("knownIds", .arr (s.knownIds.map .str)),
    ("activeEditingProfile", .str s.activeEditingProfile.name)]

/-- The strings of an array, and nothing of anything else. -/
def healStrings : Raw → List String
  | .arr items => items.filterMap fun | .str s => some s | _ => none
  | _ => []

def healProfile (key : ProfileKey) : Option Raw → Profile
  | some (.obj fields) =>
    match fields.lookup "columns" with
    | some (.arr columns) =>
      if columns.length ≠ key.colCount then makeProfile (key = .col1) key.colCount
      else ⟨match fields.lookup "enabled" with | some (.bool enabled) => enabled | _ => false, columns.map healStrings⟩
    | _ => makeProfile (key = .col1) key.colCount
  | _ => makeProfile (key = .col1) key.colCount

/-- The profile of one column is enabled whatever was said of it. -/
def lockProfile (key : ProfileKey) (p : Profile) : Profile := if key = .col1 then { p with enabled := true } else p

def healProfileState (state : List (String × Raw)) : State where
  profiles := match state.lookup "profiles" with
    | some (.obj profiles) => fun key => lockProfile key (healProfile key (profiles.lookup key.name))
    | some (.arr _) => fun key => lockProfile key (healProfile key none)
    | _ => initialState.profiles
  knownIds := ((state.lookup "knownIds").map healStrings).getD []
  activeEditingProfile := (ProfileKey.all.find? fun key => state.lookup "activeEditingProfile" = some (.str key.name)).getD .col1

/-- What was persisted in place of the initial state, healed. -/
def rehydrate (persisted : List (String × Raw)) : State := healProfileState (persisted ++ initialState.partialize)

variable {cols : List (List String)} {col : List String} {id b : String} {i : Nat}

/-! ## One column among the others -/

theorem flatten_perm (h : i < cols.length) : cols.flatten.Perm (cols.getD i [] ++ (cols.eraseIdx i).flatten) := by
  induction cols generalizing i with
  | nil => exact absurd h (Nat.not_lt_zero i)
  | cons first rest ih =>
    cases i with
    | zero => exact List.Perm.refl _
    | succ i =>
      have hrest := (ih (Nat.lt_of_succ_lt_succ h)).append_left first
      rw [List.eraseIdx_cons_succ, List.flatten_cons, List.flatten_cons, List.getD_cons_succ]
      refine hrest.trans ?_
      rw [← List.append_assoc, ← List.append_assoc]
      exact List.perm_append_comm.append_right _

/-- The columns other than the one that is set are as before. -/
theorem getD_set_of_ne {j : Nat} (h : j ≠ i) (col : List String) : (cols.set i col).getD j [] = cols.getD j [] := by
  rw [List.getD_eq_getElem?_getD, List.getD_eq_getElem?_getD, List.getElem?_set_ne h.symm]

theorem getD_set_self (h : i < cols.length) (col : List String) : (cols.set i col).getD i [] = col := by
  rw [List.getD_eq_getElem?_getD, List.getElem?_set_self h]
  rfl

theorem flatten_set_perm (h : i < cols.length) (col : List String) : (cols.set i col).flatten.Perm (col ++ (cols.eraseIdx i).flatten) := by
  have hset := @flatten_perm (cols.set i col) i (by rwa [List.length_set])
  rwa [List.eraseIdx_set_eq, getD_set_self h] at hset

/-! ## Placing -/

theorem findId_none (h : findId cols id = none) : id ∉ cols.flatten := by
  have hall := List.findIdx?_eq_none_iff.1 (Option.map_eq_none_iff.1 h)
  intro hmem
  obtain ⟨col, hcol, hid⟩ := List.mem_flatten.1 hmem
  exact of_decide_eq_false (hall col hcol) hid

theorem findId_some {c r : Nat} (h : findId cols id = some (c, r)) : c < cols.length ∧ id ∈ cols.getD c [] ∧ r = (cols.getD c []).idxOf id := by
  obtain ⟨c', hc, heq⟩ := Option.map_eq_some_iff.1 h
  cases heq
  obtain ⟨hlt, hmem, -⟩ := List.findIdx?_eq_some_iff_getElem.1 hc
  refine ⟨hlt, ?_, rfl⟩
  rw [List.getD_eq_getElem?_getD, List.getElem?_eq_getElem hlt]
  exact of_decide_eq_true hmem

/-- The columns without the id that was found. -/
theorem taken_perm {c r : Nat} (h : findId cols id = some (c, r)) :
    (cols.set c ((cols.getD c []).eraseIdx r)).flatten.Perm (cols.flatten.erase id) := by
  obtain ⟨hlt, hmem, hr⟩ := findId_some h
  rw [hr, ← List.erase_eq_eraseIdx_of_idxOf rfl]
  refine (flatten_set_perm hlt _).trans ?_
  rw [← List.erase_append_left _ hmem]
  exact ((flatten_perm hlt).erase id).symm

theorem put_perm (h : i < cols.length) (row : Int) : (cols.set i (spliceAt (cols.getD i []) row [id])).flatten.Perm (id :: cols.flatten) := by
  refine (flatten_set_perm h _).trans ?_
  refine ((spliceAt_perm _ row [id]).append_right _).trans ?_
  exact (flatten_perm h).symm.cons id

/-- A column that is there. -/
def HasColumn (p : Profile) (colIdx : Int) : Prop := 0 ≤ colIdx ∧ colIdx < p.columns.length

theorem placeIn_of_not {p : Profile} {colIdx rowIdx : Int} (h : ¬HasColumn p colIdx) : placeIn p id colIdx rowIdx = p := if_pos h

theorem placeIn_perm {p : Profile} {colIdx rowIdx : Int} (h : HasColumn p colIdx) :
    (placeIn p id colIdx rowIdx).columns.flatten.Perm (id :: p.columns.flatten.erase id) := by
  have hlt : colIdx.toNat < p.columns.length := by
    have := h.1
    have := h.2
    omega
  unfold placeIn
  rw [if_neg (show ¬¬(0 ≤ colIdx ∧ colIdx < p.columns.length) from not_not.2 h)]
  cases hfound : findId p.columns id with
  | none =>
    rw [List.erase_of_not_mem (findId_none hfound)]
    exact put_perm hlt _
  | some found =>
    obtain ⟨c, r⟩ := found
    refine (put_perm ?_ _).trans ((taken_perm hfound).cons id)
    rwa [List.length_set]

theorem length_placeIn (p : Profile) (id : String) (colIdx rowIdx : Int) : (placeIn p id colIdx rowIdx).columns.length = p.columns.length := by
  rw [placeIn]
  split
  · rfl
  · simp only [List.length_set]
    split
    · rfl
    · exact List.length_set

theorem enabled_placeIn (p : Profile) (id : String) (colIdx rowIdx : Int) : (placeIn p id colIdx rowIdx).enabled = p.enabled := by
  rw [placeIn]
  split
  · rfl
  · rfl

/-- Placing never doubles an id. -/
theorem nodup_placeIn {p : Profile} (h : p.columns.flatten.Nodup) (id : String) (colIdx rowIdx : Int) :
    (placeIn p id colIdx rowIdx).columns.flatten.Nodup := by
  by_cases hcol : HasColumn p colIdx
  · rw [(placeIn_perm hcol).nodup_iff, List.nodup_cons]
    exact ⟨h.not_mem_erase, h.erase id⟩
  · rwa [placeIn_of_not hcol]

theorem mem_placeIn {p : Profile} {colIdx rowIdx : Int} (h : b ∈ (placeIn p id colIdx rowIdx).columns.flatten) :
    b ∈ p.columns.flatten ∨ b = id ∧ HasColumn p colIdx := by
  by_cases hcol : HasColumn p colIdx
  · rcases List.mem_cons.1 ((placeIn_perm hcol).mem_iff.1 h) with rfl | h
    · exact .inr ⟨rfl, hcol⟩
    · exact .inl (List.mem_of_mem_erase h)
  · rw [placeIn_of_not hcol] at h
    exact .inl h

/-! ## The shortest column -/

theorem shortestColIdx_lt (h : 0 < cols.length) : shortestColIdx cols < cols.length := by
  have hfold : ∀ (l : List Nat) (best : Nat), (∀ i ∈ l, i < cols.length) → best < cols.length →
      l.foldl (fun best i => if lengthAt cols i < lengthAt cols best then i else best) best < cols.length := by
    intro l
    induction l with
    | nil => exact fun best _ hbest => hbest
    | cons i l ih =>
      intro best hl hbest
      have hl' := List.forall_mem_cons.1 hl
      refine ih _ hl'.2 ?_
      simp only
      split
      · exact hl'.1
      · exact hbest
  refine hfold _ 0 (fun i hi => ?_) h
  have := (List.mem_range'_1.1 hi).2
  omega

theorem length_pushShortest (cols : List (List String)) (id : String) : (State.pushShortest cols id).length = cols.length := List.length_set

theorem pushShortest_perm (h : 0 < cols.length) (id : String) : (State.pushShortest cols id).flatten.Perm (id :: cols.flatten) := by
  have hlt := shortestColIdx_lt h
  refine (flatten_set_perm hlt _).trans ?_
  rw [List.append_assoc]
  exact List.perm_middle.trans ((flatten_perm hlt).symm.cons id)

/-- No module that is there gets another position. -/
theorem prefix_pushShortest (h : 0 < cols.length) (id : String) (i : Nat) : cols.getD i [] <+: (State.pushShortest cols id).getD i [] := by
  by_cases hi : i = shortestColIdx cols
  · subst hi
    rw [State.pushShortest, getD_set_self (shortestColIdx_lt h)]
    exact List.prefix_append _ _
  · have hsame : (State.pushShortest cols id).getD i [] = cols.getD i [] := by rw [State.pushShortest, getD_set_of_ne hi]
    exact hsame.symm ▸ List.prefix_rfl

/-! ## Removing -/

theorem map_erase_sublist (cols : List (List String)) (id : String) : (cols.map fun col => col.erase id).flatten.Sublist cols.flatten := by
  induction cols with
  | nil => exact List.Sublist.refl _
  | cons col cols ih => exact List.erase_sublist.append ih

theorem not_mem_map_erase (h : cols.flatten.Nodup) : id ∉ (cols.map fun col => col.erase id).flatten := by
  induction cols with
  | nil => exact List.not_mem_nil
  | cons col cols ih =>
    rw [List.flatten_cons, List.nodup_append] at h
    rw [List.map_cons, List.flatten_cons, List.mem_append]
    rintro (hmem | hmem)
    · exact h.1.not_mem_erase hmem
    · exact ih h.2.1 hmem

/-! ## Healing what is well -/

theorem healStrings_map (col : List String) : healStrings (.arr (col.map .str)) = col := by
  rw [healStrings, List.filterMap_map]
  exact List.filterMap_some

/-- A state with the columns it should have comes back as it was. -/
theorem rehydrate_partialize {s : State} (hcols : ∀ key, (s.profiles key).columns.length = key.colCount) (hlock : (s.profiles .col1).enabled = true) :
    rehydrate s.partialize = s := by
  have hheal : ∀ key fields, fields.lookup "columns" = some (.arr ((s.profiles key).columns.map fun col => .arr (col.map .str))) →
      fields.lookup "enabled" = some (.bool (s.profiles key).enabled) → lockProfile key (healProfile key (some (.obj fields))) = s.profiles key := by
    intro key fields hcolumns henabled
    have hmap : (fun col : List String => healStrings (.arr (col.map .str))) = id := funext healStrings_map
    simp only [healProfile, hcolumns, henabled, List.length_map, hcols, ne_eq, not_true, if_false, List.map_map, Function.comp_def, hmap, List.map_id]
    unfold lockProfile
    split
    · rename_i hkey
      subst hkey
      rw [← hlock]
    · rfl
  obtain ⟨profiles, knownIds, activeEditingProfile⟩ := s
  show State.mk _ _ _ = _
  congr 1
  · funext key
    cases key with
    | col3 => exact hheal .col3 _ rfl rfl
    | col2 => exact hheal .col2 _ rfl rfl
    | col1 => exact hheal .col1 _ rfl rfl
  · exact healStrings_map knownIds
  · cases activeEditingProfile <;> rfl

end Purdex.NewTab
