/-
JSON values, and when two of them are deeply equal: arrays item by item, objects key by key in any
order. On values whose objects have each key once this is an equivalence.
-/
import Mathlib.Data.Rat.Defs
import Mathlib.Data.List.Nodup
import Mathlib.Data.List.Perm.Subperm

namespace Json

/-! ## Association lists -/

section Lookup

variable {κ α : Type} [BEq κ] [LawfulBEq κ] {l : List (κ × α)} {k : κ} {a : α}

theorem mem_of_lookup (h : l.lookup k = some a) : (k, a) ∈ l := by
  obtain ⟨l₁, l₂, rfl, _⟩ := List.lookup_eq_some_iff.1 h
  simp

/-- Where keys are not repeated, a lookup finds whatever is there. -/
theorem lookup_eq_some (h : (l.map Prod.fst).Nodup) : l.lookup k = some a ↔ (k, a) ∈ l := by
  refine ⟨mem_of_lookup, fun hmem => ?_⟩
  obtain ⟨l₁, l₂, rfl⟩ := List.append_of_mem hmem
  refine List.lookup_eq_some_iff.2 ⟨l₁, l₂, rfl, fun p hp => ?_⟩
  rw [List.map_append, List.nodup_append] at h
  have hne := h.2.2 p.1 (List.mem_map_of_mem hp) k (by simp)
  simpa using hne.symm

theorem lookup_isSome : (l.lookup k).isSome ↔ k ∈ l.map Prod.fst := by
  rw [List.lookup_isSome_iff, List.mem_map]
  constructor
  · rintro ⟨p, hp, hk⟩
    exact ⟨p, hp, (eq_of_beq hk).symm⟩
  · rintro ⟨p, hp, rfl⟩
    exact ⟨p, hp, by simp⟩

end Lookup

/-! ## Values -/

inductive Raw where
  | null
  | bool (b : Bool)
  | num (n : ℚ)
  | str (s : String)
  | arr (items : List Raw)
  | obj (fields : List (String × Raw))
  deriving Repr

namespace Raw

/-- A rule of induction for values within values. -/
theorem induction {motive : Raw → Prop} (null : motive .null) (bool : ∀ b, motive (.bool b)) (num : ∀ n, motive (.num n))
    (str : ∀ s, motive (.str s)) (arr : ∀ items, (∀ a ∈ items, motive a) → motive (.arr items))
    (obj : ∀ fields, (∀ p ∈ fields, motive p.2) → motive (.obj fields)) : ∀ a, motive a := by
  intro a
  refine @Raw.rec motive (fun items => ∀ a ∈ items, motive a) (fun fields => ∀ p ∈ fields, motive p.2) (fun p => motive p.2)
    null bool num str arr obj nofun ?_ nofun ?_ (fun _ _ h => h) a
  · exact fun _ _ hhead htail => List.forall_mem_cons.2 ⟨hhead, htail⟩
  · exact fun _ _ hhead htail => List.forall_mem_cons.2 ⟨hhead, htail⟩

mutual

/-- No object has a key twice. -/
def wf : Raw → Bool
  | .arr items => wfItems items
  | .obj fields => (fields.map Prod.fst).Nodup && wfFields fields
  | _ => true

def wfItems : List Raw → Bool
  | [] => true
  | a :: as => a.wf && wfItems as

def wfFields : List (String × Raw) → Bool
  | [] => true
  | (_, a) :: as => a.wf && wfFields as

end

attribute [local simp] wf wfItems wfFields

theorem wf_arr {items : List Raw} : (Raw.arr items).wf ↔ ∀ a ∈ items, a.wf := by
  rw [wf]
  induction items with
  | nil => simp
  | cons a as ih => rw [wfItems, Bool.and_eq_true, ih, List.forall_mem_cons]

theorem wf_obj {fields : List (String × Raw)} :
    (Raw.obj fields).wf ↔ (fields.map Prod.fst).Nodup ∧ ∀ p ∈ fields, p.2.wf := by
  rw [wf, Bool.and_eq_true, decide_eq_true_eq]
  refine and_congr_right' ?_
  induction fields with
  | nil => simp
  | cons p as ih => rw [wfFields, Bool.and_eq_true, ih, List.forall_mem_cons]

/-! ## Equality -/

mutual

def same : Raw → Raw → Bool
  | .null, .null => true
  | .bool a, .bool b => a = b
  | .num a, .num b => a = b
  | .str a, .str b => a = b
  | .arr as, .arr bs => sameItems as bs
  | .obj as, .obj bs => sameFields as bs
  | _, _ => false

def sameItems : List Raw → List Raw → Bool
  | [], [] => true
  | a :: as, b :: bs => a.same b && sameItems as bs
  | _, _ => false

def sameFields : List (String × Raw) → List (String × Raw) → Bool
  | [], [] => true
  | (k, a) :: as, (l, b) :: bs => k = l && a.same b && sameFields as bs
  | _, _ => false

end

attribute [local simp] same sameItems sameFields

theorem same_iff {a : Raw} : ∀ {b : Raw}, a.same b ↔ a = b := by
  induction a using Raw.induction with
  | null | bool | num | str => intro b; cases b <;> simp
  | arr as ih =>
    intro b
    cases b with
    | arr bs =>
      rw [same, Raw.arr.injEq]
      induction as generalizing bs with
      | nil => cases bs <;> simp
      | cons a as ih' =>
        rw [List.forall_mem_cons] at ih
        cases bs <;> simp [ih.1, ih' ih.2]
    | _ => simp
  | obj as ih =>
    intro b
    cases b with
    | obj bs =>
      rw [same, Raw.obj.injEq]
      induction as generalizing bs with
      | nil => cases bs <;> simp
      | cons p as ih' =>
        rw [List.forall_mem_cons] at ih
        cases bs <;> simp [ih.1, ih' ih.2, Prod.ext_iff]
    | _ => simp

instance : DecidableEq Raw := fun _ _ => decidable_of_iff _ same_iff

/-! ## Deep equality -/

mutual

def deepEqual : Raw → Raw → Bool
  | .null, .null => true
  | .bool a, .bool b => a = b
  | .num a, .num b => a = b
  | .str a, .str b => a = b
  | .arr as, .arr bs => as.length = bs.length && deepEqualItems as bs
  | .obj as, .obj bs => as.length = bs.length && deepEqualFields as bs
  | _, _ => false

def deepEqualItems : List Raw → List Raw → Bool
  | a :: as, b :: bs => a.deepEqual b && deepEqualItems as bs
  | _, _ => true

/-- Every key of the first is one of the second, with a value that is equal. -/
def deepEqualFields : List (String × Raw) → List (String × Raw) → Bool
  | [], _ => true
  | (k, a) :: as, bs => (bs.lookup k).any a.deepEqual && deepEqualFields as bs

end

attribute [local simp] deepEqual deepEqualItems deepEqualFields

theorem deepEqual_arr {as bs : List Raw} :
    (Raw.arr as).deepEqual (.arr bs) ↔ List.Forall₂ (fun a b => a.deepEqual b = true) as bs := by
  rw [deepEqual, Bool.and_eq_true, decide_eq_true_eq]
  induction as generalizing bs with
  | nil => cases bs <;> simp
  | cons a as ih =>
    cases bs with
    | nil => simp
    | cons b bs =>
      rw [deepEqualItems, Bool.and_eq_true, List.forall₂_cons, ← ih]
      simp only [List.length_cons, Nat.add_right_cancel_iff]
      tauto

theorem deepEqual_obj {as bs : List (String × Raw)} : (Raw.obj as).deepEqual (.obj bs) ↔
    as.length = bs.length ∧ ∀ p ∈ as, ∃ b, bs.lookup p.1 = some b ∧ p.2.deepEqual b := by
  rw [deepEqual, Bool.and_eq_true, decide_eq_true_eq]
  refine and_congr_right' ?_
  induction as with
  | nil => simp
  | cons p as ih => rw [deepEqualFields, Bool.and_eq_true, ih, List.forall_mem_cons, Option.any_eq_true]

theorem deepEqual_refl {a : Raw} : a.wf → a.deepEqual a := by
  induction a using Raw.induction with
  | null | bool | num | str => simp
  | arr items ih =>
    intro h
    rw [deepEqual_arr, List.forall₂_same]
    exact fun a ha => ih a ha (wf_arr.1 h a ha)
  | obj fields ih =>
    intro h
    obtain ⟨hnodup, hwf⟩ := wf_obj.1 h
    rw [deepEqual_obj]
    exact ⟨rfl, fun p hp => ⟨p.2, (lookup_eq_some hnodup).2 hp, ih p hp (hwf p hp)⟩⟩

theorem deepEqual_symm {a : Raw} : ∀ {b : Raw}, a.wf → b.wf → a.deepEqual b → b.deepEqual a := by
  induction a using Raw.induction with
  | null | bool | num | str =>
    intro b _ _ h
    cases b <;> simp_all
  | arr as ih =>
    intro b ha hb h
    cases b with
    | arr bs =>
      rw [deepEqual_arr] at h ⊢
      have ha := wf_arr.1 ha
      have hb := wf_arr.1 hb
      clear * - ih ha hb h
      induction h with
      | nil => exact .nil
      | cons hhead _ htail =>
        simp only [List.forall_mem_cons] at ih ha hb
        exact .cons (ih.1 ha.1 hb.1 hhead) (htail ih.2 ha.2 hb.2)
    | _ => simp at h
  | obj as ih =>
    intro b ha hb h
    cases b with
    | obj bs =>
      obtain ⟨hna, hwa⟩ := wf_obj.1 ha
      obtain ⟨hnb, hwb⟩ := wf_obj.1 hb
      rw [deepEqual_obj] at h ⊢
      obtain ⟨hlen, hsub⟩ := h
      refine ⟨hlen.symm, fun p hp => ?_⟩
      -- as many keys, all of the first among those of the second: they are the same keys
      have hkeys : as.map Prod.fst ⊆ bs.map Prod.fst := by
        intro k hk
        obtain ⟨q, hq, rfl⟩ := List.mem_map.1 hk
        obtain ⟨b, hb, _⟩ := hsub q hq
        exact lookup_isSome.1 (by simp [hb])
      have hperm := (hna.subperm hkeys).perm_of_length_le (by simp [hlen])
      obtain ⟨q, hq, hqp⟩ := List.mem_map.1 (hperm.mem_iff.2 (List.mem_map_of_mem hp))
      obtain ⟨b, hb, hqb⟩ := hsub q hq
      rw [hqp, (lookup_eq_some hnb).2 hp, Option.some.injEq] at hb
      subst hb
      exact ⟨q.2, hqp ▸ (lookup_eq_some hna).2 hq, ih q hq (hwa q hq) (hwb p hp) hqb⟩
    | _ => simp at h

theorem deepEqual_trans {a : Raw} : ∀ {b c : Raw}, a.deepEqual b → b.deepEqual c → a.deepEqual c := by
  induction a using Raw.induction with
  | null | bool | num | str =>
    intro b c hab hbc
    cases b <;> simp only [deepEqual, decide_eq_true_eq, reduceCtorEq] at hab
    all_goals first | exact hbc | exact hab ▸ hbc
  | arr as ih =>
    intro b c hab hbc
    cases b with
    | arr bs =>
      cases c with
      | arr cs =>
        rw [deepEqual_arr] at hab hbc ⊢
        induction hab generalizing cs with
        | nil => cases hbc; exact .nil
        | cons hhead _ htail =>
          cases hbc with
          | cons hhead' htail' =>
            simp only [List.forall_mem_cons] at ih
            exact .cons (ih.1 hhead hhead') (htail ih.2 _ htail')
      | _ => simp at hbc
    | _ => simp at hab
  | obj as ih =>
    intro b c hab hbc
    cases b with
    | obj bs =>
      cases c with
      | obj cs =>
        rw [deepEqual_obj] at hab hbc ⊢
        refine ⟨hab.1.trans hbc.1, fun p hp => ?_⟩
        obtain ⟨b, hb, hpb⟩ := hab.2 p hp
        obtain ⟨c, hc, hbc⟩ := hbc.2 _ (mem_of_lookup hb)
        exact ⟨c, hc, ih p hp hpb hbc⟩
      | _ => simp at hbc
    | _ => simp at hab

end Raw

/-- A value whose objects have each key once. -/
abbrev Value := { a : Raw // a.wf }

/-- What is at a key: a value, or `undefined`. -/
abbrev Val := Option Value

namespace Val

def deepEqual : Val → Val → Bool
  | none, none => true
  | some a, some b => a.1.deepEqual b.1
  | _, _ => false

instance : Setoid Val where
  r a b := deepEqual a b
  iseqv :=
    { refl := by
        rintro (_ | a)
        · rfl
        · exact Raw.deepEqual_refl a.2
      symm := by
        rintro (_ | a) (_ | b) h
        · rfl
        · cases h
        · cases h
        · exact Raw.deepEqual_symm a.2 b.2 h
      trans := by
        rintro (_ | a) (_ | b) (_ | c) hab hbc
        · rfl
        · cases hbc
        · cases hab
        · cases hab
        · cases hab
        · cases hab
        · cases hbc
        · exact Raw.deepEqual_trans hab hbc }

instance (a b : Val) : Decidable (a ≈ b) := inferInstanceAs (Decidable (deepEqual a b = true))

theorem equiv_iff {a b : Val} : a ≈ b ↔ deepEqual a b = true := Iff.rfl

theorem equiv_of_eq {a b : Val} (h : a = b) : a ≈ b := h ▸ Setoid.refl _

theorem equiv_none {a : Val} : a ≈ none ↔ a = none := by
  cases a with
  | none => exact ⟨fun _ => rfl, fun _ => Setoid.refl _⟩
  | some a => exact ⟨nofun, nofun⟩

end Val

end Json
