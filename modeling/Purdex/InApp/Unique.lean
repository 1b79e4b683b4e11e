/-
New names in the In-App storage: `createUnique` and `mkdirUnique` try one candidate after another, each in a transaction of its own, while
others do what they do.
-/
import Purdex.InApp.Runs

namespace Purdex.InApp

open Conc Utf16

/-! ## Creations -/

def maxCandidates : Nat := 10000

/-- A call of `createUnique` or `mkdirUnique`: the time it read, the path of each try, and the bytes that a file is to have. -/
structure Creation where
  now : Int
  candidate : Nat → Units
  content : Option (List UInt8)

def suffixed (glue : String) (baseName : Units) (n : Nat) : Units := if n = 0 then baseName else baseName ++ ascii glue ++ ascii (toString n)

def createUnique (now : Int) (dir baseName ext : Units) (content : Option (List UInt8)) : Creation where
  now
  candidate n := join [dir, if ext = [] then suffixed "-" baseName n else suffixed "-" baseName n ++ ascii "." ++ ext]
  content := some (content.getD [])

def mkdirUnique (now : Int) (dir baseName : Units) : Creation := ⟨now, fun n => join [dir, suffixed " " baseName n], none⟩

/-- What a creation writes at a path. -/
def Creation.record (creation : Creation) (path : Units) : StoredFile :=
  ⟨path, creation.content.getD [], creation.content.isNone, creation.now⟩

/-- Which candidate is next, or was free. A call that has tried them all has failed. -/
inductive Progress where
  | trying (n : Nat)
  | returned (n : Nat)
  deriving Repr, DecidableEq

def Progress.tried : Progress → Nat
  | .trying n => n
  | .returned n => n

structure Client where
  db : Database
  calls : List (Creation × Progress)

inductive Move where
  | start (creation : Creation)
  | attempt (i : Nat)
  | other (call : Call)

/-- One transaction of a creation. -/
def tryCandidate (creation : Creation) (n : Nat) (db : Database) : Progress × Database :=
  match (Call.mk creation.now (.add (creation.candidate n) creation.content)).apply db with
  | .ok db' => (.returned n, db')
  | .error _ => (.trying (n + 1), db)

def Move.step : Move → Client → Option Client
  | .start creation, s => some { s with calls := s.calls ++ [(creation, .trying 0)] }
  | .attempt i, s =>
    match s.calls[i]? with
    | some (creation, .trying n) =>
      if n < maxCandidates then
        some ⟨(tryCandidate creation n s.db).2, s.calls.set i (creation, (tryCandidate creation n s.db).1)⟩
      else none
    | _ => none
  | .other call, s => some { s with db := next s.db call }

/-! ## Records that are left alone -/

/-- The mutation may overwrite or remove what is at the path. -/
def Op.Touches (p : Units) : Op → Prop
  | .write path _ => path = p
  | .mkdir path => path = p
  | .delete path => p = path ∨ withSlash path <+: p
  | .rename src _ => Within src p
  | .add _ _ => False
  | .replaceTree _ _ => withSlash storageRoot <+: p

def Move.Touches (p : Units) : Move → Prop
  | .other call => call.op.Touches p
  | _ => False

section Kept

variable {db : Database} {c : Call} {r : StoredFile} {p : Units}

theorem nodup_next (hkeys : (db.files.map (·.path)).Nodup) (c : Call) : ((next db c).files.map (·.path)).Nodup := by
  cases happly : c.apply db with
  | error e => exact (next_error happly).symm ▸ hkeys
  | ok db' =>
    rw [next_eq happly]
    obtain ⟨_, hfiles⟩ := apply_ok happly
    obtain ⟨now, op⟩ := c
    cases op with
    | write path content => exact hfiles ▸ nodup_write hkeys content
    | mkdir path => exact hfiles ▸ nodup_put hkeys
    | delete path => exact hfiles ▸ nodup_delete hkeys
    | rename src dst => exact (rename_ok hkeys hfiles).2.2.1
    | add path content => exact hfiles.2 ▸ nodup_put hkeys
    | replaceTree entries expected => exact hfiles.2.2 ▸ nodup_replaced hfiles.1 hkeys

/-- What a mutation does not touch stays as it is. -/
theorem get_next (hkeys : (db.files.map (·.path)).Nodup) (hnot : ¬c.op.Touches p) (hr : get db.files p = some r) :
    get (next db c).files p = some r := by
  cases happly : c.apply db with
  | error e => exact (next_error happly).symm ▸ hr
  | ok db' =>
    have hkeys' := nodup_next hkeys c
    rw [next_eq happly] at hkeys' ⊢
    obtain ⟨_, hfiles⟩ := apply_ok happly
    have hpath := path_of_get hr
    obtain ⟨now, op⟩ := c
    cases op with
    | write path content =>
      have hne : ¬path = p := hnot
      rw [hfiles, get_write, if_neg hne, if_neg (by simp [hr]), hr]
    | mkdir path =>
      have hne : ¬path = p := hnot
      rw [hfiles, get_put, if_neg hne, hr]
    | delete path =>
      have hmem : r ∈ db'.files := by
        rw [hfiles, delete, List.mem_filter, List.mem_filter, hpath]
        exact ⟨⟨mem_of_get hr, decide_eq_true fun h => hnot (.inl h)⟩, decide_eq_true fun h => hnot (.inr h)⟩
      exact hpath ▸ get_of_mem hkeys' hmem
    | rename src dst =>
      have hmem : r ∈ db'.files := (mem_rename hkeys hfiles).2 ⟨r, mem_of_get hr, moved_of_not (hpath.symm ▸ hnot)⟩
      exact hpath ▸ get_of_mem hkeys' hmem
    | add path content =>
      rw [hfiles.2, get_put, if_neg, hr]
      rintro rfl
      simp [hfiles.1] at hr
    | replaceTree entries expected =>
      have hmem : r ∈ db'.files := hfiles.2.2 ▸ mem_replaced.2 (.inl ⟨mem_of_get hr, hpath.symm ▸ hnot⟩)
      exact hpath ▸ get_of_mem hkeys' hmem

end Kept

/-! ## Whose a new path is -/

def Client.Gets (s : Client) (p : Units) (i : Nat) : Prop := ∃ c n, s.calls[i]? = some (c, .returned n) ∧ c.candidate n = p

/-- What the creations have made of a path that nobody else touches. -/
structure Owned (p : Units) (db : Database) (s : Client) : Prop where
  /-- It holds what the call wrote that got it, and was free before. -/
  written : ∀ c ∈ s.calls, ∀ n, c.2 = .returned n → c.1.candidate n = p →
    get s.db.files p = some (c.1.record p) ∧ get db.files p = none
  once : ∀ i j, s.Gets p i → s.Gets p j → i = j
  /-- It was passed over only where something was there, which still is. -/
  passed : ∀ c ∈ s.calls, ∀ k < c.2.tried, c.1.candidate k = p → (get s.db.files p).isSome

structure OwnedInv (p : Units) (db : Database) (s : Client) : Prop extends Owned p db s where
  keys : (s.db.files.map (·.path)).Nodup
  grown : (get db.files p).isSome → (get s.db.files p).isSome

section Creations

variable {db : Database} {s s' : Client} {p : Units} {creation : Creation} {n i : Nat}

/-- A try either finds its candidate taken or writes its record there. -/
theorem tryCandidate_cases (creation : Creation) (n : Nat) (db : Database) :
    (get db.files (creation.candidate n)).isSome ∧ tryCandidate creation n db = (.trying (n + 1), db) ∨
      get db.files (creation.candidate n) = none ∧
        tryCandidate creation n db = (.returned n, bumpRevision db (put db.files (creation.record (creation.candidate n)))) := by
  have happly : (Call.mk creation.now (.add (creation.candidate n) creation.content)).apply db =
      (add (creation.record (creation.candidate n)) db.files).map (bumpRevision db) := rfl
  rw [tryCandidate, happly, add]
  cases hget : get db.files (creation.candidate n) with
  | none =>
    rw [if_neg (by simp [Creation.record, hget])]
    exact .inr ⟨rfl, rfl⟩
  | some r =>
    rw [if_pos (by simp [Creation.record, hget])]
    exact .inl ⟨rfl, rfl⟩

theorem Client.Gets.cases {g : Progress} {j : Nat} (h : Client.Gets ⟨db, s.calls.set i (creation, g)⟩ p j) :
    j = i ∧ (∃ n, g = .returned n ∧ creation.candidate n = p) ∨ s.Gets p j := by
  obtain ⟨c, n, hj, hcand⟩ := h
  rw [List.getElem?_set] at hj
  split at hj
  · rename_i heq
    split at hj
    · obtain ⟨rfl, hg⟩ := Prod.mk.inj (Option.some.inj hj)
      exact .inl ⟨heq.symm, n, hg, hcand⟩
    · cases hj
  · exact .inr ⟨c, n, hj, hcand⟩

theorem isSome_of_kept {files files' : List StoredFile} (h : ∀ {r}, get files p = some r → get files' p = some r)
    (hsome : (get files p).isSome) : (get files' p).isSome := by
  obtain ⟨r, hr⟩ := Option.isSome_iff_exists.1 hsome
  exact Option.isSome_iff_exists.2 ⟨r, h hr⟩

theorem ownedInv_taken (h : OwnedInv p db s) (hi : s.calls[i]? = some (creation, .trying n))
    (htaken : (get s.db.files (creation.candidate n)).isSome) : OwnedInv p db ⟨s.db, s.calls.set i (creation, .trying (n + 1))⟩ := by
  have hgets : ∀ {j}, Client.Gets ⟨s.db, s.calls.set i (creation, .trying (n + 1))⟩ p j → s.Gets p j := fun {j} hj => by
    rcases hj.cases with ⟨_, m, hm, _⟩ | hj
    · cases hm
    · exact hj
  refine ⟨⟨fun c hc m hm hcand => ?_, fun j k hj hk => h.once j k (hgets hj) (hgets hk), fun c hc k hk hcand => ?_⟩, h.keys, h.grown⟩
  · rcases List.mem_or_eq_of_mem_set hc with hc | rfl
    · exact h.written c hc m hm hcand
    · cases hm
  · rcases List.mem_or_eq_of_mem_set hc with hc | rfl
    · exact h.passed c hc k hk hcand
    · rcases Nat.lt_succ_iff_lt_or_eq.1 hk with hlt | rfl
      · exact h.passed _ (List.mem_of_getElem? hi) k hlt hcand
      · exact hcand ▸ htaken

theorem ownedInv_free (h : OwnedInv p db s) (hi : s.calls[i]? = some (creation, .trying n)) (hfree : get s.db.files (creation.candidate n) = none) :
    OwnedInv p db ⟨bumpRevision s.db (put s.db.files (creation.record (creation.candidate n))), s.calls.set i (creation, .returned n)⟩ := by
  have hget : ∀ {r}, get s.db.files p = some r → get (put s.db.files (creation.record (creation.candidate n))) p = some r := fun {r} hr => by
    rw [get_put, if_neg, hr]
    rintro rfl
    exact absurd (hfree.symm.trans hr) (by simp)
  have hnone : ∀ {m j}, Progress.returned n = .returned m ∧ creation.candidate m = p → ¬s.Gets p j := by
    rintro m j ⟨⟨⟩, rfl⟩ ⟨c, k, hj, hcand⟩
    have hwritten := (h.written _ (List.mem_of_getElem? hj) k rfl hcand).1
    rw [hfree] at hwritten
    cases hwritten
  refine ⟨⟨fun c hc m hm hcand => ?_, fun j k hj hk => ?_, fun c hc k hk hcand => isSome_of_kept hget ?_⟩, nodup_put h.keys,
    fun hsome => isSome_of_kept hget (h.grown hsome)⟩
  · rcases List.mem_or_eq_of_mem_set hc with hc | rfl
    · exact (h.written c hc m hm hcand).imp_left hget
    · obtain rfl := Progress.returned.inj hm
      subst hcand
      refine ⟨get_put.trans (if_pos rfl), Option.not_isSome_iff_eq_none.1 fun hsome => ?_⟩
      have hgrown := h.grown hsome
      rw [hfree] at hgrown
      cases hgrown
  · rcases hj.cases with ⟨hij, m, hm⟩ | hold
    · rcases hk.cases with ⟨hik, _⟩ | hold'
      · exact hij.trans hik.symm
      · exact absurd hold' (hnone hm)
    · rcases hk.cases with ⟨_, m, hm⟩ | hold'
      · exact absurd hold (hnone hm)
      · exact h.once j k hold hold'
  · rcases List.mem_or_eq_of_mem_set hc with hc | rfl
    · exact h.passed c hc k hk hcand
    · exact h.passed _ (List.mem_of_getElem? hi) k hk hcand

/-- A try of one call keeps what holds of the path. -/
theorem ownedInv_attempt (h : OwnedInv p db s) (hi : s.calls[i]? = some (creation, .trying n)) :
    OwnedInv p db ⟨(tryCandidate creation n s.db).2, s.calls.set i (creation, (tryCandidate creation n s.db).1)⟩ := by
  rcases tryCandidate_cases creation n s.db with ⟨htaken, heq⟩ | ⟨hfree, heq⟩
  · rw [heq]
    exact ownedInv_taken h hi htaken
  · rw [heq]
    exact ownedInv_free h hi hfree

theorem ownedInv_step {m : Move} (h : OwnedInv p db s) (hnot : ¬m.Touches p) (hstep : m.step s = some s') : OwnedInv p db s' := by
  cases m with
  | start creation =>
    obtain rfl := Option.some.inj hstep
    have hold : ∀ {j}, Client.Gets { s with calls := s.calls ++ [(creation, .trying 0)] } p j → s.Gets p j := by
      rintro j ⟨c, m, hj, hcand⟩
      rw [List.getElem?_append] at hj
      split at hj
      · exact ⟨c, m, hj, hcand⟩
      · have hbad := List.mem_of_getElem? hj
        simp at hbad
    refine ⟨⟨fun c hc n hn hcand => ?_, fun i j hi hj => h.once i j (hold hi) (hold hj), fun c hc k hk hcand => ?_⟩, h.keys, h.grown⟩
    · rcases List.mem_append.1 hc with hc | hc
      · exact h.written c hc n hn hcand
      · rw [List.mem_singleton.1 hc] at hn
        cases hn
    · rcases List.mem_append.1 hc with hc | hc
      · exact h.passed c hc k hk hcand
      · rw [List.mem_singleton.1 hc] at hk
        cases hk
  | attempt i =>
    simp only [Move.step] at hstep
    split at hstep
    · rename_i creation n hi
      split at hstep
      · obtain rfl := Option.some.inj hstep
        exact ownedInv_attempt h hi
      · cases hstep
    · cases hstep
  | other call =>
    obtain rfl := Option.some.inj hstep
    have hget : ∀ {r}, get s.db.files p = some r → get (next s.db call).files p = some r := get_next h.keys hnot
    have hsome : (get s.db.files p).isSome → (get (next s.db call).files p).isSome := isSome_of_kept hget
    refine ⟨⟨fun c hc n hn hcand => ?_, h.once, fun c hc k hk hcand => hsome (h.passed c hc k hk hcand)⟩, nodup_next h.keys call,
      fun hdb => hsome (h.grown hdb)⟩
    exact (h.written c hc n hn hcand).imp_left hget

/-- Whatever the order of the tries and of what else is done, a path that nothing else touches goes to one creation at most, which finds
its own record there, and no creation passes it over but for a record that stays. -/
theorem owned_of_reach (hkeys : (db.files.map (·.path)).Nodup) (hr : Reach Move.step ⟨db, []⟩ (fun _ m => ¬m.Touches p) s) : Owned p db s := by
  refine (Reach.invariant (P := OwnedInv p db) ?_ (fun s s' m _ h hok hstep => ownedInv_step h hok hstep) hr).toOwned
  exact ⟨⟨by simp, by simp [Client.Gets], by simp⟩, hkeys, id⟩

def newNote : Creation := createUnique 6 storageRoot (ascii "n") [] none

/-- A file and a folder of one name. -/
theorem owned_newNote : ∃ s, s.calls.map (·.2) = [.returned 0, .returned 1] ∧ Owned (ascii "/buffer/n") ⟨[], 0⟩ s := by
  refine ⟨_, ?_, owned_of_reach (by decide) ((((Reach.init.step (m := .start newNote) id rfl).step
    (m := .start (mkdirUnique 6 storageRoot (ascii "n"))) id rfl).step (m := .attempt 0) id rfl).step (m := .attempt 1) id rfl |>.step
    (m := .attempt 1) id rfl)⟩
  rfl

end Creations

end Purdex.InApp
