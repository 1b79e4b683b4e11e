/-
The In-App storage: records under their paths with a revision that counts the changes, and the replacement of
the whole tree in one transaction.
-/
import Purdex.Conc.Transaction
import Purdex.InApp.Paths
import Mathlib.Data.List.Nodup
import Mathlib.Data.List.Perm.Basic
import Mathlib.Data.List.Lex

namespace Purdex.InApp

open Conc Utf16

/-! ## Records -/

structure StoredFile where
  path : Units
  content : List UInt8
  isDirectory : Bool
  mtime : Int
  deriving Repr, DecidableEq

/-- The records, no two under one path, and the revision. -/
structure Database where
  files : List StoredFile
  revision : Int
  deriving Repr, DecidableEq

def get (files : List StoredFile) (path : Units) : Option StoredFile := files.find? (·.path = path)

def put (files : List StoredFile) (r : StoredFile) : List StoredFile := files.filter (·.path ≠ r.path) ++ [r]

/-! ## Reading -/

inductive ReadError where
  | notFound (path : Units)
  | directory (path : Units)
  deriving Repr, DecidableEq

def read (files : List StoredFile) (path : Units) : Except ReadError (List UInt8) :=
  match get files path with
  | none => .error (.notFound path)
  | some entry => if entry.isDirectory then .error (.directory path) else .ok entry.content

structure FileEntry where
  name : Units
  isDir : Bool
  size : Nat
  deriving Repr, DecidableEq

/-- What is behind a prefix, if the text has it. -/
def after (front text : Units) : Option Units := if front <+: text then some (text.drop front.length) else none

/-- The records right below a prefix, each name once. -/
def childrenOf (front : Units) : List Units → List StoredFile → List FileEntry
  | _, [] => []
  | seen, entry :: rest =>
    match after front entry.path with
    | none => childrenOf front seen rest
    | some name =>
      if slash ∈ name ∨ name ∈ seen then childrenOf front seen rest
      else ⟨name, entry.isDirectory, entry.content.length⟩ :: childrenOf front (name :: seen) rest

def withSlash (path : Units) : Units := if [slash] <:+ path then path else path ++ [slash]

/-- Directories first, then by name. -/
def dirsFirst {α : Type} (localeCompare : Units → Units → Int) (isDir : α → Bool) (name : α → Units) (a b : α) : Bool :=
  if isDir a ≠ isDir b then isDir a else localeCompare (name a) (name b) ≤ 0

def list (localeCompare : Units → Units → Int) (files : List StoredFile) (path : Units) : List FileEntry :=
  (childrenOf (withSlash path) [] files).mergeSort (dirsFirst localeCompare FileEntry.isDir FileEntry.name)

/-! ## Replacing the tree -/

structure ReplaceEntry where
  relPath : Units
  isDir : Bool
  bytes : Option (List UInt8)
  deriving Repr, DecidableEq

inductive ReplaceError where
  | emptyPath
  | notRelative (rel : Units)
  | illegalSegment (rel : Units)
  | duplicate (rel : Units)
  | fileAbove (ancestor rel : Units)
  | revisionMismatch (expected actual : Int)
  deriving Repr, DecidableEq

structure Planned where
  rel : Units
  isDir : Bool
  bytes : List UInt8
  deriving Repr, DecidableEq

def IllegalSegment (seg : Units) : Prop := seg = [] ∨ seg = ascii "." ∨ seg = ascii ".."

instance (seg : Units) : Decidable (IllegalSegment seg) := inferInstanceAs (Decidable (_ ∨ _))

/-- What is to be written, where every path is relative, in normal form, and given once. -/
def plan : List Units → List ReplaceEntry → Except ReplaceError (List Planned)
  | _, [] => .ok []
  | seen, e :: rest =>
    if e.relPath = [] then .error .emptyPath
    else if [slash] <+: e.relPath ∨ backslash ∈ e.relPath then .error (.notRelative e.relPath)
    else if ∃ seg ∈ e.relPath.splitOn slash, IllegalSegment seg then .error (.illegalSegment e.relPath)
    else if e.relPath ∈ seen then .error (.duplicate e.relPath)
    else (plan (e.relPath :: seen) rest).map (⟨e.relPath, e.isDir, e.bytes.getD []⟩ :: ·)

/-- The paths above a path, shortest first. -/
def pathsAbove (rel : Units) : List Units :=
  (List.range' 1 ((rel.splitOn slash).length - 1)).map fun i => [slash].intercalate ((rel.splitOn slash).take i)

def checkAbove (planned : List Planned) (rel : Units) : List Units → Except ReplaceError Unit
  | [] => .ok ()
  | ancestor :: rest =>
    if ∃ p ∈ planned, p.rel = ancestor ∧ p.isDir = false then .error (.fileAbove ancestor rel) else checkAbove planned rel rest

/-- No file is used as a directory. -/
def checkPlan (planned : List Planned) : List Planned → Except ReplaceError Unit
  | [] => .ok ()
  | p :: rest => do
    checkAbove planned p.rel (pathsAbove p.rel)
    checkPlan planned rest

def Planned.record (now : Int) (root : Units) (p : Planned) : StoredFile :=
  ⟨join [root, p.rel], if p.isDir then [] else p.bytes, p.isDir, now⟩

def checkRevision (expectedRevision : Option Int) (db : Database) : Except ReplaceError Unit :=
  match expectedRevision with
  | some expected => if db.revision ≠ expected then .error (.revisionMismatch expected db.revision) else .ok ()
  | none => .ok ()

/-- Clear the root, write the directories, then the files: all of it, or nothing. -/
def replaceTree (now : Int) (root : Units) (entries : List ReplaceEntry) (expectedRevision : Option Int) (db : Database) :
    Except ReplaceError Database := do
  let planned ← plan [] entries
  checkPlan planned planned
  checkRevision expectedRevision db
  let cleared := db.files.filter fun r => ¬withSlash root <+: r.path
  let withDirs := ((planned.filter (·.isDir)).map (·.record now root)).foldl put cleared
  let withFiles := ((planned.filter (¬·.isDir)).map (·.record now root)).foldl put withDirs
  return ⟨withFiles, db.revision + 1⟩

/-! ## What a replacement does -/

/-- A path that can be joined behind the root. -/
structure RelOk (rel : Units) : Prop where
  plain : backslash ∉ rel
  segments : ∀ seg ∈ rel.splitOn slash, ¬IllegalSegment seg

def ReplaceEntry.planned (e : ReplaceEntry) : Planned := ⟨e.relPath, e.isDir, e.bytes.getD []⟩

/-- Entries that are a tree. -/
structure Replaceable (entries : List ReplaceEntry) : Prop where
  paths : ∀ e ∈ entries, RelOk e.relPath
  nodup : (entries.map (·.relPath)).Nodup
  tree : ∀ e ∈ entries, ∀ f ∈ entries, f.relPath ∈ pathsAbove e.relPath → f.isDir = true

/-- The records after a replacement. -/
def replaced (now : Int) (entries : List ReplaceEntry) (files : List StoredFile) : List StoredFile :=
  files.filter (fun r => ¬withSlash storageRoot <+: r.path) ++
    ((entries.map ReplaceEntry.planned).filter (·.isDir)).map (·.record now storageRoot) ++
    ((entries.map ReplaceEntry.planned).filter (¬·.isDir)).map (·.record now storageRoot)

section Replace

variable {now : Int} {entries : List ReplaceEntry} {rel : Units}

theorem RelOk.ne_nil (h : RelOk rel) : rel ≠ [] := by
  rintro rfl
  exact h.segments [] (by decide) (.inl rfl)

theorem RelOk.relative (h : RelOk rel) : ¬[slash] <+: rel := by
  rintro ⟨rest, rfl⟩
  refine h.segments [] ?_ (.inl rfl)
  rw [← List.nil_append ([slash] ++ rest), List.singleton_append, List.splitOn_append_cons_self_of_not_mem List.not_mem_nil]
  exact List.mem_cons_self

theorem plan_ok : ∀ {entries : List ReplaceEntry} {seen : List Units} {planned : List Planned},
    plan seen entries = .ok planned ↔ (∀ e ∈ entries, RelOk e.relPath ∧ e.relPath ∉ seen) ∧ (entries.map (·.relPath)).Nodup ∧
      planned = entries.map ReplaceEntry.planned
  | [], seen, planned => by simp [plan, eq_comm]
  | e :: rest, seen, planned => by
    rw [plan, List.forall_mem_cons, List.map_cons, List.nodup_cons, List.map_cons]
    split
    · rename_i hempty
      exact ⟨nofun, fun h => absurd hempty h.1.1.1.ne_nil⟩
    split
    · rename_i hrelative
      refine ⟨nofun, fun h => ?_⟩
      rcases hrelative with hslash | hbackslash
      · exact absurd hslash h.1.1.1.relative
      · exact absurd hbackslash h.1.1.1.plain
    split
    · rename_i hillegal
      obtain ⟨seg, hseg, hillegal⟩ := hillegal
      exact ⟨nofun, fun h => absurd hillegal (h.1.1.1.segments seg hseg)⟩
    split
    · rename_i hseen
      exact ⟨nofun, fun h => absurd hseen h.1.1.2⟩
    rename_i hempty hrelative hlegal hfresh
    have hok : RelOk e.relPath := ⟨fun h => hrelative (.inr h), fun seg hseg h => hlegal ⟨seg, hseg, h⟩⟩
    constructor
    · intro h
      cases hplan : plan (e.relPath :: seen) rest with
      | error err =>
        rw [hplan] at h
        cases h
      | ok more =>
        rw [hplan] at h
        obtain ⟨hrest, hnodup, rfl⟩ := plan_ok.1 hplan
        obtain rfl := Except.ok.inj h
        refine ⟨⟨⟨hok, hfresh⟩, fun e' he' => ⟨(hrest e' he').1, fun hmem => ?_⟩⟩, ⟨fun hmem => ?_, hnodup⟩, rfl⟩
        · exact (hrest e' he').2 (List.mem_cons_of_mem _ hmem)
        · obtain ⟨e', he', heq⟩ := List.mem_map.1 hmem
          exact (hrest e' he').2 (heq ▸ List.mem_cons_self)
    · rintro ⟨⟨_, hrest⟩, ⟨hnew, hnodup⟩, rfl⟩
      have hplan : plan (e.relPath :: seen) rest = .ok (rest.map ReplaceEntry.planned) := by
        refine plan_ok.2 ⟨fun e' he' => ⟨(hrest e' he').1, fun hmem => ?_⟩, hnodup, rfl⟩
        rcases List.mem_cons.1 hmem with heq | hmem
        · exact hnew (heq ▸ List.mem_map_of_mem he')
        · exact (hrest e' he').2 hmem
      rw [hplan]
      rfl

theorem checkAbove_ok {planned : List Planned} : ∀ {above : List Units},
    checkAbove planned rel above = .ok () ↔ ∀ p ∈ planned, p.rel ∈ above → p.isDir = true
  | [] => by simp [checkAbove]
  | ancestor :: rest => by
    rw [checkAbove]
    split
    · rename_i hfile
      obtain ⟨p, hp, heq, hkind⟩ := hfile
      refine ⟨nofun, fun h => ?_⟩
      have hdir := h p hp (heq ▸ List.mem_cons_self)
      rw [hkind] at hdir
      cases hdir
    · rename_i hnone
      rw [checkAbove_ok]
      refine ⟨fun h p hp hmem => ?_, fun h p hp hmem => h p hp (List.mem_cons_of_mem _ hmem)⟩
      rcases List.mem_cons.1 hmem with heq | hmem
      · exact Bool.of_not_eq_false fun hkind => hnone ⟨p, hp, heq, hkind⟩
      · exact h p hp hmem

theorem checkPlan_ok {planned : List Planned} : ∀ {todo : List Planned},
    checkPlan planned todo = .ok () ↔ ∀ q ∈ todo, ∀ p ∈ planned, p.rel ∈ pathsAbove q.rel → p.isDir = true
  | [] => by simp [checkPlan]
  | q :: rest => by
    rw [checkPlan, List.forall_mem_cons, ← @checkAbove_ok q.rel, ← checkPlan_ok]
    cases checkAbove planned q.rel (pathsAbove q.rel) with
    | error err => exact ⟨nofun, fun h => nomatch h.1⟩
    | ok done => exact ⟨fun h => ⟨rfl, h⟩, fun h => h.2⟩

/-- Records under new paths are only added. -/
theorem foldl_put : ∀ {rs files : List StoredFile}, (rs.map (·.path)).Nodup → (∀ r ∈ rs, ∀ f ∈ files, f.path ≠ r.path) →
    rs.foldl put files = files ++ rs
  | [], files, _, _ => (List.append_nil files).symm
  | r :: rs, files, hnodup, hnew => by
    rw [List.map_cons, List.nodup_cons] at hnodup
    obtain ⟨hr, hnew⟩ := List.forall_mem_cons.1 hnew
    have hput : put files r = files ++ [r] := by
      rw [put, List.filter_eq_self.2 fun f hf => decide_eq_true (hr f hf)]
    rw [List.foldl_cons, hput, foldl_put hnodup.2, List.append_assoc, List.singleton_append]
    intro r' hr' f hf
    rcases List.mem_append.1 hf with hf | hf
    · exact hnew r' hr' f hf
    · rw [List.mem_singleton.1 hf]
      exact fun heq => hnodup.1 (heq ▸ List.mem_map_of_mem hr')

theorem RelOk.joined (h : RelOk rel) : join [storageRoot, rel] = keyOf (rel.splitOn slash) :=
  join_root fun seg hseg hempty => h.segments seg hseg (.inl hempty)

theorem joined_injective {rel' : Units} (h : RelOk rel) (h' : RelOk rel') (heq : join [storageRoot, rel] = join [storageRoot, rel']) :
    rel = rel' := by
  rw [h.joined, h'.joined] at heq
  have hsplit : rel.splitOn slash = rel'.splitOn slash := keyOf_injective unslashed_splitOn unslashed_splitOn heq
  calc
    rel = [slash].intercalate (rel.splitOn slash) := (List.intercalate_splitOn slash).symm
    _ = [slash].intercalate (rel'.splitOn slash) := by rw [hsplit]
    _ = rel' := List.intercalate_splitOn slash

theorem mem_replaced {files : List StoredFile} {r : StoredFile} : r ∈ replaced now entries files ↔
    (r ∈ files ∧ ¬withSlash storageRoot <+: r.path) ∨ ∃ e ∈ entries, r = e.planned.record now storageRoot := by
  simp only [replaced, List.mem_append, List.mem_filter, List.mem_map, decide_eq_true_eq, or_assoc]
  refine or_congr_right ⟨?_, ?_⟩
  · rintro (⟨_, ⟨⟨e, he, rfl⟩, _⟩, rfl⟩ | ⟨_, ⟨⟨e, he, rfl⟩, _⟩, rfl⟩)
    · exact ⟨e, he, rfl⟩
    · exact ⟨e, he, rfl⟩
  · rintro ⟨e, he, rfl⟩
    by_cases hdir : e.planned.isDir = true
    · exact .inl ⟨_, ⟨⟨e, he, rfl⟩, hdir⟩, rfl⟩
    · exact .inr ⟨_, ⟨⟨e, he, rfl⟩, hdir⟩, rfl⟩

theorem below_root (h : RelOk rel) : withSlash storageRoot <+: join [storageRoot, rel] := by
  have hroot : withSlash storageRoot = storageRoot ++ [slash] := by decide
  rw [h.joined, hroot, keyOf_eq (List.splitOn_ne_nil slash rel)]
  exact ⟨[slash].intercalate (rel.splitOn slash), by rw [List.append_assoc, List.singleton_append]⟩

theorem checkRevision_ok {expected : Option Int} {db : Database} :
    checkRevision expected db = .ok () ↔ ∀ r ∈ expected, db.revision = r := by
  cases expected with
  | none => simp [checkRevision]
  | some r =>
    unfold checkRevision
    split
    · rename_i heq
      obtain rfl := Option.some.inj heq
      split <;> simp_all
    · rename_i hnone
      cases hnone

/-- The writes of a plan fall on fresh keys, one each. -/
theorem puts_eq (h : Replaceable entries) (files : List StoredFile) :
    (((entries.map ReplaceEntry.planned).filter (¬·.isDir)).map (·.record now storageRoot)).foldl put
      ((((entries.map ReplaceEntry.planned).filter (·.isDir)).map (·.record now storageRoot)).foldl put
        (files.filter fun r => ¬withSlash storageRoot <+: r.path)) = replaced now entries files := by
  have hpaths : ((entries.map ReplaceEntry.planned).map fun p => (p.record now storageRoot).path).Nodup := by
    rw [List.map_map]
    refine List.Nodup.map_on (fun e he e' he' heq => ?_) (List.Nodup.of_map _ h.nodup)
    exact List.inj_on_of_nodup_map h.nodup he he' (joined_injective (h.paths e he) (h.paths e' he') heq)
  have hbelow : ∀ p ∈ entries.map ReplaceEntry.planned, withSlash storageRoot <+: (p.record now storageRoot).path := by
    intro p hp
    obtain ⟨e, he, rfl⟩ := List.mem_map.1 hp
    exact below_root (h.paths e he)
  have hnodup : ∀ q : Planned → Bool, ((((entries.map ReplaceEntry.planned).filter q).map (·.record now storageRoot)).map (·.path)).Nodup := by
    intro q
    rw [List.map_map]
    exact hpaths.sublist (List.filter_sublist.map _)
  have hdirs : (((entries.map ReplaceEntry.planned).filter (·.isDir)).map (·.record now storageRoot)).foldl put
      (files.filter fun r => ¬withSlash storageRoot <+: r.path) = (files.filter fun r => ¬withSlash storageRoot <+: r.path) ++
        ((entries.map ReplaceEntry.planned).filter (·.isDir)).map (·.record now storageRoot) := by
    refine foldl_put (hnodup _) fun r hr f hf => ?_
    obtain ⟨p, hp, rfl⟩ := List.mem_map.1 hr
    have hunder := hbelow p (List.mem_of_mem_filter hp)
    exact fun heq => of_decide_eq_true (List.mem_filter.1 hf).2 (heq ▸ hunder)
  rw [hdirs, foldl_put (hnodup _), replaced]
  intro r hr f hf heq
  obtain ⟨p, hp, rfl⟩ := List.mem_map.1 hr
  obtain ⟨hp, hfile⟩ := List.mem_filter.1 hp
  rcases List.mem_append.1 hf with hf | hf
  · exact of_decide_eq_true (List.mem_filter.1 hf).2 (heq ▸ hbelow p hp)
  · obtain ⟨q, hq, rfl⟩ := List.mem_map.1 hf
    obtain ⟨hq, hdir⟩ := List.mem_filter.1 hq
    obtain rfl := List.inj_on_of_nodup_map hpaths hq hp heq
    simp [hdir] at hfile

/-- A replacement goes through just for a tree and at the revision that was expected; then the root holds the tree. -/
theorem replaceTree_ok {expected : Option Int} {db db' : Database} :
    replaceTree now storageRoot entries expected db = .ok db' ↔
      Replaceable entries ∧ (∀ r ∈ expected, db.revision = r) ∧ db' = ⟨replaced now entries db.files, db.revision + 1⟩ := by
  unfold replaceTree
  rw [except_bind_ok]
  simp only [except_seq_ok, plan_ok, checkPlan_ok, checkRevision_ok]
  constructor
  · rintro ⟨planned, ⟨hpaths, hnodup, rfl⟩, htree, hrevision, hdone⟩
    have hok : Replaceable entries := by
      refine ⟨fun e he => (hpaths e he).1, hnodup, fun e he f hf habove => ?_⟩
      exact htree _ (List.mem_map_of_mem he) _ (List.mem_map_of_mem hf) habove
    refine ⟨hok, hrevision, ?_⟩
    rw [← Except.ok.inj hdone, puts_eq hok]
  · rintro ⟨hok, hrevision, rfl⟩
    refine ⟨_, ⟨fun e he => ⟨hok.paths e he, List.not_mem_nil⟩, hok.nodup, rfl⟩, fun q hq p hp habove => ?_, hrevision, ?_⟩
    · obtain ⟨e, he, rfl⟩ := List.mem_map.1 hq
      obtain ⟨f, hf, rfl⟩ := List.mem_map.1 hp
      exact hok.tree e he f hf habove
    · rw [puts_eq hok]
      rfl

end Replace

end Purdex.InApp
