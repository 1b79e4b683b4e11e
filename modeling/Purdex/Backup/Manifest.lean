/-
The entries of a snapshot, and the check that they are a tree in its normal form.
-/
import Purdex.Conc.Transaction
import Purdex.Digest.Sha256
import Mathlib.Data.List.Chain
import Mathlib.Data.List.Lex
import Mathlib.Order.Basic

namespace Purdex.Backup

open Conc

/-! ## Strings as bytes -/

/-- The bytes of a string, by which strings are compared. -/
def bytes (s : String) : List Nat := (s.toList.flatMap String.utf8EncodeChar).map UInt8.toNat

theorem bytes_injective {s t : String} (h : bytes s = bytes t) : s = t := by
  have hflat : s.toList.flatMap String.utf8EncodeChar = t.toList.flatMap String.utf8EncodeChar :=
    List.map_injective_iff.2 (fun _ _ => UInt8.toNat_inj.1) h
  have hencoded : s.toList.utf8Encode = t.toList.utf8Encode := congrArg List.toByteArray hflat
  rw [← String.ofList_toList (s := s), ← String.ofList_toList (s := t), ← String.toByteArray_inj, String.toByteArray_ofList,
    String.toByteArray_ofList, hencoded]

/-! ## Entries -/

structure ManifestEntry where
  path : String
  kind : String
  hash : String
  size : Int
  words : Int
  deriving Repr, DecidableEq

inductive ManifestError where
  | duplicate (path : String)
  | unsorted (prev path : String)
  | emptyPath
  | backslash (path : String)
  | emptySegment (path : String)
  | dotSegment (path segment : String)
  | dirContent (path : String)
  | hash (path : String)
  | kind (path kind : String)
  | fileAbove (file path : String)
  deriving Repr, DecidableEq

/-! ## Paths -/

def segments (path : String) : List (List Char) := path.toList.splitOn '/'

def checkSegments (path : String) : List (List Char) → Except ManifestError Unit
  | [] => .ok ()
  | seg :: rest =>
    if seg = [] then .error (.emptySegment path)
    else if seg = ['.'] ∨ seg = ['.', '.'] then .error (.dotSegment path (.ofList seg))
    else checkSegments path rest

def validatePath (path : String) : Except ManifestError Unit :=
  if path = "" then .error .emptyPath
  else if '\\' ∈ path.toList then .error (.backslash path)
  else checkSegments path (segments path)

/-- A name that may stand between slashes. -/
def SegmentOk (seg : List Char) : Prop := seg ≠ [] ∧ seg ≠ ['.'] ∧ seg ≠ ['.', '.']

instance (seg : List Char) : Decidable (SegmentOk seg) := inferInstanceAs (Decidable (_ ∧ _))

structure PathOk (path : String) : Prop where
  plain : '\\' ∉ path.toList
  segments : ∀ seg ∈ segments path, SegmentOk seg

theorem checkSegments_ok {path : String} : ∀ {segs : List (List Char)}, checkSegments path segs = .ok () ↔ ∀ seg ∈ segs, SegmentOk seg
  | [] => by simp [checkSegments]
  | seg :: rest => by
    rw [checkSegments, List.forall_mem_cons]
    split
    · rename_i hempty
      exact ⟨nofun, fun h => absurd hempty h.1.1⟩
    split
    · rename_i hdot
      refine ⟨nofun, fun h => ?_⟩
      rcases hdot with hdot | hdot
      · exact absurd hdot h.1.2.1
      · exact absurd hdot h.1.2.2
    · rename_i hempty hdot
      rw [checkSegments_ok]
      exact ⟨fun h => ⟨⟨hempty, fun h₁ => hdot (.inl h₁), fun h₂ => hdot (.inr h₂)⟩, h⟩, fun h => h.2⟩

theorem validatePath_ok {path : String} : validatePath path = .ok () ↔ PathOk path := by
  unfold validatePath
  split
  · rename_i hempty
    subst hempty
    refine ⟨nofun, fun h => ?_⟩
    have hsegment := h.segments [] (by decide)
    exact absurd rfl hsegment.1
  split
  · rename_i hbackslash
    exact ⟨nofun, fun h => absurd hbackslash h.plain⟩
  · rename_i hplain
    rw [checkSegments_ok]
    exact ⟨fun h => ⟨hplain, h⟩, fun h => h.segments⟩

/-- The paths above a path, longest first. -/
def ancestors : List Char → List (List Char)
  | [] => []
  | c :: rest => (ancestors rest).map (c :: ·) ++ if c = '/' then [[]] else []

theorem mem_ancestors {p a : List Char} : a ∈ ancestors p ↔ ∃ rest, p = a ++ '/' :: rest := by
  induction p generalizing a with
  | nil => simp [ancestors]
  | cons c p ih =>
    rw [ancestors, List.mem_append, List.mem_map]
    constructor
    · rintro (⟨b, hb, rfl⟩ | hc)
      · obtain ⟨rest, rfl⟩ := ih.1 hb
        exact ⟨rest, rfl⟩
      · split at hc
        · rename_i hslash
          obtain rfl := List.mem_singleton.1 hc
          exact ⟨p, by rw [hslash, List.nil_append]⟩
        · cases hc
    · rintro ⟨rest, hp⟩
      cases a with
      | nil =>
        obtain ⟨rfl, rfl⟩ := List.cons.inj hp
        exact .inr (by simp)
      | cons d a =>
        obtain ⟨rfl, rfl⟩ := List.cons.inj hp
        exact .inl ⟨a, ih.2 ⟨rest, rfl⟩, rfl⟩

/-! ## Manifests -/

/-- 64 lowercase hexadecimal digits. -/
def isHex64 (s : String) : Bool :=
  (bytes s).length = 64 && (bytes s).all fun c => (0x30 ≤ c && c ≤ 0x39) || (0x61 ≤ c && c ≤ 0x66)

/-- Whether the entry is a file, if it is well formed. -/
def checkEntry (e : ManifestEntry) : Except ManifestError Bool :=
  if e.kind = "dir" then
    if e.hash ≠ "" ∨ e.size ≠ 0 ∨ e.words ≠ 0 then .error (.dirContent e.path) else .ok false
  else if e.kind = "file" then
    if isHex64 e.hash = false then .error (.hash e.path) else .ok true
  else .error (.kind e.path e.kind)

def checkOrder (prev path : String) : Except ManifestError Unit :=
  if path = prev then .error (.duplicate path)
  else if bytes path < bytes prev then .error (.unsorted prev path)
  else .ok ()

def checkAfter (prev : Option String) (path : String) : Except ManifestError Unit :=
  match prev with
  | some prev => checkOrder prev path
  | none => .ok ()

/-- The paths of the files, where every entry is well formed and comes after the one before it. -/
def checkEntries : Option String → List ManifestEntry → Except ManifestError (List String)
  | _, [] => .ok []
  | prev, e :: rest => do
    checkAfter prev e.path
    validatePath e.path
    let file ← checkEntry e
    let fileSet ← checkEntries (some e.path) rest
    return if file then e.path :: fileSet else fileSet

def checkAncestors (fileSet : List String) (path : String) : List (List Char) → Except ManifestError Unit
  | [] => .ok ()
  | p :: rest => if String.ofList p ∈ fileSet then .error (.fileAbove (.ofList p) path) else checkAncestors fileSet path rest

def checkTree (fileSet : List String) : List ManifestEntry → Except ManifestError Unit
  | [] => .ok ()
  | e :: rest => do
    checkAncestors fileSet e.path (ancestors e.path.toList)
    checkTree fileSet rest

def validateManifest (entries : List ManifestEntry) : Except ManifestError Unit := do
  let fileSet ← checkEntries none entries
  checkTree fileSet entries

/-! ## What is valid -/

def EntryOk (e : ManifestEntry) : Prop :=
  (e.kind = "dir" ∧ e.hash = "" ∧ e.size = 0 ∧ e.words = 0) ∨ (e.kind = "file" ∧ isHex64 e.hash = true)

/-- A tree in its normal form. -/
structure Valid (entries : List ManifestEntry) : Prop where
  sorted : (entries.map fun e => bytes e.path).Pairwise (· < ·)
  paths : ∀ e ∈ entries, PathOk e.path
  kinds : ∀ e ∈ entries, EntryOk e
  tree : ∀ e ∈ entries, ∀ f ∈ entries, f.kind = "file" → f.path.toList ∉ ancestors e.path.toList

section Valid

variable {e : ManifestEntry} {entries : List ManifestEntry}

theorem checkEntry_ok {file : Bool} : checkEntry e = .ok file ↔ EntryOk e ∧ (file = true ↔ e.kind = "file") := by
  unfold checkEntry EntryOk
  split
  · rename_i hdir
    have hfile : e.kind ≠ "file" := by
      rw [hdir]
      decide
    split
    · rename_i hcontent
      refine ⟨nofun, ?_⟩
      rintro ⟨⟨_, hhash, hsize, hwords⟩ | ⟨h, _⟩, _⟩
      · rcases hcontent with h | h | h
        · exact absurd hhash h
        · exact absurd hsize h
        · exact absurd hwords h
      · exact absurd h hfile
    · rename_i hempty
      simp only [not_or, not_not] at hempty
      constructor
      · rintro ⟨⟩
        exact ⟨.inl ⟨hdir, hempty⟩, by simpa using hfile⟩
      · rintro ⟨_, hiff⟩
        cases file with
        | true => exact absurd (hiff.1 rfl) hfile
        | false => rfl
  split
  · rename_i hdir hfile
    split
    · rename_i hhash
      refine ⟨nofun, ?_⟩
      rintro ⟨⟨h, _⟩ | ⟨_, h⟩, _⟩
      · exact absurd h hdir
      · rw [hhash] at h
        cases h
    · rename_i hhash
      constructor
      · rintro ⟨⟩
        exact ⟨.inr ⟨hfile, by simpa using hhash⟩, by simpa using hfile⟩
      · rintro ⟨_, hiff⟩
        rw [hiff.2 hfile]
  · rename_i hdir hfile
    refine ⟨nofun, ?_⟩
    rintro ⟨⟨h, _⟩ | ⟨h, _⟩, _⟩
    · exact absurd h hdir
    · exact absurd h hfile

theorem checkOrder_ok {prev path : String} : checkOrder prev path = .ok () ↔ bytes prev < bytes path := by
  unfold checkOrder
  split
  · rename_i heq
    rw [heq]
    exact ⟨nofun, fun h => absurd h (lt_irrefl _)⟩
  split
  · rename_i hlt
    exact ⟨nofun, fun h => absurd h hlt.not_gt⟩
  · rename_i hne hlt
    exact ⟨fun _ => lt_of_le_of_ne (not_lt.1 hlt) fun h => hne (bytes_injective h).symm, fun _ => rfl⟩

theorem checkAfter_ok {prev : Option String} {path : String} :
    checkAfter prev path = .ok () ↔ ∀ p ∈ prev, bytes p < bytes path := by
  cases prev with
  | none => simp [checkAfter]
  | some p => simp [checkAfter, checkOrder_ok]

theorem checkEntries_ok : ∀ {entries : List ManifestEntry} {prev : Option String} {fileSet : List String},
    checkEntries prev entries = .ok fileSet ↔
      (∀ p ∈ prev, ∀ e ∈ entries.head?, bytes p < bytes e.path) ∧ (entries.map fun e => bytes e.path).IsChain (· < ·) ∧
        (∀ e ∈ entries, PathOk e.path) ∧ (∀ e ∈ entries, EntryOk e) ∧
          fileSet = (entries.filter fun e => e.kind = "file").map (·.path)
  | [], prev, fileSet => by
    simp only [checkEntries, Except.ok.injEq, List.head?_nil, List.map_nil, List.filter_nil, List.IsChain.nil, List.not_mem_nil]
    simp [eq_comm]
  | e :: rest, prev, fileSet => by
    rw [checkEntries, except_seq_ok, except_seq_ok, except_bind_ok]
    simp only [except_bind_ok, checkAfter_ok, validatePath_ok, checkEntry_ok, checkEntries_ok, List.head?_cons, List.map_cons,
      List.isChain_cons, List.forall_mem_cons, Option.mem_def, Option.some.injEq, forall_eq', List.head?_map, Option.map_eq_some_iff]
    constructor
    · rintro ⟨ho, hp, file, ⟨hentry, hfile⟩, set, ⟨hnext, hchain, hpaths, hentries, rfl⟩, hset⟩
      refine ⟨ho, ⟨?_, hchain⟩, ⟨hp, hpaths⟩, ⟨hentry, hentries⟩, ?_⟩
      · rintro _ ⟨e', he', rfl⟩
        exact hnext e' he'
      · rw [← Except.ok.inj hset, List.filter_cons]
        by_cases hkind : e.kind = "file"
        · rw [if_pos (hfile.2 hkind), if_pos (by simpa using hkind), List.map_cons]
        · rw [if_neg fun h => hkind (hfile.1 h), if_neg (by simpa using hkind)]
    · rintro ⟨ho, ⟨hnext, hchain⟩, ⟨hp, hpaths⟩, ⟨hentry, hentries⟩, rfl⟩
      refine ⟨ho, hp, decide (e.kind = "file"), ⟨hentry, by simp⟩, _, ⟨fun e' he' => hnext _ ⟨e', he', rfl⟩, hchain, hpaths, hentries, rfl⟩, ?_⟩
      by_cases hkind : e.kind = "file" <;> simp [hkind, pure, Except.pure]

theorem checkAncestors_ok {fileSet : List String} {path : String} : ∀ {ps : List (List Char)},
    checkAncestors fileSet path ps = .ok () ↔ ∀ p ∈ ps, String.ofList p ∉ fileSet
  | [] => by simp [checkAncestors]
  | p :: rest => by
    rw [checkAncestors, List.forall_mem_cons]
    split
    · rename_i hmem
      exact ⟨nofun, fun h => absurd hmem h.1⟩
    · rename_i hmem
      rw [checkAncestors_ok]
      exact ⟨fun h => ⟨hmem, h⟩, fun h => h.2⟩

theorem checkTree_ok {fileSet : List String} : ∀ {entries : List ManifestEntry},
    checkTree fileSet entries = .ok () ↔ ∀ e ∈ entries, ∀ p ∈ ancestors e.path.toList, String.ofList p ∉ fileSet
  | [] => by simp [checkTree]
  | e :: rest => by
    rw [checkTree, except_seq_ok, List.forall_mem_cons, checkAncestors_ok, checkTree_ok]

/-- The check accepts just the trees in normal form. -/
theorem validateManifest_ok : validateManifest entries = .ok () ↔ Valid entries := by
  unfold validateManifest
  rw [except_bind_ok]
  simp only [checkEntries_ok, checkTree_ok]
  constructor
  · rintro ⟨_, ⟨_, hchain, hpaths, hentries, rfl⟩, htree⟩
    refine ⟨List.isChain_iff_pairwise.1 hchain, hpaths, hentries, fun e he f hf hfile habove => ?_⟩
    refine htree e he _ habove (List.mem_map.2 ⟨f, List.mem_filter.2 ⟨hf, by simpa using hfile⟩, ?_⟩)
    rw [String.ofList_toList]
  · rintro h
    refine ⟨_, ⟨nofun, List.isChain_iff_pairwise.2 h.sorted, h.paths, h.kinds, rfl⟩, fun e he p hp hmem => ?_⟩
    obtain ⟨f, hf, heq⟩ := List.mem_map.1 hmem
    obtain ⟨hf, hfile⟩ := List.mem_filter.1 hf
    refine h.tree e he f hf (by simpa using hfile) ?_
    rw [heq, String.toList_ofList]
    exact hp

end Valid

end Purdex.Backup
