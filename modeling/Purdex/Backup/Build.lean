/-
The manifest of an In-App tree: what the client builds of it, and that it stands for the tree just where paths
and contents are told apart by their encoding and their hash.
-/
import Purdex.Backup.Manifest
import Purdex.InApp.Tree
import Mathlib.Data.List.Sort

namespace Purdex.InApp

open Conc Digest Utf16

/-! ## Entries -/

structure ManifestEntry where
  path : Units
  kind : String
  hash : String
  size : Int
  words : Int
  deriving Repr, DecidableEq

/-- The entry as the daemon reads it. -/
def ManifestEntry.wire (e : ManifestEntry) : Backup.ManifestEntry := ⟨String.ofList (decode e.path), e.kind, e.hash, e.size, e.words⟩

/-- The bytes of an encoded text. -/
def encode (text : Units) : List Nat := Backup.bytes (String.ofList (decode text))

def compareBytes : List Nat → List Nat → Int
  | x :: xs, y :: ys => if x ≠ y then (x : Int) - y else compareBytes xs ys
  | xs, ys => (xs.length : Int) - ys.length

def byteCompare (a b : Units) : Int := compareBytes (encode a) (encode b)

/-- The entries so far, and the contents by their hashes. -/
structure BuiltManifest where
  entries : List ManifestEntry
  blobs : List (String × List UInt8)
  deriving Repr, DecidableEq

/-! ## Building -/

section Build

variable (localeCompare : Units → Units → Int) (wordCountFor : Units → List UInt8 → Int) (files : List StoredFile)

def BuiltManifest.addDir (built : BuiltManifest) (path : Units) : BuiltManifest :=
  { built with entries := built.entries ++ [⟨relativeToRoot path, "dir", "", 0, 0⟩] }

/-- A content is kept once. -/
def BuiltManifest.addFile (built : BuiltManifest) (path : Units) (bytes : List UInt8) : BuiltManifest :=
  let hash := sha256Hex bytes
  { entries := built.entries ++ [⟨relativeToRoot path, "file", hash, bytes.length, wordCountFor path bytes⟩]
    blobs := if hash ∈ built.blobs.map (·.1) then built.blobs else built.blobs ++ [(hash, bytes)] }

mutual

def visitNode : TreeNode → BuiltManifest → Except ReadError BuiltManifest
  | .node path _ isDir _ children, built =>
    if isDir then visit children (built.addDir path)
    else (read files path).map fun bytes => built.addFile wordCountFor path bytes

/-- Depth first, every file is read and hashed. -/
def visit : List TreeNode → BuiltManifest → Except ReadError BuiltManifest
  | [], built => .ok built
  | node :: rest, built =>
    match visitNode node built with
    | .error e => .error e
    | .ok built => visit rest built

end

def buildManifest : Except ReadError BuiltManifest := do
  let tree := listTreeUnder localeCompare files (files.length + 1) storageRoot
  let built ← visit wordCountFor files tree ⟨[], []⟩
  return { built with entries := built.entries.mergeSort fun a b => byteCompare a.path b.path ≤ 0 }

/-! ## Rebuilding -/

inductive RestoreError where
  | blobMissing (hash : String)
  | hashMismatch (path : Units) (hash : String)
  | sizeMismatch (path : Units)
  | replace (e : ReplaceError)
  deriving Repr, DecidableEq

/-- Every file has its content, of its hash and size. -/
def verify (blobs : List (String × List UInt8)) : List ManifestEntry → Except RestoreError Unit
  | [] => .ok ()
  | e :: rest =>
    if e.kind ≠ "file" then verify blobs rest
    else match blobs.lookup e.hash with
      | none => .error (.blobMissing e.hash)
      | some bytes =>
        if sha256Hex bytes ≠ e.hash then .error (.hashMismatch e.path e.hash)
        else if (bytes.length : Int) ≠ e.size then .error (.sizeMismatch e.path)
        else verify blobs rest

def replaceEntries (blobs : List (String × List UInt8)) (entries : List ManifestEntry) : List ReplaceEntry :=
  entries.map fun e => if e.kind = "dir" then ⟨e.path, true, none⟩ else ⟨e.path, false, blobs.lookup e.hash⟩

/-- What a restore makes of entries and contents. -/
def rebuild (now : Int) (built : BuiltManifest) (db : Database) : Except RestoreError Database := do
  verify built.blobs built.entries
  (replaceTree now storageRoot (replaceEntries built.blobs built.entries) none db).mapError .replace

end Build

/-! ## What is built -/

section Built

variable {localeCompare : Units → Units → Int} {wordCountFor : Units → List UInt8 → Int} {files : List StoredFile} {tree : FileTree}

/-- One step of the walk. -/
def visitOne (wordCountFor : Units → List UInt8 → Int) (files : List StoredFile) (built : BuiltManifest) (node : Units × Bool) :
    Except ReadError BuiltManifest :=
  if node.2 then .ok (built.addDir node.1) else (read files node.1).map fun bytes => built.addFile wordCountFor node.1 bytes

mutual

theorem visitNode_eq : ∀ (node : TreeNode) (built : BuiltManifest),
    visitNode wordCountFor files node built = node.flat.foldlM (visitOne wordCountFor files) built
  | .node path _ true _ children, built => by
    rw [visitNode, TreeNode.flat, if_pos rfl, if_pos rfl, List.foldlM_cons, visit_eq]
    rfl
  | .node path _ false _ children, built => by
    rw [visitNode, TreeNode.flat, if_neg (by decide), if_neg (by decide), List.foldlM_cons]
    cases hread : read files path with
    | error e => simp [visitOne, hread, Except.map, bind, Except.bind]
    | ok bytes => simp [visitOne, hread, Except.map, bind, Except.bind, pure, Except.pure]

theorem visit_eq : ∀ (nodes : List TreeNode) (built : BuiltManifest),
    visit wordCountFor files nodes built = (flatAll nodes).foldlM (visitOne wordCountFor files) built
  | [], built => by
    rw [visit, flatAll, List.foldlM_nil]
    rfl
  | node :: rest, built => by
    rw [visit, flatAll, List.foldlM_append, visitNode_eq node built]
    cases node.flat.foldlM (visitOne wordCountFor files) built with
    | error e => rfl
    | ok built => exact visit_eq rest built

end

/-- The entry of a record. -/
def StoredFile.manifestEntry (wordCountFor : Units → List UInt8 → Int) (r : StoredFile) : ManifestEntry :=
  if r.isDirectory then ⟨relativeToRoot r.path, "dir", "", 0, 0⟩
  else ⟨relativeToRoot r.path, "file", sha256Hex r.content, r.content.length, wordCountFor r.path r.content⟩

/-- The contents are those of files, each under its hash, and every file has one under its own. -/
structure Contents (order : List StoredFile) (blobs : List (String × List UInt8)) : Prop where
  sound : ∀ b ∈ blobs, ∃ r ∈ order, r.isDirectory = false ∧ b = (sha256Hex r.content, r.content)
  complete : ∀ r ∈ order, r.isDirectory = false → sha256Hex r.content ∈ blobs.map (·.1)

/-- What the walk has made of the records it has come by. -/
structure Walked (wordCountFor : Units → List UInt8 → Int) (order : List StoredFile) (built : BuiltManifest) : Prop where
  entries : built.entries = order.map (StoredFile.manifestEntry wordCountFor)
  contents : Contents order built.blobs

theorem Walked.step {order : List StoredFile} {built : BuiltManifest} {r : StoredFile} (h : Walked wordCountFor order built)
    (hr : get files r.path = some r) :
    ∃ built', visitOne wordCountFor files built (r.path, r.isDirectory) = .ok built' ∧ Walked wordCountFor (order ++ [r]) built' := by
  obtain ⟨hentries, hsound, hcomplete⟩ := h
  have hkeep : ∀ b ∈ built.blobs, ∃ r' ∈ order ++ [r], r'.isDirectory = false ∧ b = (sha256Hex r'.content, r'.content) := fun b hb =>
    have ⟨r', hr', hfile⟩ := hsound b hb
    ⟨r', List.mem_append_left _ hr', hfile⟩
  cases hdir : r.isDirectory with
  | true =>
    refine ⟨built.addDir r.path, rfl, ?_, hkeep, fun r' hr' hfile => ?_⟩
    · simp only [BuiltManifest.addDir, List.map_append, List.map_cons, List.map_nil, hentries, StoredFile.manifestEntry, hdir, if_true]
    · rcases List.mem_append.1 hr' with hr' | hr'
      · exact hcomplete r' hr' hfile
      · rw [List.mem_singleton.1 hr', hdir] at hfile
        cases hfile
  | false =>
    refine ⟨built.addFile wordCountFor r.path r.content, ?_, ?_, fun b hb => ?_, fun r' hr' hfile => ?_⟩
    · simp only [visitOne, read, hr, hdir]
      rfl
    · simp only [BuiltManifest.addFile, List.map_append, List.map_cons, List.map_nil, hentries, StoredFile.manifestEntry, hdir]
      rfl
    · simp only [BuiltManifest.addFile] at hb
      split at hb
      · exact hkeep b hb
      · rcases List.mem_append.1 hb with hb | hb
        · exact hkeep b hb
        · exact ⟨r, List.mem_append_right _ List.mem_cons_self, hdir, List.mem_singleton.1 hb⟩
    · simp only [BuiltManifest.addFile]
      rcases List.mem_append.1 hr' with hr' | hr'
      · split
        · exact hcomplete r' hr' hfile
        · rw [List.map_append]
          exact List.mem_append_left _ (hcomplete r' hr' hfile)
      · rw [List.mem_singleton.1 hr']
        split
        · rename_i hstored
          exact hstored
        · rw [List.map_append]
          exact List.mem_append_right _ List.mem_cons_self

theorem walked_foldlM : ∀ {todo order : List StoredFile} {built : BuiltManifest}, (∀ r ∈ todo, get files r.path = some r) →
    Walked wordCountFor order built →
    ∃ built', (todo.map fun r => (r.path, r.isDirectory)).foldlM (visitOne wordCountFor files) built = .ok built' ∧
      Walked wordCountFor (order ++ todo) built'
  | [], order, built, _, h => ⟨built, rfl, (List.append_nil order).symm ▸ h⟩
  | r :: todo, order, built, hfound, h => by
    obtain ⟨hr, htodo⟩ := List.forall_mem_cons.1 hfound
    obtain ⟨built', hstep, hwalked⟩ := h.step hr
    obtain ⟨built'', hrest, hall⟩ := walked_foldlM htodo hwalked
    refine ⟨built'', ?_, ?_⟩
    · rw [List.map_cons, List.foldlM_cons, hstep]
      exact hrest
    · rwa [List.append_assoc, List.singleton_append] at hall

/-- A list that is a permutation of an image is the image of a permutation. -/
theorem exists_perm_of_map {α β : Type} {f : α → β} {l : List β} {m : List α} (h : l.Perm (m.map f)) :
    ∃ m' : List α, m'.Perm m ∧ m'.map f = l := by
  generalize hm : m.map f = k at h
  induction h generalizing m with
  | nil =>
    obtain rfl := List.map_eq_nil_iff.1 hm
    exact ⟨[], List.Perm.refl _, rfl⟩
  | cons x _ ih =>
    obtain ⟨a, rest, rfl, rfl, hrest⟩ := List.map_eq_cons_iff.1 hm
    obtain ⟨m', hperm, hmap⟩ := ih hrest
    exact ⟨a :: m', hperm.cons a, by rw [List.map_cons, hmap]⟩
  | swap x y l =>
    obtain ⟨a, rest, rfl, rfl, hrest⟩ := List.map_eq_cons_iff.1 hm
    obtain ⟨b, more, rfl, rfl, rfl⟩ := List.map_eq_cons_iff.1 hrest
    exact ⟨b :: a :: more, List.Perm.swap _ _ _, rfl⟩
  | trans _ _ ih₁ ih₂ =>
    obtain ⟨m₂, hperm₂, hmap₂⟩ := ih₂ hm
    obtain ⟨m₁, hperm₁, hmap₁⟩ := ih₁ hmap₂
    exact ⟨m₁, hperm₁.trans hperm₂, hmap₁⟩

theorem FileTree.get_eq {r : StoredFile} (hr : r ∈ tree.files) : get tree.files r.path = some r := by
  cases hget : get tree.files r.path with
  | none => exact absurd rfl (of_decide_eq_false (Bool.eq_false_iff.2 (List.find?_eq_none.1 hget r hr)))
  | some r' =>
    have hpath : r'.path = r.path := by simpa using List.find?_some hget
    rw [eq_of_path (List.mem_of_find?_eq_some hget) hr hpath]

theorem compareBytes_le : ∀ {a b : List Nat}, compareBytes a b ≤ 0 ↔ ¬b < a
  | [], b => by
    refine iff_of_true ?_ (List.not_lt_nil b)
    rw [compareBytes, List.length_nil]
    · omega
    · exact fun _ _ _ _ hcontra => nomatch hcontra
  | x :: xs, [] => by
    refine iff_of_false ?_ (not_not.2 (List.nil_lt_cons x xs))
    rw [compareBytes, List.length_cons, List.length_nil]
    · omega
    · exact fun _ _ _ _ _ hcontra => nomatch hcontra
  | x :: xs, y :: ys => by
    rw [compareBytes, List.cons_lt_cons_iff]
    split
    · rename_i hne
      constructor
      · rintro hle (hlt | ⟨heq, _⟩)
        · omega
        · exact hne heq.symm
      · intro hnot
        have hge : ¬y < x := fun hlt => hnot (.inl hlt)
        omega
    · rename_i heq
      rw [compareBytes_le]
      refine not_congr ⟨fun h => .inr ⟨(not_not.1 heq).symm, h⟩, ?_⟩
      rintro (hlt | ⟨_, h⟩)
      · exact absurd hlt (not_not.1 heq ▸ lt_irrefl _)
      · exact h

theorem byteCompare_le {a b : Units} : byteCompare a b ≤ 0 ↔ encode a ≤ encode b := compareBytes_le.trans not_lt

/-- A build comes through, and has met every record below the root. -/
theorem buildManifest_ok : ∃ built, buildManifest localeCompare wordCountFor tree.files = .ok built ∧
    built.entries.Perm ((below tree.files storageRoot).map (StoredFile.manifestEntry wordCountFor)) ∧
    (built.entries.Pairwise fun a b => encode a.path ≤ encode b.path) ∧ Contents (below tree.files storageRoot) built.blobs := by
  have hlisted : (flatAll (listTreeUnder localeCompare tree.files (tree.files.length + 1) (keyOf []))).Perm
      ((below tree.files (keyOf [])).map fun r => (r.path, r.isDirectory)) :=
    flat_listTreeUnder (by simp) (Nat.lt_succ_of_le (List.length_filter_le _ tree.files))
  rw [keyOf_nil] at hlisted
  obtain ⟨order, hperm, hflat⟩ := exists_perm_of_map hlisted
  have hfound : ∀ r ∈ order, get tree.files r.path = some r := fun r hr => tree.get_eq (mem_below.1 (hperm.mem_iff.1 hr)).1
  have hstart : Walked wordCountFor [] ⟨[], []⟩ :=
    ⟨rfl, fun _ hb => absurd hb List.not_mem_nil, fun _ hr => absurd hr List.not_mem_nil⟩
  obtain ⟨built, hfold, hentries, hsound, hcomplete⟩ := walked_foldlM hfound hstart
  rw [hflat, ← visit_eq] at hfold
  refine ⟨{ built with entries := built.entries.mergeSort fun a b => byteCompare a.path b.path ≤ 0 }, ?_, ?_, ?_, ?_, ?_⟩
  · rw [buildManifest, hfold]
    rfl
  · refine (List.mergeSort_perm _ _).trans ?_
    rw [hentries]
    exact hperm.map _
  · refine List.Pairwise.imp (fun h => byteCompare_le.1 (of_decide_eq_true h)) (List.pairwise_mergeSort ?_ ?_ built.entries)
    · simp only [decide_eq_true_eq, byteCompare_le]
      exact fun _ _ _ => le_trans
    · simp only [Bool.or_eq_true, decide_eq_true_eq, byteCompare_le]
      exact fun _ _ => le_total _ _
  · intro b hb
    obtain ⟨r, hr, hfile⟩ := hsound b hb
    exact ⟨r, hperm.mem_iff.1 hr, hfile⟩
  · exact fun r hr => hcomplete r (hperm.mem_iff.2 hr)

end Built

end Purdex.InApp
