/-
What a manifest stands for: the tree it was built of, as the daemon accepts it and as a restore rebuilds it.
-/
import Purdex.Backup.Build

namespace Purdex.InApp

open Conc Digest Utf16

/-! ## Manifests of a tree -/

/-- The same directories and files below the root, with the same contents. -/
def SameTree (files files' : List StoredFile) : Prop :=
  ∀ path isDir content, storageRoot ++ [slash] <+: path →
    ((∃ r ∈ files, r.path = path ∧ r.isDirectory = isDir ∧ r.content = content) ↔
      ∃ r ∈ files', r.path = path ∧ r.isDirectory = isDir ∧ r.content = content)

def kindOf (r : StoredFile) : String := if r.isDirectory then "dir" else "file"

/-- A manifest that lists the tree, that the daemon accepts, whose contents are there, and which rebuilds the tree. -/
structure Faithful (tree : FileTree) (built : BuiltManifest) : Prop where
  lists : (built.entries.map fun e => (e.path, e.kind)).Perm
    ((below tree.files storageRoot).map fun r => (relativeToRoot r.path, kindOf r)) ∧ (built.entries.map (·.path)).Nodup
  accepted : Backup.validateManifest (built.entries.map ManifestEntry.wire) = .ok ()
  contents : ∀ e ∈ built.entries, e.kind = "file" → ∃ bytes, built.blobs.lookup e.hash = some bytes ∧ sha256Hex bytes = e.hash ∧
    bytes.length = e.size
  rebuilt : ∀ now db, ∃ db', rebuild now built db = .ok db' ∧ SameTree tree.files db'.files

/-- No two names in one directory are encoded alike. -/
def Encodable (tree : FileTree) : Prop :=
  ∀ r ∈ tree.files, ∀ r' ∈ tree.files, ∀ above name name', (∀ n ∈ above, NameOk n) → NameOk name → NameOk name' →
    r.path = keyOf (above ++ [name]) → r'.path = keyOf (above ++ [name']) → encode name = encode name' → name = name'

/-- No two contents have one hash. -/
def Distinguished (tree : FileTree) : Prop :=
  ∀ r ∈ below tree.files storageRoot, ∀ r' ∈ below tree.files storageRoot, r.isDirectory = false → r'.isDirectory = false →
    sha256Hex r.content = sha256Hex r'.content → r.content = r'.content

/-! ## Hashes -/

theorem utf8EncodeChar_hexDigit {c : Char} (h : IsHexDigit c) :
    ∃ b, String.utf8EncodeChar c = [b] ∧ ((0x30 ≤ b.toNat ∧ b.toNat ≤ 0x39) ∨ (0x61 ≤ b.toNat ∧ b.toNat ≤ 0x66)) := by
  have hrange : (0x30 ≤ c.val.toNat ∧ c.val.toNat ≤ 0x39) ∨ (0x61 ≤ c.val.toNat ∧ c.val.toNat ≤ 0x66) := by
    rcases h with ⟨hlo, hhi⟩ | ⟨hlo, hhi⟩
    · exact .inl ⟨hlo, hhi⟩
    · exact .inr ⟨hlo, hhi⟩
  have hsize : c.utf8Size = 1 := by
    have hle : c.val ≤ 0x7F := by
      rw [UInt32.le_iff_toNat_le]
      show c.val.toNat ≤ 127
      omega
    exact if_pos hle
  refine ⟨_, String.utf8EncodeChar_eq_singleton hsize, ?_⟩
  have hbyte : c.val.toUInt8.toNat = c.val.toNat := by
    rw [UInt32.toNat_toUInt8]
    omega
  rw [hbyte]
  exact hrange

theorem isHex64_sha256Hex (message : List UInt8) : Backup.isHex64 (sha256Hex message) = true := by
  have hall : ∀ {cs : List Char}, (∀ c ∈ cs, IsHexDigit c) → ((cs.flatMap String.utf8EncodeChar).map UInt8.toNat).length = cs.length ∧
      ∀ b ∈ (cs.flatMap String.utf8EncodeChar).map UInt8.toNat, (0x30 ≤ b ∧ b ≤ 0x39) ∨ (0x61 ≤ b ∧ b ≤ 0x66) := by
    intro cs hcs
    induction cs with
    | nil => exact ⟨rfl, fun _ hb => absurd hb List.not_mem_nil⟩
    | cons c cs ih =>
      obtain ⟨hc, hcs⟩ := List.forall_mem_cons.1 hcs
      obtain ⟨b, hb, hrange⟩ := utf8EncodeChar_hexDigit hc
      obtain ⟨hlength, hbytes⟩ := ih hcs
      rw [List.flatMap_cons, hb, List.singleton_append, List.map_cons]
      exact ⟨congrArg Nat.succ hlength, List.forall_mem_cons.2 ⟨hrange, hbytes⟩⟩
  obtain ⟨hlength, hbytes⟩ := hall fun c (hc : c ∈ (sha256Hex message).toList) => isHexDigit_of_mem hc
  simp only [Backup.isHex64, Backup.bytes, hlength, length_sha256Hex, decide_true, Bool.true_and, List.all_eq_true, Bool.or_eq_true,
    Bool.and_eq_true, decide_eq_true_eq]
  exact hbytes

/-! ## Paths -/

section Paths

variable {tree : FileTree} {wordCountFor : Units → List UInt8 → Int} {names : List Units}

theorem ascii_slash : Ascii slash := by
  show slash.toNat < 128
  decide

theorem ascii_backslash : Ascii backslash := by
  show backslash.toNat < 128
  decide

theorem decode_path : decode ([slash].intercalate names) = ['/'].intercalate (names.map decode) := decode_intercalate ascii_slash

theorem unslashed_decode {name : Units} (h : NameOk name) : '/' ∉ decode name := fun hmem =>
  h.unslashed ((mem_decode ascii_slash).1 hmem)

theorem splitOn_decode (hne : names ≠ []) (h : ∀ name ∈ names, NameOk name) :
    (decode ([slash].intercalate names)).splitOn '/' = names.map decode := by
  rw [decode_path]
  refine List.splitOn_intercalate '/' (fun seg hseg => ?_) (by simpa using hne)
  obtain ⟨name, hname, rfl⟩ := List.mem_map.1 hseg
  exact unslashed_decode (h name hname)

theorem backslash_intercalate (h : ∀ name ∈ names, NameOk name) : backslash ∉ [slash].intercalate names := by
  induction names with
  | nil => exact List.not_mem_nil
  | cons name rest ih =>
    obtain ⟨hname, hrest⟩ := List.forall_mem_cons.1 h
    rcases eq_or_ne rest [] with rfl | hne
    · rw [List.intercalate_singleton]
      exact hname.plain
    · rw [List.intercalate_cons_of_ne_nil hne, List.append_assoc, List.mem_append, List.mem_append, not_or, not_or]
      exact ⟨hname.plain, by decide, ih hrest⟩

/-- A name is decoded to one that may stand between slashes. -/
theorem segmentOk_decode {name : Units} (h : NameOk name) : Backup.SegmentOk (decode name) := by
  have hdot : ∀ u ∈ ascii "..", Ascii u := by
    rw [show ascii ".." = [0x2E, 0x2E] by decide]
    simp [Ascii]
  refine ⟨fun hempty => h.nonempty (decode_eq_nil.1 hempty), fun heq => h.here ?_, fun heq => h.above ?_⟩
  · refine (decode_eq_map (b := ascii ".") fun u hu => hdot u (List.mem_cons_of_mem _ hu)).1 (heq.trans ?_)
    decide
  · refine (decode_eq_map hdot).1 (heq.trans ?_)
    decide

/-- The daemon accepts the path of every entry. -/
theorem pathOk_decode (hne : names ≠ []) (h : ∀ name ∈ names, NameOk name) :
    Backup.PathOk (String.ofList (decode ([slash].intercalate names))) := by
  refine ⟨fun hmem => ?_, fun seg hseg => ?_⟩
  · rw [String.toList_ofList] at hmem
    exact backslash_intercalate h ((mem_decode ascii_backslash).1 hmem)
  · rw [Backup.segments, String.toList_ofList, splitOn_decode hne h] at hseg
    obtain ⟨name, hname, rfl⟩ := List.mem_map.1 hseg
    exact segmentOk_decode (h name hname)

/-- So does a replacement. -/
theorem relOk_intercalate (hne : names ≠ []) (h : ∀ name ∈ names, NameOk name) : RelOk ([slash].intercalate names) := by
  refine ⟨backslash_intercalate h, fun seg hseg hillegal => ?_⟩
  rw [List.splitOn_intercalate slash (fun name hname => (h name hname).unslashed) hne] at hseg
  rcases hillegal with hempty | hhere | habove
  · exact (h seg hseg).nonempty hempty
  · exact (h seg hseg).here hhere
  · exact (h seg hseg).above habove

theorem encode_eq_iff {a b : Units} : encode a = encode b ↔ decode a = decode b :=
  ⟨fun h => String.ofList_injective (Backup.bytes_injective h), fun h => congrArg (fun cs => Backup.bytes (String.ofList cs)) h⟩

/-- The record below the root with these names, and the directories above it. -/
theorem exists_record {front : List Units} {r : StoredFile} (hr : r ∈ tree.files) {back : List Units} (hfront : front ≠ [])
    (hpath : r.path = keyOf (front ++ back)) : ∃ d ∈ tree.files, d.path = keyOf front := by
  rcases eq_or_ne back [] with rfl | hne
  · exact ⟨r, hr, by rwa [List.append_nil] at hpath⟩
  · obtain ⟨d, hd, hkey, _⟩ := directory_above hfront hne hr hpath
    exact ⟨d, hd, hkey⟩

/-- Where siblings are told apart, all paths are. -/
theorem names_eq_of_decode (h : Encodable tree) : ∀ {back back' front : List Units} {r r' : StoredFile}, r ∈ tree.files → r' ∈ tree.files →
    (∀ n ∈ front, NameOk n) → (∀ n ∈ back, NameOk n) → (∀ n ∈ back', NameOk n) → r.path = keyOf (front ++ back) →
    r'.path = keyOf (front ++ back') → back.map decode = back'.map decode → back = back'
  | [], [], _, _, _, _, _, _, _, _, _, _, _ => rfl
  | [], _ :: _, _, _, _, _, _, _, _, _, _, _, heq => nomatch heq
  | _ :: _, [], _, _, _, _, _, _, _, _, _, _, heq => nomatch heq
  | n :: back, n' :: back', front, r, r', hr, hr', hfront, hback, hback', hpath, hpath', heq => by
    obtain ⟨hn, hmore⟩ := List.forall_mem_cons.1 hback
    obtain ⟨hn', hmore'⟩ := List.forall_mem_cons.1 hback'
    obtain ⟨hhead, htail⟩ := List.cons.inj heq
    have hsplit : ∀ {n : Units} {more : List Units}, front ++ n :: more = (front ++ [n]) ++ more := by
      intro n more
      rw [List.append_assoc, List.singleton_append]
    rw [hsplit] at hpath hpath'
    have hne : ∀ {n : Units}, front ++ [n] ≠ [] := List.append_ne_nil_of_right_ne_nil _ (List.cons_ne_nil _ _)
    obtain ⟨d, hd, hkey⟩ := exists_record hr hne hpath
    obtain ⟨d', hd', hkey'⟩ := exists_record hr' hne hpath'
    obtain rfl := h d hd d' hd' front n n' hfront hn hn' hkey hkey' (encode_eq_iff.2 hhead)
    have hok : ∀ m ∈ front ++ [n], NameOk m := fun m hm => by
      rcases List.mem_append.1 hm with hm | hm
      · exact hfront m hm
      · exact List.mem_singleton.1 hm ▸ hn
    have hrest : back = back' := names_eq_of_decode h hr hr' hok hmore hmore' hpath hpath' htail
    rw [hrest]

end Paths

/-! ## Acceptance -/

/-- What was built of a tree: its entries in the order of their encodings, and its contents. -/
structure BuiltOf (tree : FileTree) (wordCountFor : Units → List UInt8 → Int) (built : BuiltManifest) : Prop where
  entries : built.entries.Perm ((below tree.files storageRoot).map (StoredFile.manifestEntry wordCountFor))
  sorted : built.entries.Pairwise fun a b => encode a.path ≤ encode b.path
  contents : Contents (below tree.files storageRoot) built.blobs

theorem unslashed_concat {above : List Units} {name : Units} (h : ∀ n ∈ above, NameOk n) (hname : NameOk name) :
    ∀ n ∈ above ++ [name], slash ∉ n := fun n hn => by
  rcases List.mem_append.1 hn with hn | hn
  · exact (h n hn).unslashed
  · exact List.mem_singleton.1 hn ▸ hname.unslashed

section Accepted

variable {tree : FileTree} {wordCountFor : Units → List UInt8 → Int} {built : BuiltManifest} {r r' : StoredFile}

theorem path_manifestEntry : (r.manifestEntry wordCountFor).path = relativeToRoot r.path := by
  unfold StoredFile.manifestEntry
  split <;> rfl

theorem kind_manifestEntry : (r.manifestEntry wordCountFor).kind = kindOf r := by
  unfold StoredFile.manifestEntry kindOf
  split <;> rfl

theorem BuiltOf.mem_entries {e : ManifestEntry} (h : BuiltOf tree wordCountFor built) :
    e ∈ built.entries ↔ ∃ r ∈ below tree.files storageRoot, r.manifestEntry wordCountFor = e := by
  rw [h.entries.mem_iff, List.mem_map]

/-- The names of a record, and its path in the manifest. -/
theorem names_of_record (hr : r ∈ below tree.files storageRoot) : ∃ names, names ≠ [] ∧ (∀ name ∈ names, NameOk name) ∧
    r.path = keyOf names ∧ relativeToRoot r.path = [slash].intercalate names := by
  obtain ⟨names, hne, hnames, hpath⟩ := tree.named r hr
  exact ⟨names, hne, hnames, hpath, hpath ▸ relativeToRoot_keyOf hne⟩

theorem relative_injective (hr : r ∈ below tree.files storageRoot) (hr' : r' ∈ below tree.files storageRoot)
    (h : relativeToRoot r.path = relativeToRoot r'.path) : r = r' := by
  obtain ⟨names, hne, hnames, hpath, hrel⟩ := names_of_record hr
  obtain ⟨names', hne', hnames', hpath', hrel'⟩ := names_of_record hr'
  have hsplit := congrArg (List.splitOn slash) (hrel.symm.trans (h.trans hrel'))
  rw [List.splitOn_intercalate slash (fun name hname => (hnames name hname).unslashed) hne,
    List.splitOn_intercalate slash (fun name hname => (hnames' name hname).unslashed) hne'] at hsplit
  exact eq_of_path (mem_below.1 hr).1 (mem_below.1 hr').1 (by rw [hpath, hpath', hsplit])

theorem nodup_below : (below tree.files storageRoot).Nodup := (List.Nodup.of_map _ tree.keys).filter _

theorem BuiltOf.lists (h : BuiltOf tree wordCountFor built) : (built.entries.map fun e => (e.path, e.kind)).Perm
    ((below tree.files storageRoot).map fun r => (relativeToRoot r.path, kindOf r)) ∧ (built.entries.map (·.path)).Nodup := by
  refine ⟨(h.entries.map _).trans ?_, (h.entries.map _).nodup_iff.2 ?_⟩
  · rw [List.map_map]
    refine List.Perm.of_eq (List.map_congr_left fun r _ => ?_)
    rw [Function.comp_apply, path_manifestEntry, kind_manifestEntry]
  · rw [List.map_map]
    refine List.Nodup.map_on (fun r hr r' hr' heq => ?_) nodup_below
    rw [Function.comp_apply, Function.comp_apply, path_manifestEntry, path_manifestEntry] at heq
    exact relative_injective hr hr' heq

/-- The names of two records, told apart by their encodings. -/
theorem eq_of_encode (h : Encodable tree) (hr : r ∈ below tree.files storageRoot) (hr' : r' ∈ below tree.files storageRoot)
    (heq : encode (relativeToRoot r.path) = encode (relativeToRoot r'.path)) : r = r' := by
  obtain ⟨names, hne, hnames, hpath, hrel⟩ := names_of_record hr
  obtain ⟨names', hne', hnames', hpath', hrel'⟩ := names_of_record hr'
  rw [encode_eq_iff, hrel, hrel'] at heq
  have hsplit := congrArg (List.splitOn '/') heq
  rw [splitOn_decode hne hnames, splitOn_decode hne' hnames'] at hsplit
  have hsame : names = names' :=
    names_eq_of_decode h (mem_below.1 hr).1 (mem_below.1 hr').1 (fun _ hmem => absurd hmem List.not_mem_nil) hnames hnames' hpath hpath' hsplit
  exact eq_of_path (mem_below.1 hr).1 (mem_below.1 hr').1 (by rw [hpath, hpath', hsame])

theorem entryOk_wire : Backup.EntryOk (r.manifestEntry wordCountFor).wire := by
  unfold StoredFile.manifestEntry
  split
  · exact .inl ⟨rfl, rfl, rfl, rfl⟩
  · exact .inr ⟨rfl, isHex64_sha256Hex r.content⟩

/-- What lies below a file in a manifest lies below it in the tree, where nothing does. -/
theorem no_file_above (h : Encodable tree) (hr : r ∈ below tree.files storageRoot) (hr' : r' ∈ below tree.files storageRoot)
    (hfile : r'.isDirectory = false) : decode (relativeToRoot r'.path) ∉ Backup.ancestors (decode (relativeToRoot r.path)) := by
  intro habove
  obtain ⟨rest, heq⟩ := Backup.mem_ancestors.1 habove
  obtain ⟨names, hne, hnames, hpath, hrel⟩ := names_of_record hr
  obtain ⟨names', hne', hnames', hpath', hrel'⟩ := names_of_record hr'
  have hsplit := congrArg (List.splitOn '/') heq
  rw [hrel, hrel', List.splitOn_append_cons_self, splitOn_decode hne hnames, splitOn_decode hne' hnames'] at hsplit
  -- the names of `r` begin with as many as `r'` has, decoded to the same
  obtain ⟨front, back, rfl, hfront, hback⟩ := List.map_eq_append_iff.1 hsplit
  have hdeep : back ≠ [] := fun hempty => by
    rw [hempty, List.map_nil] at hback
    exact List.splitOn_ne_nil '/' rest hback.symm
  have hsame : front ≠ [] := fun hempty => by
    rw [hempty, List.map_nil, eq_comm, List.map_eq_nil_iff] at hfront
    exact hne' hfront
  obtain ⟨d, hd, hkey, hdir⟩ := directory_above hsame hdeep (mem_below.1 hr).1 hpath
  have heqnames : front = names' := names_eq_of_decode h hd (mem_below.1 hr').1 (fun _ hmem => absurd hmem List.not_mem_nil)
    (fun name hname => hnames name (List.mem_append_left _ hname)) hnames' hkey hpath' hfront
  rw [eq_of_path hd (mem_below.1 hr').1 (by rw [hkey, hpath', heqnames]), hfile] at hdir
  cases hdir

theorem BuiltOf.accepted_iff (h : BuiltOf tree wordCountFor built) :
    Backup.validateManifest (built.entries.map ManifestEntry.wire) = .ok () ↔ Encodable tree := by
  rw [Backup.validateManifest_ok]
  have hbytes : ∀ entries : List ManifestEntry, (entries.map ManifestEntry.wire).map (fun e => Backup.bytes e.path) =
      entries.map fun e => encode e.path := fun entries => by
    rw [List.map_map]
    rfl
  constructor
  · intro hvalid r hr r' hr' above name name' habove hname hname' hpath hpath' heq
    have hmem : ∀ {r : StoredFile} {name : Units}, r ∈ tree.files → r.path = keyOf (above ++ [name]) →
        r ∈ below tree.files storageRoot ∧ relativeToRoot r.path = [slash].intercalate (above ++ [name]) := by
      intro r name hr hpath
      have hne : above ++ [name] ≠ [] := List.append_ne_nil_of_right_ne_nil _ (List.cons_ne_nil _ _)
      rw [hpath, relativeToRoot_keyOf hne]
      refine ⟨?_, rfl⟩
      rw [← keyOf_nil]
      exact mem_below_of_names hr hne (hpath.trans (by rw [List.nil_append]))
    obtain ⟨hbelow, hrel⟩ := hmem hr hpath
    obtain ⟨hbelow', hrel'⟩ := hmem hr' hpath'
    have hencoded : encode (relativeToRoot r.path) = encode (relativeToRoot r'.path) := by
      rw [encode_eq_iff] at heq ⊢
      rw [hrel, hrel', decode_path, decode_path, List.map_append, List.map_append, List.map_singleton, List.map_singleton, heq]
    have hnodup : (built.entries.map fun e => encode e.path).Nodup := by
      rw [← hbytes]
      exact hvalid.sorted.imp fun hlt => ne_of_lt hlt
    have hsame : r.manifestEntry wordCountFor = r'.manifestEntry wordCountFor := by
      refine List.inj_on_of_nodup_map hnodup (h.mem_entries.2 ⟨r, hbelow, rfl⟩) (h.mem_entries.2 ⟨r', hbelow', rfl⟩) ?_
      rw [path_manifestEntry, path_manifestEntry, hencoded]
    have hrecord : relativeToRoot r.path = relativeToRoot r'.path := by
      rw [← path_manifestEntry, ← path_manifestEntry, hsame]
    rw [relative_injective hbelow hbelow' hrecord] at hpath
    have hnames := keyOf_injective (unslashed_concat habove hname) (unslashed_concat habove hname') (hpath.symm.trans hpath')
    exact List.singleton_inj.1 (List.append_cancel_left hnames)
  · intro hencodable
    refine ⟨?_, fun _ hwire => ?_, fun _ hwire => ?_, fun _ hwire _ hwire' hfile => ?_⟩
    · have hnodup : built.entries.Pairwise fun a b => encode a.path ≠ encode b.path := by
        have hsources : (below tree.files storageRoot).Pairwise fun r r' => encode (relativeToRoot r.path) ≠ encode (relativeToRoot r'.path) :=
          nodup_below.imp_of_mem fun hr hr' hne heq => hne (eq_of_encode hencodable hr hr' heq)
        refine (h.entries.pairwise_iff fun hne => hne.symm).2 (List.pairwise_map.2 (hsources.imp fun hne => ?_))
        rwa [path_manifestEntry, path_manifestEntry]
      rw [hbytes, List.pairwise_map]
      exact h.sorted.imp₂ (fun _ _ => lt_of_le_of_ne) hnodup
    · obtain ⟨e, he, rfl⟩ := List.mem_map.1 hwire
      obtain ⟨r, hr, rfl⟩ := h.mem_entries.1 he
      obtain ⟨names, hne, hnames, _, hrel⟩ := names_of_record hr
      show Backup.PathOk (String.ofList (decode (r.manifestEntry wordCountFor).path))
      rw [path_manifestEntry, hrel]
      exact pathOk_decode hne hnames
    · obtain ⟨e, he, rfl⟩ := List.mem_map.1 hwire
      obtain ⟨r, hr, rfl⟩ := h.mem_entries.1 he
      exact entryOk_wire
    · obtain ⟨e, he, rfl⟩ := List.mem_map.1 hwire
      obtain ⟨f, hf, rfl⟩ := List.mem_map.1 hwire'
      obtain ⟨r, hr, rfl⟩ := h.mem_entries.1 he
      obtain ⟨r', hr', rfl⟩ := h.mem_entries.1 hf
      have hnodir : r'.isDirectory = false := by
        have hkind : kindOf r' = "file" := kind_manifestEntry.symm.trans hfile
        unfold kindOf at hkind
        split at hkind
        · exact absurd hkind (by decide)
        · rename_i hdir
          exact Bool.eq_false_iff.2 hdir
      show (String.ofList (decode (r'.manifestEntry wordCountFor).path)).toList ∉
        Backup.ancestors (String.ofList (decode (r.manifestEntry wordCountFor).path)).toList
      rw [String.toList_ofList, String.toList_ofList, path_manifestEntry, path_manifestEntry]
      exact no_file_above hencodable hr hr' hnodir

end Accepted

/-! ## Rebuilding -/

section Rebuilt

variable {tree : FileTree} {wordCountFor : Units → List UInt8 → Int} {built : BuiltManifest} {r : StoredFile} {now : Int}

theorem exists_lookup {k : String} : ∀ {blobs : List (String × List UInt8)}, k ∈ blobs.map (·.1) →
    ∃ bytes, blobs.lookup k = some bytes ∧ (k, bytes) ∈ blobs
  | [], hmem => absurd hmem List.not_mem_nil
  | (key, bytes) :: rest, hmem => by
    rw [List.lookup_cons]
    by_cases heq : k = key
    · subst heq
      rw [beq_self_eq_true]
      exact ⟨bytes, rfl, List.mem_cons_self⟩
    · rw [beq_eq_false_iff_ne.2 heq]
      obtain ⟨found, hlookup, hfound⟩ := exists_lookup ((List.mem_cons.1 hmem).resolve_left heq)
      exact ⟨found, hlookup, List.mem_cons_of_mem _ hfound⟩

/-- The content that is kept under the hash of a file. -/
def contentFor (built : BuiltManifest) (r : StoredFile) : List UInt8 := (built.blobs.lookup (sha256Hex r.content)).getD []

theorem BuiltOf.lookup_eq (h : BuiltOf tree wordCountFor built) (hr : r ∈ below tree.files storageRoot) (hfile : r.isDirectory = false) :
    ∃ r' ∈ below tree.files storageRoot, r'.isDirectory = false ∧ sha256Hex r'.content = sha256Hex r.content ∧
      built.blobs.lookup (sha256Hex r.content) = some r'.content := by
  obtain ⟨bytes, hlookup, hmem⟩ := exists_lookup (h.contents.complete r hr hfile)
  obtain ⟨r', hr', hfile', heq⟩ := h.contents.sound _ hmem
  obtain ⟨hhash, rfl⟩ := Prod.mk.inj heq
  exact ⟨r', hr', hfile', hhash.symm, hlookup⟩

/-- Every content is found under its hash just where no other has the same. -/
theorem BuiltOf.contentFor_iff (h : BuiltOf tree wordCountFor built) :
    (∀ r ∈ below tree.files storageRoot, r.isDirectory = false → contentFor built r = r.content) ↔ Distinguished tree := by
  constructor
  · intro hall r hr r' hr' hfile hfile' hhash
    rw [← hall r hr hfile, ← hall r' hr' hfile', contentFor, contentFor, hhash]
  · intro hdistinguished r hr hfile
    obtain ⟨r', hr', hfile', hhash, hlookup⟩ := h.lookup_eq hr hfile
    rw [contentFor, hlookup]
    exact hdistinguished r' hr' r hr hfile' hfile hhash

theorem verify_ok {blobs : List (String × List UInt8)} : ∀ {entries : List ManifestEntry}, verify blobs entries = .ok () ↔
    ∀ e ∈ entries, e.kind = "file" → ∃ bytes, blobs.lookup e.hash = some bytes ∧ sha256Hex bytes = e.hash ∧ bytes.length = e.size
  | [] => by simp [verify]
  | e :: rest => by
    rw [verify, List.forall_mem_cons]
    split
    · rename_i hkind
      rw [verify_ok]
      exact ⟨fun h => ⟨fun hfile => absurd hfile hkind, h⟩, And.right⟩
    rename_i hkind
    have hfile : e.kind = "file" := not_not.1 hkind
    cases hlookup : blobs.lookup e.hash with
    | none => exact ⟨nofun, fun h => have ⟨_, hcontra, _⟩ := h.1 hfile; nomatch hcontra⟩
    | some bytes =>
      dsimp only
      split
      · rename_i hhash
        refine ⟨nofun, fun h => ?_⟩
        obtain ⟨_, hfound, hok, _⟩ := h.1 hfile
        obtain rfl := Option.some.inj hfound
        exact absurd hok hhash
      split
      · rename_i hsize
        refine ⟨nofun, fun h => ?_⟩
        obtain ⟨_, hfound, _, hok⟩ := h.1 hfile
        obtain rfl := Option.some.inj hfound
        exact absurd hok hsize
      · rename_i hhash hsize
        rw [verify_ok]
        exact ⟨fun h => ⟨fun _ => ⟨bytes, rfl, not_not.1 hhash, not_not.1 hsize⟩, h⟩, And.right⟩

theorem relPath_replaceEntries {blobs : List (String × List UInt8)} {entries : List ManifestEntry} :
    (replaceEntries blobs entries).map (·.relPath) = entries.map (·.path) := by
  rw [replaceEntries, List.map_map]
  refine List.map_congr_left fun e _ => ?_
  rw [Function.comp_apply]
  split <;> rfl

/-- What is handed to the replacement for a record. -/
def StoredFile.replaceEntry (built : BuiltManifest) (r : StoredFile) : ReplaceEntry :=
  ⟨relativeToRoot r.path, r.isDirectory, if r.isDirectory then none else built.blobs.lookup (sha256Hex r.content)⟩

theorem replaceEntry_eq : (if (r.manifestEntry wordCountFor).kind = "dir" then (⟨(r.manifestEntry wordCountFor).path, true, none⟩ : ReplaceEntry)
    else ⟨(r.manifestEntry wordCountFor).path, false, built.blobs.lookup (r.manifestEntry wordCountFor).hash⟩) = r.replaceEntry built := by
  unfold StoredFile.manifestEntry StoredFile.replaceEntry
  cases r.isDirectory <;> rfl

theorem BuiltOf.mem_replaceEntries {e : ReplaceEntry} (h : BuiltOf tree wordCountFor built) :
    e ∈ replaceEntries built.blobs built.entries ↔ ∃ r ∈ below tree.files storageRoot, e = r.replaceEntry built := by
  rw [replaceEntries, List.mem_map]
  constructor
  · rintro ⟨_, he, rfl⟩
    obtain ⟨r, hr, rfl⟩ := h.mem_entries.1 he
    exact ⟨r, hr, replaceEntry_eq⟩
  · rintro ⟨r, hr, rfl⟩
    exact ⟨_, h.mem_entries.2 ⟨r, hr, rfl⟩, replaceEntry_eq⟩

theorem mem_pathsAbove {rel ancestor : Units} (h : ancestor ∈ pathsAbove rel) : ∃ front back, rel.splitOn slash = front ++ back ∧
    front ≠ [] ∧ back ≠ [] ∧ ancestor = [slash].intercalate front := by
  obtain ⟨i, hi, rfl⟩ := List.mem_map.1 h
  obtain ⟨hlow, hhigh⟩ := List.mem_range'_1.1 hi
  refine ⟨(rel.splitOn slash).take i, (rel.splitOn slash).drop i, (List.take_append_drop _ _).symm, ?_, ?_, rfl⟩
  · rw [Ne, List.take_eq_nil_iff]
    rintro (hzero | hempty)
    · omega
    · exact List.splitOn_ne_nil slash rel hempty
  · rw [Ne, List.drop_eq_nil_iff]
    omega

/-- The entries of a tree are a tree. -/
theorem BuiltOf.replaceable (h : BuiltOf tree wordCountFor built) : Replaceable (replaceEntries built.blobs built.entries) := by
  refine ⟨fun e he => ?_, relPath_replaceEntries ▸ h.lists.2, fun e he f hf habove => ?_⟩
  · obtain ⟨r, hr, rfl⟩ := h.mem_replaceEntries.1 he
    obtain ⟨names, hne, hnames, _, hrel⟩ := names_of_record hr
    show RelOk (relativeToRoot r.path)
    rw [hrel]
    exact relOk_intercalate hne hnames
  · obtain ⟨r, hr, rfl⟩ := h.mem_replaceEntries.1 he
    obtain ⟨r', hr', rfl⟩ := h.mem_replaceEntries.1 hf
    obtain ⟨names, hne, hnames, hpath, hrel⟩ := names_of_record hr
    obtain ⟨names', hne', hnames', hpath', hrel'⟩ := names_of_record hr'
    obtain ⟨front, back, hsplit, hfront, hback, heq⟩ := mem_pathsAbove habove
    change (relativeToRoot r.path).splitOn slash = front ++ back at hsplit
    rw [hrel, List.splitOn_intercalate slash (fun name hname => (hnames name hname).unslashed) hne] at hsplit
    subst hsplit
    obtain ⟨d, hd, hkey, hdir⟩ := directory_above hfront hback (mem_below.1 hr).1 hpath
    have hsame : relativeToRoot d.path = relativeToRoot r'.path := by
      rw [hkey, relativeToRoot_keyOf hfront]
      exact heq.symm
    have hdbelow : d ∈ below tree.files storageRoot := by
      rw [← keyOf_nil]
      exact mem_below_of_names hd hfront (hkey.trans (by rw [List.nil_append]))
    exact relative_injective hdbelow hr' hsame ▸ hdir

theorem record_replaceEntry (hr : r ∈ below tree.files storageRoot) : (r.replaceEntry built).planned.record now storageRoot =
    ⟨r.path, if r.isDirectory then [] else contentFor built r, r.isDirectory, now⟩ := by
  obtain ⟨names, hne, hnames, hpath, hrel⟩ := names_of_record hr
  have hjoin : join [storageRoot, relativeToRoot r.path] = r.path := by
    have hok := relOk_intercalate hne hnames
    rw [hrel, hok.joined, List.splitOn_intercalate slash (fun name hname => (hnames name hname).unslashed) hne, hpath]
  simp only [Planned.record, ReplaceEntry.planned, StoredFile.replaceEntry, hjoin]
  refine congrArg (fun content => (⟨r.path, content, r.isDirectory, now⟩ : StoredFile)) ?_
  split
  · rfl
  · rfl

/-- A replacement gives back the tree just where each file finds its content. -/
theorem BuiltOf.sameTree_iff {files : List StoredFile} (h : BuiltOf tree wordCountFor built) :
    SameTree tree.files (replaced now (replaceEntries built.blobs built.entries) files) ↔
      ∀ r ∈ below tree.files storageRoot, r.isDirectory = false → contentFor built r = r.content := by
  have hslash : withSlash storageRoot = storageRoot ++ [slash] := by decide
  have hfrom : ∀ {x : StoredFile}, storageRoot ++ [slash] <+: x.path → x ∈ replaced now (replaceEntries built.blobs built.entries) files →
      ∃ r ∈ below tree.files storageRoot, x = ⟨r.path, if r.isDirectory then [] else contentFor built r, r.isDirectory, now⟩ := by
    intro x hx hmem
    rcases mem_replaced.1 hmem with ⟨_, hnot⟩ | ⟨e, he, rfl⟩
    · exact absurd hx (hslash ▸ hnot)
    · obtain ⟨r, hr, rfl⟩ := h.mem_replaceEntries.1 he
      exact ⟨r, hr, record_replaceEntry hr⟩
  have hto : ∀ {r : StoredFile}, r ∈ below tree.files storageRoot →
      (⟨r.path, if r.isDirectory then [] else contentFor built r, r.isDirectory, now⟩ : StoredFile) ∈
        replaced now (replaceEntries built.blobs built.entries) files := fun hr =>
    mem_replaced.2 (.inr ⟨_, h.mem_replaceEntries.2 ⟨_, hr, rfl⟩, (record_replaceEntry hr).symm⟩)
  constructor
  · intro hsame r hr hfile
    obtain ⟨hmem, hunder⟩ := mem_below.1 hr
    obtain ⟨x, hx, hxpath, _, hxcontent⟩ := (hsame r.path r.isDirectory r.content hunder).1 ⟨r, hmem, rfl, rfl, rfl⟩
    obtain ⟨r', hr', rfl⟩ := hfrom (hxpath ▸ hunder) hx
    obtain rfl := eq_of_path (mem_below.1 hr').1 hmem hxpath
    rw [← hxcontent, hfile]
    rfl
  · intro hall path isDir content hunder
    constructor
    · rintro ⟨r, hr, rfl, rfl, rfl⟩
      refine ⟨_, hto (mem_below.2 ⟨hr, hunder⟩), rfl, rfl, ?_⟩
      cases hdir : r.isDirectory with
      | true => exact (tree.empty r hr hdir).symm
      | false => exact hall r (mem_below.2 ⟨hr, hunder⟩) hdir
    · rintro ⟨x, hx, rfl, rfl, rfl⟩
      obtain ⟨r, hr, rfl⟩ := hfrom hunder hx
      refine ⟨r, (mem_below.1 hr).1, rfl, rfl, ?_⟩
      cases hdir : r.isDirectory with
      | true => exact tree.empty r (mem_below.1 hr).1 hdir
      | false => exact (hall r hr hdir).symm

end Rebuilt

/-! ## Faithful manifests -/

section Faithful

variable {tree : FileTree} {wordCountFor : Units → List UInt8 → Int} {built : BuiltManifest}

theorem BuiltOf.contents_of_distinguished (h : BuiltOf tree wordCountFor built) (hdistinguished : Distinguished tree) :
    ∀ e ∈ built.entries, e.kind = "file" → ∃ bytes, built.blobs.lookup e.hash = some bytes ∧ sha256Hex bytes = e.hash ∧
      bytes.length = e.size := by
  intro e he hfile
  obtain ⟨r, hr, rfl⟩ := h.mem_entries.1 he
  cases hdir : r.isDirectory with
  | true =>
    rw [kind_manifestEntry, kindOf, hdir] at hfile
    exact absurd hfile (by decide)
  | false =>
    obtain ⟨r', hr', hfile', hhash, hlookup⟩ := h.lookup_eq hr hdir
    have hentry : r.manifestEntry wordCountFor =
        ⟨relativeToRoot r.path, "file", sha256Hex r.content, r.content.length, wordCountFor r.path r.content⟩ := by
      rw [StoredFile.manifestEntry, hdir]
      rfl
    rw [hentry]
    refine ⟨r'.content, hlookup, hhash, ?_⟩
    rw [hdistinguished r' hr' r hr hfile' hdir hhash]

theorem rebuild_ok {now : Int} {db db' : Database} (h : BuiltOf tree wordCountFor built) :
    rebuild now built db = .ok db' ↔ verify built.blobs built.entries = .ok () ∧
      db' = ⟨replaced now (replaceEntries built.blobs built.entries) db.files, db.revision + 1⟩ := by
  have hreplaced : replaceTree now storageRoot (replaceEntries built.blobs built.entries) none db =
      .ok ⟨replaced now (replaceEntries built.blobs built.entries) db.files, db.revision + 1⟩ :=
    replaceTree_ok.2 ⟨h.replaceable, by simp, rfl⟩
  rw [rebuild, except_seq_ok, hreplaced]
  exact and_congr_right fun _ => ⟨fun heq => (Except.ok.inj heq).symm, fun heq => heq ▸ rfl⟩

theorem BuiltOf.faithful_iff (h : BuiltOf tree wordCountFor built) : Faithful tree built ↔ Encodable tree ∧ Distinguished tree := by
  constructor
  · intro hfaithful
    refine ⟨h.accepted_iff.1 hfaithful.accepted, h.contentFor_iff.1 ?_⟩
    obtain ⟨db', hrebuilt, hsame⟩ := hfaithful.rebuilt 0 ⟨[], 0⟩
    obtain ⟨_, rfl⟩ := (rebuild_ok h).1 hrebuilt
    exact h.sameTree_iff.1 hsame
  · rintro ⟨hencodable, hdistinguished⟩
    have hcontents := h.contents_of_distinguished hdistinguished
    refine ⟨h.lists, h.accepted_iff.2 hencodable, hcontents, fun now db => ⟨_, (rebuild_ok h).2 ⟨verify_ok.2 hcontents, rfl⟩, ?_⟩⟩
    exact h.sameTree_iff.2 (h.contentFor_iff.2 hdistinguished)

/-- A file at the root, whose name is half of a pair. -/
def half (u : UInt16) (content : List UInt8) : StoredFile := ⟨keyOf [[u]], content, false, 0⟩

theorem nameOk_half {u : UInt16} (h : 0xD800 ≤ u.toNat) : NameOk [u] := by
  have hne : ∀ {v : UInt16}, v.toNat < 0xD800 → v ∉ [u] := fun hv hmem => by
    obtain rfl := List.mem_singleton.1 hmem
    omega
  refine ⟨List.cons_ne_nil _ _, hne (by decide), hne (by decide), hne (by decide), fun heq => ?_, fun heq => ?_⟩
  · exact hne (show (0x2E : UInt16).toNat < 0xD800 by decide) (heq ▸ by decide)
  · exact hne (show (0x2E : UInt16).toNat < 0xD800 by decide) (heq ▸ by decide)

/-- Two files with unpaired surrogates for names. -/
def surrogates : FileTree where
  files := [half 0xD800 [], half 0xD801 [1]]
  keys := by decide
  named r hr := by
    rcases List.mem_cons.1 (mem_below.1 hr).1 with rfl | hr
    · exact ⟨[[0xD800]], by decide, fun name hname => List.mem_singleton.1 hname ▸ nameOk_half (by decide), rfl⟩
    · obtain rfl := List.mem_singleton.1 hr
      exact ⟨[[0xD801]], by decide, fun name hname => List.mem_singleton.1 hname ▸ nameOk_half (by decide), rfl⟩
  nested r hr above name hne hpath := by
    -- there is no slash in either name
    exfalso
    have hunslashed : ∀ r ∈ [half 0xD800 [], half 0xD801 [1]], slash ∉ relativeToRoot r.path := by decide
    refine hunslashed r hr ?_
    rw [hpath, relativeToRoot_keyOf (List.append_ne_nil_of_left_ne_nil hne _), intercalate_append hne (List.cons_ne_nil _ _)]
    exact List.mem_append_right _ List.mem_cons_self
  empty := by decide

end Faithful

end Purdex.InApp
