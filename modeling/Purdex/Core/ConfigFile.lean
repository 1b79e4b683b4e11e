/-
The daemon's settings, what a request may change of them, and the file they are kept in, which is written beside its
place and then moved there.
-/
import Mathlib.Data.List.Basic

namespace Purdex.Core

/-! ## Settings -/

structure Preset where
  name : String
  command : String
  deriving Repr, DecidableEq

/-- The token, and the settings that a request can change. -/
structure Config where
  token : String
  presets : List Preset
  ccCommands : List String
  pollInterval : Int
  sizingMode : String
  uploadDir : String
  deriving Repr, DecidableEq

/-- `configUpdateRequest`: what is not given stays. -/
structure ConfigUpdate where
  stream : Option (List Preset)
  ccCommands : Option (List String)
  pollInterval : Option Int
  sizingMode : Option String
  uploadDir : Option String
  deriving Repr, DecidableEq

inductive ConfigField where
  | stream
  | ccCommands
  | pollInterval
  | sizingMode
  | uploadDir
  deriving Repr, DecidableEq

/-- A poll interval that is not positive and a sizing mode that is empty count as not given. -/
def ConfigUpdate.apply (upd : ConfigUpdate) (cfg : Config) : Config where
  token := cfg.token
  presets := upd.stream.getD cfg.presets
  ccCommands := upd.ccCommands.getD cfg.ccCommands
  pollInterval := match upd.pollInterval with
    | some n => if 0 < n then n else cfg.pollInterval
    | none => cfg.pollInterval
  sizingMode := match upd.sizingMode with
    | some mode => if mode ≠ "" then mode else cfg.sizingMode
    | none => cfg.sizingMode
  uploadDir := upd.uploadDir.getD cfg.uploadDir

/-- The checks before anything changes. -/
def ConfigUpdate.invalid (upd : ConfigUpdate) : Option String :=
  if upd.sizingMode.any fun mode => mode ≠ "" ∧ mode ∉ ["auto", "terminal-first", "minimal-first"] then
    some "invalid sizing_mode: must be auto, terminal-first, or minimal-first"
  else if upd.uploadDir.any fun dir => dir = "" ∨ dir.toList.head? ≠ some '/' then
    some "upload_dir must be a non-empty absolute path"
  else none

/-- Two settings with the same value in a field. -/
def ConfigField.Same (c c' : Config) : ConfigField → Prop
  | .stream => c.presets = c'.presets
  | .ccCommands => c.ccCommands = c'.ccCommands
  | .pollInterval => c.pollInterval = c'.pollInterval
  | .sizingMode => c.sizingMode = c'.sizingMode
  | .uploadDir => c.uploadDir = c'.uploadDir

def ConfigUpdate.Gives (upd : ConfigUpdate) : ConfigField → Prop
  | .stream => upd.stream.isSome
  | .ccCommands => upd.ccCommands.isSome
  | .pollInterval => ∃ n, upd.pollInterval = some n ∧ 0 < n
  | .sizingMode => ∃ mode, upd.sizingMode = some mode ∧ mode ≠ ""
  | .uploadDir => upd.uploadDir.isSome

variable {c c' c'' : Config} {upd : ConfigUpdate} {F : ConfigField}

theorem Same.trans (h : F.Same c c') (h' : F.Same c' c'') : F.Same c c'' := by
  cases F <;> exact Eq.trans h h'

@[simp] theorem apply_token : (upd.apply c).token = c.token := rfl

/-- A field that is not given stays. -/
theorem same_apply_of_not_gives (h : ¬ upd.Gives F) : F.Same (upd.apply c) c := by
  cases F with
  | stream | ccCommands | uploadDir =>
    simp only [ConfigUpdate.Gives, Option.not_isSome_iff_eq_none] at h
    simp only [ConfigField.Same, ConfigUpdate.apply, h, Option.getD_none]
  | pollInterval =>
    simp only [ConfigField.Same, ConfigUpdate.apply]
    split
    · rename_i n hn
      exact if_neg fun hpos => h ⟨n, hn, hpos⟩
    · rfl
  | sizingMode =>
    simp only [ConfigField.Same, ConfigUpdate.apply]
    split
    · rename_i mode hmode
      exact if_neg fun hne => h ⟨mode, hmode, hne⟩
    · rfl

/-- A field that is given does not depend on what was there. -/
theorem same_apply_of_gives (h : upd.Gives F) : F.Same (upd.apply c) (upd.apply c') := by
  cases F with
  | stream | ccCommands | uploadDir =>
    obtain ⟨v, hv⟩ := Option.isSome_iff_exists.1 h
    simp only [ConfigField.Same, ConfigUpdate.apply, hv, Option.getD_some]
  | pollInterval =>
    obtain ⟨n, hn, hpos⟩ := h
    simp only [ConfigField.Same, ConfigUpdate.apply, hn, if_pos hpos]
  | sizingMode =>
    obtain ⟨mode, hmode, hne⟩ := h
    simp only [ConfigField.Same, ConfigUpdate.apply, hmode, if_pos hne]

/-! ## The directory -/

/-- The config file and the file `.tmp` beside it, by the inodes they name, and the bytes of each inode. -/
structure ConfigDir where
  path : Option Nat
  tmp : Option Nat
  inodes : List (List UInt8)
  deriving Repr, DecidableEq

namespace ConfigDir

def file (d : ConfigDir) : Option (List UInt8) := d.path.bind (d.inodes[·]?)

/-- `O_CREATE|O_TRUNC`, and the inode that was opened. -/
def openTmp (d : ConfigDir) : Nat × ConfigDir :=
  match d.tmp with
  | some i => (i, { d with inodes := d.inodes.set i [] })
  | none => (d.inodes.length, { d with tmp := some d.inodes.length, inodes := d.inodes ++ [[]] })

/-- Written from the start of the file, over what is there. -/
def write (fd : Nat) (bytes : List UInt8) (d : ConfigDir) : ConfigDir :=
  { d with inodes := d.inodes.modify fd fun old => bytes ++ old.drop bytes.length }

def removeTmp (d : ConfigDir) : ConfigDir := { d with tmp := none }

/-- Fails where there is no `.tmp`. -/
def rename (d : ConfigDir) : Option ConfigDir := d.tmp.map fun i => { d with path := some i, tmp := none }

/-- Two names, two inodes, and both are there. -/
structure Ok (d : ConfigDir) : Prop where
  path_lt : ∀ i, d.path = some i → i < d.inodes.length
  tmp_lt : ∀ i, d.tmp = some i → i < d.inodes.length
  ne : ∀ i, d.path = some i → d.tmp ≠ some i

end ConfigDir

/-! ## Writing the file -/

/-- How far a `WriteFile` is. -/
inductive WriteAt where
  | start
  | opened (fd : Nat)
  | written (fd : Nat) (whole : Bool)
  | closed
  deriving Repr, DecidableEq

inductive Wrote where
  | going (at' : WriteAt)
  | done
  | failed
  deriving Repr, DecidableEq

/-- One system call of `WriteFile`. Where it fails, `n` is how much of the text was written; what is not whole is removed. -/
def writeFile (text : List UInt8) (ok : Bool) (n : Nat) : WriteAt → ConfigDir → Wrote × ConfigDir
  | .start, d => if ok then (.going (.opened d.openTmp.1), d.openTmp.2) else (.failed, d)
  | .opened fd, d => if ok then (.going (.written fd true), d.write fd text) else (.going (.written fd false), d.write fd (text.take n))
  | .written _ whole, d => if whole && ok then (.going .closed, d) else (.failed, d.removeTmp)
  | .closed, d =>
    match if ok then d.rename else none with
    | some d' => (.done, d')
    | none => (.failed, d)

/-- What is known where a `WriteFile` is that no other runs beside. -/
def WriteAt.Sole (text : List UInt8) (d : ConfigDir) : WriteAt → Prop
  | .start => True
  | .opened fd => d.tmp = some fd ∧ d.inodes[fd]? = some []
  | .written fd whole => d.tmp = some fd ∧ (whole = true → d.inodes[fd]? = some text)
  | .closed => ∃ fd, d.tmp = some fd ∧ d.inodes[fd]? = some text

variable {text : List UInt8} {ok : Bool} {n : Nat} {at' at'' : WriteAt} {d d' : ConfigDir}

theorem file_eq_of_ne {i : Nat} (hpath : d'.path = d.path) (hne : d.path ≠ some i) (hothers : ∀ j, j ≠ i → j < d.inodes.length → d'.inodes[j]? = d.inodes[j]?)
    (hd : d.Ok) : d'.file = d.file := by
  unfold ConfigDir.file
  rw [hpath]
  cases hp : d.path with
  | none => rfl
  | some j => exact hothers j (fun hji => hne (hji ▸ hp)) (hd.path_lt j hp)

/-- The file that was opened is empty and under no other name. -/
theorem openTmp_spec (hd : d.Ok) : d.openTmp.2.Ok ∧ d.openTmp.2.tmp = some d.openTmp.1 ∧ d.openTmp.2.inodes[d.openTmp.1]? = some [] ∧
    d.openTmp.2.file = d.file := by
  unfold ConfigDir.openTmp
  cases htmp : d.tmp with
  | some i =>
    have hi : i < d.inodes.length := hd.tmp_lt i htmp
    have hne : d.path ≠ some i := fun hp => hd.ne i hp htmp
    refine ⟨⟨fun j hj => by simpa using hd.path_lt j hj, fun j hj => by simpa using hd.tmp_lt j (htmp.trans hj), fun j hj hj' => hd.ne j hj (htmp.trans hj')⟩,
      rfl, by simp [hi], ?_⟩
    exact file_eq_of_ne rfl hne (fun j hji _ => by simp [List.getElem?_set_ne (Ne.symm hji)]) hd
  | none =>
    have hne : d.path ≠ some d.inodes.length := fun hp => absurd (hd.path_lt _ hp) (by omega)
    refine ⟨⟨fun j hj => ?_, fun j hj => ?_, fun j hj => ?_⟩, rfl, by simp, ?_⟩
    · have := hd.path_lt j hj
      simp only [List.length_append, List.length_singleton]
      omega
    · obtain rfl := Option.some.inj hj
      simp
    · rintro ⟨⟩
      exact hne hj
    · exact file_eq_of_ne rfl hne (fun j _ hlt => List.getElem?_append_left hlt) hd

theorem write_spec {fd : Nat} {b : List UInt8} (hd : d.Ok) (htmp : d.tmp = some fd) : (d.write fd b).Ok ∧ (d.write fd b).file = d.file := by
  have hne : d.path ≠ some fd := fun hp => hd.ne fd hp htmp
  refine ⟨⟨fun j hj => ?_, fun j hj => ?_, hd.ne⟩, ?_⟩
  · simpa [ConfigDir.write] using hd.path_lt j hj
  · simpa [ConfigDir.write] using hd.tmp_lt j hj
  · exact file_eq_of_ne rfl hne (fun j hji _ => by simp [ConfigDir.write, Ne.symm hji]) hd

theorem removeTmp_ok (hd : d.Ok) : d.removeTmp.Ok := ⟨hd.path_lt, nofun, fun _ _ => nofun⟩

/-- A first step that does not fail. -/
theorem begins_of_writeFile {w : Wrote} (h : writeFile text ok n at' d = (w, d')) (hw : w ≠ .failed) : at' = .start → ok = true := by
  rintro rfl
  cases ok with
  | true => rfl
  | false => exact absurd (Prod.mk.inj h).1.symm hw

/-- A step of it leaves the file alone, or it is the last and the file has the text. -/
theorem writeFile_sole {w : Wrote} (hd : d.Ok) (hat : at'.Sole text d) (h : writeFile text ok n at' d = (w, d')) :
    d'.Ok ∧ ((∃ next, w = .going next ∧ next.Sole text d' ∧ next ≠ .start ∧ d'.file = d.file) ∨
      w = .failed ∧ d'.file = d.file ∨ w = .done ∧ d'.file = some text) := by
  cases at' with
  | start =>
    cases ok with
    | false =>
      obtain ⟨rfl, rfl⟩ := Prod.mk.inj h
      exact ⟨hd, .inr (.inl ⟨rfl, rfl⟩)⟩
    | true =>
      obtain ⟨rfl, rfl⟩ := Prod.mk.inj h
      obtain ⟨hok, htmp, hempty, hfile⟩ := openTmp_spec hd
      exact ⟨hok, .inl ⟨_, rfl, ⟨htmp, hempty⟩, nofun, hfile⟩⟩
  | opened fd =>
    cases ok with
    | false =>
      obtain ⟨rfl, rfl⟩ := Prod.mk.inj h
      obtain ⟨hok, hfile⟩ := write_spec (b := text.take n) hd hat.1
      exact ⟨hok, .inl ⟨_, rfl, ⟨hat.1, nofun⟩, nofun, hfile⟩⟩
    | true =>
      obtain ⟨rfl, rfl⟩ := Prod.mk.inj h
      obtain ⟨hok, hfile⟩ := write_spec (b := text) hd hat.1
      refine ⟨hok, .inl ⟨_, rfl, ⟨hat.1, fun _ => ?_⟩, nofun, hfile⟩⟩
      simp [ConfigDir.write, hat.2]
  | written fd whole =>
    cases hboth : whole && ok with
    | false =>
      simp only [writeFile, hboth] at h
      obtain ⟨rfl, rfl⟩ := Prod.mk.inj h
      exact ⟨removeTmp_ok hd, .inr (.inl ⟨rfl, rfl⟩)⟩
    | true =>
      simp only [writeFile, hboth] at h
      obtain ⟨rfl, rfl⟩ := Prod.mk.inj h
      exact ⟨hd, .inl ⟨_, rfl, ⟨fd, hat.1, hat.2 (Bool.and_eq_true_iff.1 hboth).1⟩, nofun, rfl⟩⟩
  | closed =>
    obtain ⟨fd, htmp, htext⟩ := hat
    cases ok with
    | false =>
      obtain ⟨rfl, rfl⟩ := Prod.mk.inj h
      exact ⟨hd, .inr (.inl ⟨rfl, rfl⟩)⟩
    | true =>
      simp only [writeFile, ConfigDir.rename, htmp] at h
      obtain ⟨rfl, rfl⟩ := Prod.mk.inj h
      refine ⟨⟨fun j hj => ?_, nofun, fun _ _ => nofun⟩, .inr (.inr ⟨rfl, htext⟩)⟩
      obtain rfl := Option.some.inj hj
      exact hd.tmp_lt _ htmp

end Purdex.Core
