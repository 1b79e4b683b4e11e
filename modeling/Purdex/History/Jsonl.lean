/-
The history of an agent as messages of its stream: the lines of a file that is read to a limit, each filtered and put into one shape.
-/
import Purdex.Json.Fields
import Purdex.Text.Lines

namespace Purdex.History

open Json

abbrev Bytes := List UInt8

abbrev Fields := List (String × Raw)

/-! ## One line -/

/-- What a command's name is within, where `.+?` takes as little as it can, but at least one character, and no line break. -/
def captureName : List Char → Option (List Char)
  | [] => none
  | c :: cs =>
    if c = '\n' then none
    else if "</command-name>".toList <+: cs then some [c]
    else (captureName cs).map (c :: ·)

/-- `commandNameRegex`, at the first place that it matches. -/
def commandName : List Char → Option (List Char)
  | [] => none
  | c :: cs => (((c :: cs).dropPrefix? "<command-name>".toList).bind captureName).or (commandName cs)

def stringField (fields : Fields) (k : String) : Option String :=
  match fields.lookup k with
  | some (.str s) => some s
  | _ => none

structure Message where
  type : String
  message : Fields

/-- `none` where the line is filtered out. -/
def userContent (msg : Fields) : Option Fields :=
  match stringField msg "content" with
  | none => some msg
  | some content =>
    if "<local-command-stdout>".toList <+: content.toList ∨ "<local-command-caveat>".toList <+: content.toList then none
    else some (Fields.put "content" (.str (((commandName content.toList).map String.ofList).getD content)) msg)

def normalizeContent (msg : Fields) : Fields :=
  match stringField msg "content" with
  | none => msg
  | some content => Fields.put "content" (.arr [.obj [("type", .str "text"), ("text", .str content)]]) msg

/-- What a line is kept as, if it is. -/
def lineMessage (unmarshal : Bytes → Option Fields) (line : Bytes) : Option Message :=
  match unmarshal line with
  | none => none
  | some entry =>
    let typ := (stringField entry "type").getD ""
    if typ ≠ "user" ∧ typ ≠ "assistant" then none
    else match entry.lookup "isMeta" with
      | some (.bool true) => none
      | _ => match entry.lookup "message" with
        | some (.obj msg) =>
          if typ = "assistant" ∧ stringField msg "model" = some "<synthetic>" then none
          else (if typ = "user" then userContent msg else some msg).map fun msg => ⟨typ, normalizeContent msg⟩
        | _ => none

/-! ## The lines of a file -/

inductive ParseErr where
  | read (err : String)
  | tooLong
  deriving Repr, DecidableEq

/-- What can be read, and with what error reading ends, if not with the end. -/
structure Reader where
  bytes : Bytes
  err : Option String

def newline : UInt8 := 10

def maxToken : Nat := 1024 * 1024

/-- A line that does not fit into the buffer with its end; a last line without one would have to leave room. -/
def tooLong (line : Bytes) : Bool := if line.getLast? = some newline then maxToken < line.length else maxToken ≤ line.length

/-- `ScanLines`: without the line break, and the carriage return before it. -/
def token (line : Bytes) : Bytes :=
  let content := if line.getLast? = some newline then line.dropLast else line
  if content.getLast? = some 13 then content.dropLast else content

/-- The scanner stops at a line that is too long. -/
def scan : List Bytes → List Bytes × Option ParseErr
  | [] => ([], none)
  | line :: rest => if tooLong line then ([], some .tooLong) else ((scan rest).1.cons (token line), (scan rest).2)

/-- `io.ReadAll` of at most so many bytes: an error that comes behind them is not met. -/
def readAll (r : Reader) (limit : Int64) : Except String Bytes :=
  if limit ≤ 0 then .ok []
  else match r.err with
    | some err => if r.bytes.length < limit.toInt.toNat then .error err else .ok (r.bytes.take limit.toInt.toNat)
    | none => .ok (r.bytes.take limit.toInt.toNat)

/-- The end of what was read, behind the line that is cut. -/
def trim (maxBytes : Int64) (data : Bytes) : Bytes :=
  if maxBytes.toInt < data.length then
    let data := data.drop (data.length - maxBytes.toInt.toNat)
    match data.idxOf? newline with
    | some idx => data.drop (idx + 1)
    | none => data
  else data

def parseJSONL (unmarshal : Bytes → Option Fields) (r : Reader) (maxBytes : Int64) : List Message × Option ParseErr :=
  if maxBytes ≤ 0 then ([], none)
  else match readAll r (maxBytes + 1) with
    | .error err => ([], some (.read err))
    | .ok data =>
      let scanned := scan (Lines.splitLines newline (trim maxBytes data))
      (scanned.1.filterMap (lineMessage unmarshal), scanned.2)

/-! ## What is kept -/

/-- The complete lines within the last bytes of all that there is. -/
def tailLines (maxBytes : Int64) (bytes : Bytes) : List Bytes :=
  (Lines.keepTail maxBytes.toInt.toNat (Lines.splitLines newline bytes)).map token

section Line

variable {unmarshal : Bytes → Option Fields} {line : Bytes} {m : Message} {msg msg' : Fields} {content : String}

theorem stringField_put (k : String) (a : Raw) (fields : Fields) : stringField (Fields.put k a fields) k = match a with
    | .str s => some s
    | _ => none := by
  rw [stringField, Fields.lookup_put, if_pos rfl]
  cases a <;> rfl

theorem lineMessage_some (h : lineMessage unmarshal line = some m) :
    (m.type = "user" ∨ m.type = "assistant") ∧ ∃ entry msg msg', unmarshal line = some entry ∧ stringField entry "type" = some m.type ∧
      entry.lookup "isMeta" ≠ some (.bool true) ∧ entry.lookup "message" = some (.obj msg) ∧
      (m.type = "assistant" → stringField msg "model" ≠ some "<synthetic>" ∧ msg' = msg) ∧ (m.type = "user" → userContent msg = some msg') ∧
        m.message = normalizeContent msg' := by
  unfold lineMessage at h
  split at h
  · cases h
  rename_i entry hentry
  dsimp only at h
  split at h
  · cases h
  rename_i htype
  have htyp : (stringField entry "type").getD "" = "user" ∨ (stringField entry "type").getD "" = "assistant" := by
    rcases not_and_or.1 htype with htype | htype
    · exact .inl (not_not.1 htype)
    · exact .inr (not_not.1 htype)
  have hfield : stringField entry "type" = some ((stringField entry "type").getD "") := by
    cases hf : stringField entry "type" with
    | none =>
      rw [hf] at htyp
      rcases htyp with h | h
      · exact absurd h (by decide)
      · exact absurd h (by decide)
    | some typ => rfl
  split at h
  · cases h
  rename_i hmeta
  split at h
  · rename_i msg hmsg
    split at h
    · cases h
    rename_i hsynthetic
    obtain ⟨msg', hmsg', rfl⟩ := Option.map_eq_some_iff.1 h
    refine ⟨htyp, entry, msg, msg', hentry, hfield, hmeta, hmsg, fun hassistant => ?_, fun huser => ?_, rfl⟩
    · refine ⟨fun hmodel => hsynthetic ⟨hassistant, hmodel⟩, ?_⟩
      have hnot : ¬(stringField entry "type").getD "" = "user" := fun huser => absurd (huser.symm.trans hassistant) (by decide)
      rw [if_neg hnot] at hmsg'
      exact (Option.some.inj hmsg').symm
    · rw [if_pos huser] at hmsg'
      exact hmsg'
  · cases h

theorem userContent_content (h : userContent msg = some msg') (hcontent : stringField msg "content" = some content) :
    ∃ text, stringField msg' "content" = some text := by
  unfold userContent at h
  rw [hcontent] at h
  dsimp only at h
  split at h
  · cases h
  · rw [← Option.some.inj h]
    exact ⟨_, stringField_put _ _ _⟩

/-- A content that is a string becomes an array of one block of text. -/
theorem lookup_normalizeContent (h : stringField msg "content" = some content) :
    (normalizeContent msg).lookup "content" = some (.arr [.obj [("type", .str "text"), ("text", .str content)]]) := by
  unfold normalizeContent
  rw [h]
  dsimp only
  rw [Fields.lookup_put, if_pos rfl]

/-- What is kept has an array where the line has a string. -/
structure Normalised (unmarshal : Bytes → Option Fields) (line : Bytes) (m : Message) : Prop where
  type : m.type = "user" ∨ m.type = "assistant"
  content : ∃ entry msg, unmarshal line = some entry ∧ entry.lookup "message" = some (.obj msg) ∧
    ((stringField msg "content").isSome → ∃ text, m.message.lookup "content" = some (.arr [.obj [("type", .str "text"), ("text", .str text)]]))

theorem normalised_of_lineMessage (h : lineMessage unmarshal line = some m) : Normalised unmarshal line m := by
  obtain ⟨htype, entry, msg, msg', hentry, -, -, hmsg, hassistant, huser, hm⟩ := lineMessage_some h
  refine ⟨htype, entry, msg, hentry, hmsg, fun hstring => ?_⟩
  obtain ⟨content, hcontent⟩ := Option.isSome_iff_exists.1 hstring
  obtain ⟨text, htext⟩ : ∃ text, stringField msg' "content" = some text := by
    rcases htype with htype | htype
    · exact userContent_content (huser htype) hcontent
    · exact ⟨content, (hassistant htype).2 ▸ hcontent⟩
  exact ⟨text, hm ▸ lookup_normalizeContent htext⟩

end Line

/-! ## Errors -/

section Scan

variable {lines : List Bytes} {line : Bytes}

theorem scan_cons_of_not (h : tooLong line = false) (lines : List Bytes) :
    scan (line :: lines) = ((scan lines).1.cons (token line), (scan lines).2) := by
  rw [scan, h, if_neg Bool.false_ne_true]

theorem scan_eq (h : ∀ line ∈ lines, tooLong line = false) : scan lines = (lines.map token, none) := by
  induction lines with
  | nil => rfl
  | cons line lines ih =>
    obtain ⟨hline, hrest⟩ := List.forall_mem_cons.1 h
    rw [scan_cons_of_not hline, ih hrest]
    rfl

theorem scan_error : (scan lines).2 = none ↔ ∀ line ∈ lines, tooLong line = false := by
  induction lines with
  | nil => exact ⟨fun _ _ h => absurd h List.not_mem_nil, fun _ => rfl⟩
  | cons line lines ih =>
    rw [List.forall_mem_cons]
    cases hline : tooLong line with
    | true =>
      rw [scan, hline, if_pos rfl]
      exact ⟨nofun, fun h => absurd h.1 (by decide)⟩
    | false =>
      rw [scan_cons_of_not hline, ih]
      exact ⟨fun h => ⟨rfl, h⟩, fun h => h.2⟩

theorem scan_tooLong {err : ParseErr} (h : (scan lines).2 = some err) : err = .tooLong ∧ ∃ line ∈ lines, tooLong line = true := by
  induction lines with
  | nil => cases h
  | cons line lines ih =>
    cases hline : tooLong line with
    | true =>
      rw [scan, hline, if_pos rfl] at h
      exact ⟨(Option.some.inj h).symm, line, List.mem_cons_self, hline⟩
    | false =>
      rw [scan_cons_of_not hline] at h
      obtain ⟨herr, line', hmem, hlong⟩ := ih h
      exact ⟨herr, line', List.mem_cons_of_mem _ hmem, hlong⟩

theorem le_of_tooLong (h : tooLong line = true) : maxToken ≤ line.length := by
  unfold tooLong at h
  split at h
  · exact (of_decide_eq_true h).le
  · exact of_decide_eq_true h

end Scan

end Purdex.History
