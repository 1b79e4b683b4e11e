/-
What is read to a limit is the beginning of the stream, not its end: when the lines of the one are the lines of the other.
-/
import Purdex.History.Jsonl

namespace Purdex.History

open Json Lines

variable {unmarshal : Bytes → Option Fields} {r : Reader} {maxBytes limit : Int64} {data bytes : Bytes}

/-! ## What is read -/

/-- The lines that the scanner is given, where reading does not fail. -/
def headLines (maxBytes : Int64) (bytes : Bytes) : List Bytes :=
  splitLines newline (trim maxBytes (if maxBytes + 1 ≤ 0 then [] else bytes.take (maxBytes + 1).toInt.toNat))

theorem readAll_ok (h : readAll r limit = .ok data) : data = if limit ≤ 0 then [] else r.bytes.take limit.toInt.toNat := by
  unfold readAll at h
  split at h
  · rename_i hlimit
    rw [if_pos hlimit]
    exact (Except.ok.inj h).symm
  rename_i hlimit
  rw [if_neg hlimit]
  split at h
  · split at h
    · cases h
    · exact (Except.ok.inj h).symm
  · exact (Except.ok.inj h).symm

theorem readAll_error {err : String} (h : readAll r limit = .error err) : r.err = some err := by
  unfold readAll at h
  split at h
  · cases h
  split at h
  · rename_i herr
    split at h
    · rw [herr, Except.error.inj h]
    · cases h
  · cases h

theorem parseJSONL_of_error {err : String} (hpos : ¬maxBytes ≤ 0) (h : readAll r (maxBytes + 1) = .error err) :
    parseJSONL unmarshal r maxBytes = ([], some (.read err)) := by
  rw [parseJSONL, if_neg hpos, h]

theorem parseJSONL_of_ok (hpos : ¬maxBytes ≤ 0) (h : readAll r (maxBytes + 1) = .ok data) :
    parseJSONL unmarshal r maxBytes =
      ((scan (headLines maxBytes r.bytes)).1.filterMap (lineMessage unmarshal), (scan (headLines maxBytes r.bytes)).2) := by
  rw [parseJSONL, if_neg hpos, h, readAll_ok h]
  rfl

theorem trim_suffix (maxBytes : Int64) (data : Bytes) : trim maxBytes data <:+ data := by
  unfold trim
  split
  · dsimp only
    split
    · exact (List.drop_suffix _ _).trans (List.drop_suffix _ _)
    · exact List.drop_suffix _ _
  · exact List.suffix_refl _

/-- A line that is read is part of a line of the stream. -/
theorem infix_of_headLines {line : Bytes} (h : line ∈ headLines maxBytes bytes) : ∃ line' ∈ splitLines newline bytes, line <:+: line' := by
  refine line_of_infix ((trim_suffix _ _).isInfix.trans ?_) h
  split
  · exact List.nil_infix
  · exact (List.take_prefix _ _).isInfix

/-! ## What is promised -/

/-- What an error is returned for. -/
def Caused (r : Reader) : ParseErr → Prop
  | .read err => r.err = some err
  | .tooLong => ∃ line ∈ splitLines newline r.bytes, maxToken ≤ line.length

structure KeepsTail (unmarshal : Bytes → Option Fields) (r : Reader) (maxBytes : Int64) : Prop where
  messages : (parseJSONL unmarshal r maxBytes).2 = none →
    (parseJSONL unmarshal r maxBytes).1 = (tailLines maxBytes r.bytes).filterMap (lineMessage unmarshal)
  normalised : ∀ m ∈ (parseJSONL unmarshal r maxBytes).1, ∃ line, Normalised unmarshal line m
  errors : ∀ err, (parseJSONL unmarshal r maxBytes).2 = some err → Caused r err

theorem normalised_of_mem {m : Message} (hpos : ¬maxBytes ≤ 0) (h : m ∈ (parseJSONL unmarshal r maxBytes).1) :
    ∃ line, Normalised unmarshal line m := by
  cases hread : readAll r (maxBytes + 1) with
  | error err =>
    rw [parseJSONL_of_error hpos hread] at h
    cases h
  | ok data =>
    rw [parseJSONL_of_ok hpos hread] at h
    obtain ⟨line, -, hline⟩ := List.mem_filterMap.1 h
    exact ⟨line, normalised_of_lineMessage hline⟩

theorem cause_of_error {err : ParseErr} (hpos : ¬maxBytes ≤ 0) (h : (parseJSONL unmarshal r maxBytes).2 = some err) : Caused r err := by
  cases hread : readAll r (maxBytes + 1) with
  | error err' =>
    rw [parseJSONL_of_error hpos hread] at h
    rw [← Option.some.inj h]
    exact readAll_error hread
  | ok data =>
    rw [parseJSONL_of_ok hpos hread] at h
    obtain ⟨rfl, line, hmem, hlong⟩ := scan_tooLong h
    obtain ⟨line', hmem', hwithin⟩ := infix_of_headLines hmem
    exact ⟨line', hmem', (le_of_tooLong hlong).trans hwithin.length_le⟩

/-! ## When it is kept -/

/-- A decoder that keeps every line, and lines apart. -/
def transcript (line : Bytes) : Option Fields :=
  some [("type", .str "user"), ("message", .obj [("content", .arr (line.map fun b => .num b.toNat))])]

theorem lineMessage_transcript (line : Bytes) :
    lineMessage transcript line = some ⟨"user", [("content", .arr (line.map fun b => .num b.toNat))]⟩ := rfl

theorem lineMessage_transcript_injective {line line' : Bytes} (h : lineMessage transcript line = lineMessage transcript line') : line = line' := by
  rw [lineMessage_transcript, lineMessage_transcript, Option.some.injEq, Message.mk.injEq, List.cons.injEq, Prod.mk.injEq, Raw.arr.injEq] at h
  refine List.map_injective_iff.2 (fun b b' hb => ?_) h.2.1.2
  exact UInt8.toNat_inj.1 (by exact_mod_cast Raw.num.inj hb)

theorem filterMap_transcript_injective {lines lines' : List Bytes}
    (h : lines.filterMap (lineMessage transcript) = lines'.filterMap (lineMessage transcript)) : lines = lines' := by
  have hmap : ∀ lines : List Bytes, (lines.filterMap (lineMessage transcript)).map some = lines.map (lineMessage transcript) := fun lines => by
    induction lines with
    | nil => rfl
    | cons line lines ih =>
      rw [List.filterMap_cons, lineMessage_transcript, List.map_cons, ih]
      rfl
  refine List.map_injective_iff.2 (fun _ _ => lineMessage_transcript_injective) ?_
  rw [← hmap lines, h, hmap lines']

/-- The lines behind the first byte that is cut, of as many bytes as may be kept, are those at the end of the stream; or an error says that
they were not read. -/
def HeadIsTail (r : Reader) (maxBytes : Int64) : Prop :=
  (∃ err, readAll r (maxBytes + 1) = .error err) ∨ (∃ line ∈ headLines maxBytes r.bytes, tooLong line = true) ∨
    (headLines maxBytes r.bytes).map token = tailLines maxBytes r.bytes

theorem messages_of_headIsTail (hpos : ¬maxBytes ≤ 0) (h : HeadIsTail r maxBytes) (hnone : (parseJSONL unmarshal r maxBytes).2 = none) :
    (parseJSONL unmarshal r maxBytes).1 = (tailLines maxBytes r.bytes).filterMap (lineMessage unmarshal) := by
  cases hread : readAll r (maxBytes + 1) with
  | error err =>
    rw [parseJSONL_of_error hpos hread] at hnone
    cases hnone
  | ok data =>
    rw [parseJSONL_of_ok hpos hread] at hnone ⊢
    have hfits := scan_error.1 hnone
    rw [scan_eq hfits]
    rcases h with ⟨err, herr⟩ | ⟨line, hmem, hlong⟩ | heq
    · rw [hread] at herr
      cases herr
    · exact absurd hlong (ne_true_of_eq_false (hfits line hmem))
    · rw [heq]

theorem headIsTail_of_messages (hpos : ¬maxBytes ≤ 0)
    (h : (parseJSONL transcript r maxBytes).2 = none →
      (parseJSONL transcript r maxBytes).1 = (tailLines maxBytes r.bytes).filterMap (lineMessage transcript)) : HeadIsTail r maxBytes := by
  cases hread : readAll r (maxBytes + 1) with
  | error err => exact .inl ⟨err, hread⟩
  | ok data =>
    rw [parseJSONL_of_ok hpos hread] at h
    by_cases hfits : ∀ line ∈ headLines maxBytes r.bytes, tooLong line = false
    · refine .inr (.inr (filterMap_transcript_injective ?_))
      rw [scan_eq hfits] at h
      exact h rfl
    · push Not at hfits
      obtain ⟨line, hmem, hlong⟩ := hfits
      exact .inr (.inl ⟨line, hmem, by simpa using hlong⟩)

/-- The end of the stream is kept, however its lines are decoded, where the lines behind its first byte are the lines at its end. -/
theorem keepsTail_iff (hpos : 0 < maxBytes) : (∀ unmarshal, KeepsTail unmarshal r maxBytes) ↔ HeadIsTail r maxBytes := by
  have hneg : ¬maxBytes ≤ 0 := by
    rw [Int64.not_le]
    exact hpos
  refine ⟨fun h => headIsTail_of_messages hneg (h transcript).messages, fun h unmarshal => ?_⟩
  exact ⟨messages_of_headIsTail hneg h, fun m => normalised_of_mem hneg, fun err => cause_of_error hneg⟩

theorem toInt_succ (h : maxBytes < Int64.maxValue) : (maxBytes + 1).toInt = maxBytes.toInt + 1 := by
  have hlt : maxBytes.toInt < 2 ^ 63 - 1 := Int64.lt_iff_toInt_lt.1 h
  have hle := Int64.le_toInt maxBytes
  rw [Int64.toInt_add, Int64.toInt_one]
  refine Int.bmod_eq_of_le ?_ ?_
  · omega
  · omega

/-- All lines, where there is no more than may be kept. -/
theorem headIsTail_of_le (hpos : 0 < maxBytes) (hmax : maxBytes < Int64.maxValue) (hsize : (r.bytes.length : Int) ≤ maxBytes.toInt) :
    HeadIsTail r maxBytes := by
  refine .inr (.inr ?_)
  have hpos' : 0 < maxBytes.toInt := Int64.lt_iff_toInt_lt.1 hpos
  have hlimit : ¬maxBytes + 1 ≤ 0 := by
    rw [Int64.le_iff_toInt_le, toInt_succ hmax, Int64.toInt_zero]
    omega
  have htake : r.bytes.take (maxBytes + 1).toInt.toNat = r.bytes := by
    refine List.take_of_length_le ?_
    rw [toInt_succ hmax]
    omega
  have htrim : trim maxBytes r.bytes = r.bytes := if_neg (by omega)
  rw [headLines, if_neg hlimit, htake, htrim, tailLines, keepTail_of_le]
  rw [flatten_splitLines]
  omega

/-! ## Three lines -/

def text (s : String) : Bytes := s.toList.map fun c => UInt8.ofNat c.toNat

/-- One of three lines of one length. -/
def said (n : String) : Bytes := text ("\x7b\"type\":\"user\",\"message\":\x7b\"content\":\"" ++ n ++ "\"\x7d\x7d")

def decode (line : Bytes) : Option Fields :=
  ["1", "2", "3"].findSome? fun n => if line = said n then some [("type", .str "user"), ("message", .obj [("content", .str n)])] else none

theorem keepsTail_said : KeepsTail decode ⟨said "1", none⟩ 86 :=
  (keepsTail_iff (by decide)).2 (headIsTail_of_le (by decide) (by decide) (by decide)) decode

def conversation : Reader := ⟨["1", "2", "3"].flatMap fun n => said n ++ [newline], none⟩

/-- The message before the last is returned alone: the last was not read. -/
theorem head_not_tail : ¬KeepsTail decode conversation 86 := by
  intro h
  have hlen := congrArg List.length (h.messages (by decide +kernel))
  exact absurd hlen (by decide +kernel)

end Purdex.History
