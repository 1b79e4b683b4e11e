/-
What Live Mode writes: a file of one kind of line ends comes back byte for byte, and what was written once is written the same again.
-/
import Purdex.Editor.SourceShape

namespace Purdex.Editor

open LineEnds

/-! ## A file that comes back -/

section File

variable {text : String} {a b : Nat} {body : List Char}

/-- Line ends of one kind, as the check of the round trip has it. -/
theorem encode_toLf (h : hasMixedLineEndings text = false) : encode (detectEol text) (toLf text.toList) = text.toList := by
  unfold detectEol
  cases hcrlf : hasCrlf text.toList with
  | false =>
    rw [if_neg Bool.false_ne_true]
    exact toLf_of_not_hasCrlf hcrlf
  | true =>
    rw [if_pos rfl]
    refine toCrlf_toLf ?_
    rw [hasMixedLineEndings, hcrlf, Bool.true_and] at h
    exact of_decide_eq_false h

theorem detectEol_toLf (h : hasMixedLineEndings text = false) :
    (detectEol text = .crlf ∧ '\n' ∈ toLf text.toList) ∨ (detectEol text = .lf ∧ hasCrlf (toLf text.toList) = false) := by
  have hencode := encode_toLf h
  cases hcrlf : hasCrlf text.toList with
  | false =>
    refine .inr ⟨by rw [detectEol, hcrlf]; rfl, ?_⟩
    rw [toLf_of_not_hasCrlf hcrlf, hcrlf]
  | true =>
    have heol : detectEol text = .crlf := by
      rw [detectEol, hcrlf]
      rfl
    rw [heol] at hencode
    refine .inl ⟨heol, (hasCrlf_toCrlf _).1 ?_⟩
    rw [show toCrlf (toLf text.toList) = text.toList from hencode, hcrlf]

/-- Behind what is not a line end there is one at most. -/
def OneTrailingNewline (text : String) : Prop := ¬['\n', '\n'] <:+ toLf text.toList ∨ strip (toLf text.toList) = []

theorem laid_detected (h : hasMixedLineEndings text = false) (hone : OneTrailingNewline text) :
    laid (detectSourceShape text) (strip (toLf text.toList)) = toLf text.toList := by
  obtain ⟨a, b, hlf⟩ := strip_eq (toLf text.toList)
  have hshape : detectSourceShape text = shapeOf (detectEol text) a b (strip (toLf text.toList)) := by
    have hdetect := @detectSourceShape_encode (detectEol text) _ a b (bare_strip (toLf text.toList)) (hlf ▸ detectEol_toLf h)
    rwa [← hlf, encode_toLf h, String.ofList_toList] at hdetect
  rw [hshape]
  unfold OneTrailingNewline at hone
  unfold laid shapeOf
  generalize strip (toLf text.toList) = body at hlf hone ⊢
  by_cases hbody : body = []
  · subst hbody
    rw [if_pos rfl, hlf, List.append_nil, List.append_nil, List.replicate_append_replicate, List.replicate_append_replicate]
    congr 1
    cases Nat.eq_zero_or_pos (a + b) with
    | inl hzero => rw [hzero]; rfl
    | inr hpos =>
      rw [decide_eq_true hpos]
      exact Nat.sub_add_cancel hpos
  · rw [if_neg hbody]
    have hb : b ≤ 1 := by
      by_contra hlt
      refine (hone.resolve_right hbody) ?_
      obtain ⟨b, rfl⟩ : ∃ c, b = c + 2 := ⟨b - 2, by omega⟩
      rw [hlf, ← List.replicate_append_replicate, ← List.append_assoc]
      exact List.suffix_append _ _
    conv_rhs => rw [hlf]
    dsimp only
    congr 2
    rcases Nat.le_one_iff_eq_zero_or_eq_one.1 hb with rfl | rfl
    · rfl
    · rfl

/-- What comes back depends on what stands between the line ends alone. -/
theorem normalize_of_body {serialized : String} (h : hasMixedLineEndings text = false) (hone : OneTrailingNewline text)
    (hbody : strip (toLf serialized.toList) = strip (toLf text.toList)) :
    normalizeSerializedMarkdown serialized (detectSourceShape text) = text := by
  refine String.toList_inj.1 ?_
  rw [normalize_eq, hbody, laid_detected h hone]
  exact encode_toLf h

/-- Without so many line ends of its own kind at its two ends. -/
theorem strip_trimmed {rest : List Char}
    (htext : text.toList = encode (detectEol text) (List.replicate a '\n') ++ rest ++ encode (detectEol text) (List.replicate b '\n')) :
    strip (toLf rest) = strip (toLf text.toList) := by
  have hlf : toLf text.toList = List.replicate a '\n' ++ toLf rest ++ List.replicate b '\n' := by
    cases heol : detectEol text with
    | crlf =>
      rw [heol] at htext
      have hends : ∀ n, encode .crlf (List.replicate n '\n') = toCrlf (List.replicate n '\n') := fun _ => rfl
      rw [htext, hends, hends, toLf_append (head_toCrlf _), toLf_toCrlf, toLf_replicate_append]
    | lf =>
      rw [heol] at htext
      have hcrlf : hasCrlf text.toList = false := by
        by_contra hcrlf
        rw [detectEol, if_pos (eq_true_of_ne_false hcrlf)] at heol
        cases heol
      have hrest : hasCrlf rest = false := by
        rw [htext] at hcrlf
        exact hasCrlf_append_of_right (hasCrlf_append_of_left hcrlf)
      rw [toLf_of_not_hasCrlf hcrlf, toLf_of_not_hasCrlf hrest]
      exact htext
  rw [hlf, strip_append_replicate]

/-- A file comes back when it is written without line ends at its two ends, and when it is written with the other line ends: with line
feeds alone only if that takes no carriage return to another line feed. -/
structure RoundTrips (text : String) : Prop where
  trimmed : ∀ a b rest, text.toList = encode (detectEol text) (List.replicate a '\n') ++ rest ++ encode (detectEol text) (List.replicate b '\n') →
    normalizeSerializedMarkdown (String.ofList rest) (detectSourceShape text) = text
  toCrlf : normalizeSerializedMarkdown (String.ofList (toCrlf (toLf text.toList))) (detectSourceShape text) = text
  toLf : normalizeSerializedMarkdown (String.ofList (toLf text.toList)) (detectSourceShape text) = text ↔ hasCrlf (toLf text.toList) = false

theorem encode_injective {eol : EditorEol} {l l' : List Char} (h : encode eol l = encode eol l') : l = l' := by
  cases eol with
  | lf => exact h
  | crlf =>
    have h : toCrlf l = toCrlf l' := h
    rw [← toLf_toCrlf l, h, toLf_toCrlf]

theorem laid_injective {source : SourceShape} {l l' : List Char} (h : laid source l = laid source l') : l = l' :=
  List.append_cancel_left (List.append_cancel_right h)

theorem roundTrips (h : hasMixedLineEndings text = false) (hone : OneTrailingNewline text) : RoundTrips text := by
  refine ⟨fun a b rest htext => normalize_of_body h hone ?_, normalize_of_body h hone ?_, fun hback => ?_, fun hcrlf => normalize_of_body h hone ?_⟩
  · rw [String.toList_ofList, strip_trimmed htext]
  · rw [String.toList_ofList, toLf_toCrlf]
  · -- A carriage return that goes with the second line feed does not come back.
    by_contra hcrlf
    have hlt := count_toLf_lt (eq_true_of_ne_false hcrlf)
    have hlist := (congrArg String.toList hback).trans (encode_toLf h).symm
    rw [normalize_eq, ← laid_detected h hone] at hlist
    have hbody := laid_injective (encode_injective hlist)
    rw [laid_detected h hone, String.toList_ofList] at hbody
    have hcount := congrArg (List.count '\r') hbody
    rw [count_strip, count_strip] at hcount
    omega
  · rw [String.toList_ofList, toLf_of_not_hasCrlf hcrlf]

end File

/-! ## What is written again -/

section Again

variable {serialized : String} {source : SourceShape}

/-- A carriage return stands before a line feed that was not its own. -/
def Dangling (serialized : String) (source : SourceShape) : Prop :=
  source.sourceEol = .lf ∧
    hasCrlf (strip (toLf serialized.toList) ++ List.replicate source.sourceTrailingNewline.toNat '\n') = true

theorem encodes_of_not_dangling (h : ¬Dangling serialized source) :
    source.sourceEol = .crlf ∨ source.sourceEol = .lf ∧ hasCrlf (laid source (strip (toLf serialized.toList))) = false := by
  cases heol : source.sourceEol with
  | crlf => exact .inl rfl
  | lf =>
    refine .inr ⟨rfl, ?_⟩
    rw [laid, List.append_assoc, hasCrlf_replicate_append]
    by_contra hcrlf
    exact h ⟨heol, eq_true_of_ne_false hcrlf⟩

theorem toLf_encode {eol : EditorEol} {l : List Char} (h : eol = .crlf ∨ eol = .lf ∧ hasCrlf l = false) : toLf (encode eol l) = l := by
  rcases h with rfl | ⟨rfl, hcrlf⟩
  · exact toLf_toCrlf l
  · exact toLf_of_not_hasCrlf hcrlf

theorem strip_laid (source : SourceShape) (l : List Char) : strip (laid source (strip l)) = strip l := strip_of_bare (bare_strip l) _ _

theorem normalize_idempotent_iff (serialized : String) (source : SourceShape) :
    normalizeSerializedMarkdown (normalizeSerializedMarkdown serialized source) source = normalizeSerializedMarkdown serialized source ↔
      ¬Dangling serialized source := by
  constructor
  · -- The carriage return that stands before the line feed is lost the second time.
    rintro hagain ⟨heol, hcrlf⟩
    have hagain := congrArg (List.count '\r' ·.toList) hagain
    have hlaid : hasCrlf (laid source (strip (toLf serialized.toList))) = true := by
      rw [laid, List.append_assoc, hasCrlf_replicate_append, hcrlf]
    have hlt := count_toLf_lt hlaid
    have hnone : ∀ n, (List.replicate n '\n').count '\r' = 0 := fun n => List.count_eq_zero.2 fun h => absurd (List.eq_of_mem_replicate h) (by decide)
    have hcount : ∀ l, (laid source (strip l)).count '\r' = l.count '\r' := fun l => by
      rw [laid, List.count_append, List.count_append, hnone, hnone, Nat.zero_add, Nat.add_zero, count_strip]
    have henc : ∀ l, encode source.sourceEol l = l := fun l => by rw [heol]; rfl
    simp only [normalize_eq, henc, hcount] at hagain hlt
    omega
  · intro h
    refine String.toList_inj.1 ?_
    rw [normalize_eq, normalize_eq, toLf_encode (encodes_of_not_dangling h), strip_laid]

/-- Where there is nothing but line ends the last one is read as trailing. -/
theorem shapeOf_eq_iff {body : List Char} (hnewline : '\n' ∈ laid source body) :
    shapeOf source.sourceEol source.sourceLeadingBlankLines source.sourceTrailingNewline.toNat body = source ↔
      source.sourceTrailingNewline = true ∨ body ≠ [] := by
  obtain ⟨eol, trailing, blank⟩ := source
  by_cases hbody : body = []
  · subst hbody
    rw [shapeOf, if_pos rfl, SourceShape.mk.injEq, or_iff_left (not_not.2 rfl)]
    cases trailing with
    | true => exact iff_of_true ⟨rfl, decide_eq_true (Nat.succ_pos _), rfl⟩ rfl
    | false =>
      refine iff_of_false (fun h => ?_) Bool.false_ne_true
      have hzero : blank = 0 := Nat.eq_zero_of_not_pos (of_decide_eq_false h.2.1)
      subst hzero
      exact absurd hnewline List.not_mem_nil
  · rw [shapeOf, if_neg hbody, SourceShape.mk.injEq]
    refine iff_of_true ⟨rfl, ?_, rfl⟩ (.inr hbody)
    cases trailing <;> rfl

theorem detect_normalize_iff (hnewline : '\n' ∈ (normalizeSerializedMarkdown serialized source).toList) :
    detectSourceShape (normalizeSerializedMarkdown serialized source) = source ↔
      ¬Dangling serialized source ∧ (source.sourceTrailingNewline = true ∨ strip (toLf serialized.toList) ≠ []) := by
  by_cases hdangling : Dangling serialized source
  · -- The line feed has a carriage return, though it should have none.
    obtain ⟨heol, hcrlf⟩ := hdangling
    refine iff_of_false (fun h => ?_) fun h => h.1 ⟨heol, hcrlf⟩
    have hdetect := (congrArg SourceShape.sourceEol h).trans heol
    have hhas : hasCrlf (normalizeSerializedMarkdown serialized source).toList = true := by
      rw [normalize_eq, heol]
      change hasCrlf (laid source _) = true
      rw [laid, List.append_assoc, hasCrlf_replicate_append, hcrlf]
    have heol' : detectEol (normalizeSerializedMarkdown serialized source) = .crlf := if_pos hhas
    exact absurd (heol'.symm.trans hdetect) (by decide)
  · rw [and_iff_right hdangling]
    rw [normalize_eq, mem_encode] at hnewline
    have hencodes : (source.sourceEol = .crlf ∧ '\n' ∈ laid source (strip (toLf serialized.toList))) ∨
        (source.sourceEol = .lf ∧ hasCrlf (laid source (strip (toLf serialized.toList))) = false) :=
      (encodes_of_not_dangling hdangling).imp (fun h => ⟨h, hnewline⟩) id
    have hdetect := detectSourceShape_encode _ _ (bare_strip (toLf serialized.toList)) hencodes
    rw [← laid, ← normalize_eq, String.ofList_toList] at hdetect
    rw [hdetect]
    exact shapeOf_eq_iff hnewline

end Again

/-- A file of one kind of line ends, with one of them at most behind its content, comes back; what was written is written again the same
where no carriage return is left before another line feed; and its shape is then the one it was given, unless that has blank lines and no
trailing newline, and there is nothing else. -/
theorem live_mode_keeps_shape {text : String} (hmixed : hasMixedLineEndings text = false) (hone : OneTrailingNewline text)
    (serialized : String) (source : SourceShape) : RoundTrips text ∧
      (normalizeSerializedMarkdown (normalizeSerializedMarkdown serialized source) source = normalizeSerializedMarkdown serialized source ↔
        ¬Dangling serialized source) ∧
      ('\n' ∈ (normalizeSerializedMarkdown serialized source).toList →
        (detectSourceShape (normalizeSerializedMarkdown serialized source) = source ↔
          ¬Dangling serialized source ∧ (source.sourceTrailingNewline = true ∨ strip (toLf serialized.toList) ≠ []))) :=
  ⟨roundTrips hmixed hone, normalize_idempotent_iff serialized source, detect_normalize_iff⟩

theorem live_mode_keeps_shape_crlf : RoundTrips "\r\n# Title\r\n\r\nbody\r\n" :=
  (live_mode_keeps_shape (by decide) (.inl (by decide)) "" ⟨.lf, false, 0⟩).1

/-- A file with blank lines before its text that is emptied; a carriage return at the end of what is serialized; and a file with two of
them before a line feed. -/
theorem live_mode_loses_shape :
    (detectSourceShape (normalizeSerializedMarkdown "" (detectSourceShape "\n\nabc")) ≠ detectSourceShape "\n\nabc" ∧
      '\n' ∈ (normalizeSerializedMarkdown "" (detectSourceShape "\n\nabc")).toList) ∧
    normalizeSerializedMarkdown (normalizeSerializedMarkdown "a\r" (detectSourceShape "a\n")) (detectSourceShape "a\n") ≠
      normalizeSerializedMarkdown "a\r" (detectSourceShape "a\n") ∧
    (hasMixedLineEndings "a\r\r\nb" = false ∧
      normalizeSerializedMarkdown (String.ofList (toLf "a\r\r\nb".toList)) (detectSourceShape "a\r\r\nb") ≠ "a\r\r\nb") := by
  decide

end Purdex.Editor
