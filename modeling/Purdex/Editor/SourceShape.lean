/-
The shape of a file as it was loaded, and what the editor serializes put back into it: which files come back as they were, and when
what was put back has the shape that it was given.
-/
import Purdex.Text.LineEnds

namespace Purdex.Editor

open LineEnds

/-! ## The shape of a file -/

inductive EditorEol where
  | lf
  | crlf
  deriving Repr, DecidableEq

/-- What is known of a file as it was loaded. -/
structure SourceShape where
  sourceEol : EditorEol
  sourceTrailingNewline : Bool
  sourceLeadingBlankLines : Nat
  deriving Repr, DecidableEq

def detectEol (content : String) : EditorEol := if hasCrlf content.toList then .crlf else .lf

/-- The line ends at the very start, and what follows them. -/
def leadingLineEnds : List Char → Nat × List Char
  | '\r' :: '\n' :: rest => ((leadingLineEnds rest).1 + 1, (leadingLineEnds rest).2)
  | '\n' :: rest => ((leadingLineEnds rest).1 + 1, (leadingLineEnds rest).2)
  | rest => (0, rest)

/-- In a file of nothing but line ends the last one is its trailing newline. -/
def countLeadingBlankLines (content : String) : Nat :=
  let (count, rest) := leadingLineEnds content.toList
  if rest ≠ [] then count else count - 1

def detectSourceShape (content : String) : SourceShape :=
  ⟨detectEol content, content.toList.getLast? = some '\n', countLeadingBlankLines content⟩

def hasMixedLineEndings (md : String) : Bool := hasCrlf md.toList && decide ('\n' ∈ dropCrlf md.toList)

/-! ## What is put back -/

def encode (eol : EditorEol) (l : List Char) : List Char := if eol = .crlf then toCrlf l else l

def normalizeSerializedMarkdown (serialized : String) (source : SourceShape) : String :=
  let body := strip (toLf serialized.toList)
  let withLeading := List.replicate source.sourceLeadingBlankLines '\n' ++ body
  let withTrailing := if source.sourceTrailingNewline then withLeading ++ ['\n'] else withLeading
  String.ofList (encode source.sourceEol withTrailing)

/-- With line feeds alone. -/
def laid (source : SourceShape) (body : List Char) : List Char :=
  List.replicate source.sourceLeadingBlankLines '\n' ++ body ++ List.replicate source.sourceTrailingNewline.toNat '\n'

theorem normalize_eq (serialized : String) (source : SourceShape) :
    (normalizeSerializedMarkdown serialized source).toList = encode source.sourceEol (laid source (strip (toLf serialized.toList))) := by
  unfold normalizeSerializedMarkdown laid
  rw [String.toList_ofList]
  cases source.sourceTrailingNewline with
  | true => rfl
  | false =>
    simp only [Bool.toNat_false, List.replicate_zero, List.append_nil]
    rfl

section Shape

variable {eol : EditorEol} {l body : List Char}

theorem mem_encode : '\n' ∈ encode eol l ↔ '\n' ∈ l := by
  cases eol with
  | lf => exact Iff.rfl
  | crlf =>
    rw [encode, if_pos rfl, toCrlf, List.mem_flatMap]
    constructor
    · rintro ⟨c, hc, hmem⟩
      by_cases hnewline : c = '\n'
      · exact hnewline ▸ hc
      · rw [if_neg hnewline, List.mem_singleton] at hmem
        exact absurd hmem.symm hnewline
    · exact fun h => ⟨'\n', h, by decide⟩

theorem getLast?_encode : (encode eol l).getLast? = some '\n' ↔ l.getLast? = some '\n' := by
  cases eol with
  | lf => exact Iff.rfl
  | crlf =>
    rw [encode, if_pos rfl]
    induction l using List.reverseRecOn with
    | nil => exact Iff.rfl
    | append_singleton l c _ =>
      rw [toCrlf_append, List.getLast?_concat]
      by_cases hc : c = '\n'
      · subst hc
        rw [toCrlf_cons_newline, List.getLast?_append]
        exact Iff.rfl
      · rw [toCrlf_cons hc, List.getLast?_append]
        exact Iff.rfl

theorem leadingLineEnds_of_not (hhead : l.head? ≠ some '\n') (hcrlf : ∀ rest, l ≠ '\r' :: '\n' :: rest) : leadingLineEnds l = (0, l) := by
  rw [leadingLineEnds]
  · exact hcrlf
  · rintro rest rfl
    exact hhead rfl

/-- A way of ending lines that says what it is: nothing that stands before a line feed belongs to the line. -/
def Encodes (eol : EditorEol) (l : List Char) : Prop := eol = .crlf ∨ hasCrlf l = false

theorem leadingLineEnds_encode (a : Nat) (hhead : l.head? ≠ some '\n') (h : Encodes eol l) :
    leadingLineEnds (encode eol (List.replicate a '\n' ++ l)) = (a, encode eol l) := by
  induction a with
  | zero =>
    cases eol with
    | lf =>
      refine leadingLineEnds_of_not hhead ?_
      rintro rest rfl
      rcases h with h | h
      · cases h
      · cases h
    | crlf =>
      refine leadingLineEnds_of_not (head_toCrlf l) fun rest hrest => ?_
      cases l with
      | nil => cases hrest
      | cons c l =>
        have hc : c ≠ '\n' := fun hc => hhead (hc ▸ rfl)
        have htail : toCrlf l = '\n' :: rest := by
          have hcons : c :: toCrlf l = '\r' :: '\n' :: rest := (toCrlf_cons hc l).symm.trans hrest
          exact (List.cons.inj hcons).2
        exact head_toCrlf l (htail ▸ rfl)
  | succ a ih =>
    cases eol with
    | lf =>
      have ih : leadingLineEnds (List.replicate a '\n' ++ l) = (a, l) := ih
      change leadingLineEnds ('\n' :: (List.replicate a '\n' ++ l)) = (a + 1, l)
      rw [leadingLineEnds, ih]
    | crlf =>
      have ih : leadingLineEnds (toCrlf (List.replicate a '\n' ++ l)) = (a, toCrlf l) := ih
      change leadingLineEnds ('\r' :: '\n' :: toCrlf (List.replicate a '\n' ++ l)) = (a + 1, toCrlf l)
      rw [leadingLineEnds, ih]

theorem detectEol_encode (h : (eol = .crlf ∧ '\n' ∈ l) ∨ (eol = .lf ∧ hasCrlf l = false)) : detectEol (String.ofList (encode eol l)) = eol := by
  unfold detectEol
  rw [String.toList_ofList]
  rcases h with ⟨rfl, hmem⟩ | ⟨rfl, hcrlf⟩
  · exact if_pos ((hasCrlf_toCrlf l).2 hmem)
  · exact if_neg (ne_true_of_eq_false hcrlf)

theorem encode_ne_nil (h : l ≠ []) : encode eol l ≠ [] := by
  obtain ⟨c, l, rfl⟩ := List.exists_cons_of_ne_nil h
  cases eol with
  | lf => exact List.cons_ne_nil c l
  | crlf =>
    change toCrlf (c :: l) ≠ []
    by_cases hc : c = '\n'
    · rw [hc, toCrlf_cons_newline]
      exact List.cons_ne_nil _ _
    · rw [toCrlf_cons hc]
      exact List.cons_ne_nil _ _

theorem encode_nil : encode eol [] = [] := by cases eol <;> rfl

theorem countLeadingBlankLines_encode (a b : Nat) (hbare : Bare body) (h : Encodes eol (body ++ List.replicate b '\n')) :
    countLeadingBlankLines (String.ofList (encode eol (List.replicate a '\n' ++ body ++ List.replicate b '\n'))) =
      if body = [] then a + b - 1 else a := by
  unfold countLeadingBlankLines
  rw [String.toList_ofList]
  by_cases hbody : body = []
  · subst hbody
    have hends := @leadingLineEnds_encode eol [] (a + b) nofun (.inr rfl)
    rw [if_pos rfl, List.append_nil, List.replicate_append_replicate]
    rw [List.append_nil, encode_nil] at hends
    rw [hends]
    rfl
  · have hhead : (body ++ List.replicate b '\n').head? ≠ some '\n' := by
      rw [List.head?_append_of_ne_nil _ hbody]
      exact hbare.head
    rw [if_neg hbody, List.append_assoc, leadingLineEnds_encode a hhead h]
    exact if_pos (encode_ne_nil (List.append_ne_nil_of_left_ne_nil hbody _))

theorem getLast?_laid (a b : Nat) (hbare : Bare body) :
    (List.replicate a '\n' ++ body ++ List.replicate b '\n').getLast? = some '\n' ↔ 0 < b ∨ (body = [] ∧ 0 < a) := by
  cases b with
  | succ b =>
    rw [List.replicate_succ', ← List.append_assoc, List.getLast?_concat]
    exact ⟨fun _ => .inl (Nat.succ_pos b), fun _ => rfl⟩
  | zero =>
    rw [List.replicate_zero, List.append_nil, or_iff_right (lt_irrefl 0)]
    by_cases hbody : body = []
    · subst hbody
      rw [List.append_nil]
      cases a with
      | zero => exact ⟨nofun, fun h => absurd h.2 (lt_irrefl 0)⟩
      | succ a =>
        rw [List.replicate_succ', List.getLast?_concat]
        exact ⟨fun _ => ⟨rfl, Nat.succ_pos a⟩, fun _ => rfl⟩
    · rw [List.getLast?_append_of_ne_nil _ hbody]
      exact ⟨fun h => absurd h hbare.last, fun h => absurd h.1 hbody⟩

/-- The shape of what begins and ends with so many line ends. -/
def shapeOf (eol : EditorEol) (a b : Nat) (body : List Char) : SourceShape :=
  if body = [] then ⟨eol, 0 < a + b, a + b - 1⟩ else ⟨eol, 0 < b, a⟩

theorem detectSourceShape_encode (a b : Nat) (hbare : Bare body)
    (h : (eol = .crlf ∧ '\n' ∈ List.replicate a '\n' ++ body ++ List.replicate b '\n') ∨
      (eol = .lf ∧ hasCrlf (List.replicate a '\n' ++ body ++ List.replicate b '\n') = false)) :
    detectSourceShape (String.ofList (encode eol (List.replicate a '\n' ++ body ++ List.replicate b '\n'))) = shapeOf eol a b body := by
  have hencodes : Encodes eol (body ++ List.replicate b '\n') := by
    rcases h with ⟨rfl, -⟩ | ⟨rfl, hcrlf⟩
    · exact .inl rfl
    · rw [List.append_assoc, hasCrlf_replicate_append] at hcrlf
      exact .inr hcrlf
  have hlast := getLast?_laid a b hbare
  rw [detectSourceShape, detectEol_encode h, countLeadingBlankLines_encode a b hbare hencodes, String.toList_ofList, shapeOf]
  by_cases hbody : body = []
  · rw [if_pos hbody, if_pos hbody, SourceShape.mk.injEq]
    refine ⟨rfl, decide_eq_decide.2 ?_, rfl⟩
    rw [getLast?_encode, hlast, and_iff_right hbody, Nat.add_pos_iff_pos_or_pos, or_comm]
  · rw [if_neg hbody, if_neg hbody, SourceShape.mk.injEq]
    refine ⟨rfl, decide_eq_decide.2 ?_, rfl⟩
    rw [getLast?_encode, hlast, or_iff_left fun h => hbody h.1]

end Shape

end Purdex.Editor
