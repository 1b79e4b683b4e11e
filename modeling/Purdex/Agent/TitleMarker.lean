/-
The block in `.tmux.conf` that lets panes set their titles: it is put in behind a start marker and taken out up to the end marker. Taking
blocks out one after the other looks at the text from its start each time, where what is left may have come together to a new marker.
-/
import Purdex.Text.Cut

namespace Purdex.Agent.TitleMarker

open Cut

abbrev Bytes := List UInt8

def ascii (s : String) : Bytes := s.toList.map fun c => UInt8.ofNat c.toNat

def titleMarkerStart : Bytes := ascii "# >>> purdex agent-title >>>"

def titleMarkerLine : Bytes := ascii "set -gw allow-set-title on"

def titleMarkerEnd : Bytes := ascii "# <<< purdex agent-title <<<"

/-- The end of the line that the marker stands on goes with it. -/
def dropLineEnd : Bytes → Bytes
  | 13 :: 10 :: text => text
  | 13 :: text => text
  | 10 :: text => text
  | text => text

theorem dropLineEnd_split (text : Bytes) : ∃ eol, 35 ∉ eol ∧ text = eol ++ dropLineEnd text := by
  unfold dropLineEnd
  split
  · exact ⟨[13, 10], by decide, rfl⟩
  · exact ⟨[13], by decide, rfl⟩
  · exact ⟨[10], by decide, rfl⟩
  · exact ⟨[], List.not_mem_nil, rfl⟩

theorem dropLineEnd_length (text : Bytes) : (dropLineEnd text).length ≤ text.length := by
  obtain ⟨eol, -, heq⟩ := dropLineEnd_split text
  have hlength := congrArg List.length heq
  rw [List.length_append] at hlength
  omega

/-- What a block takes of a text that begins with it, and what is behind its end marker. -/
def cutBlock (rest : Bytes) : Option (Bytes × Bytes) := cut titleMarkerEnd (titleMarkerStart ++ rest)

theorem cutBlock_length {text front rest block after : Bytes} (hstart : cut titleMarkerStart text = some (front, rest))
    (hend : cutBlock rest = some (block, after)) : front.length + after.length < text.length := by
  have hs := length_of_cut hstart
  have he := length_of_cut hend
  rw [List.length_append] at he
  have hpos : 0 < titleMarkerEnd.length := by decide
  omega

/-- The loop looks for the start marker from the start of what is left. -/
def removeTitleMarkerBytes (text : Bytes) : Bytes :=
  match _hstart : cut titleMarkerStart text with
  | none => text
  | some (front, rest) =>
    match _hend : cutBlock rest with
    | none => text
    | some (_, after) => removeTitleMarkerBytes (front ++ dropLineEnd after)
termination_by text.length
decreasing_by
  have hlength := cutBlock_length _hstart _hend
  have hdrop := dropLineEnd_length after
  rw [List.length_append]
  omega

/-- A start marker without an end marker behind it, or with another one before that. -/
def hasMalformedTitleMarker (text : Bytes) : Bool :=
  match _hstart : cut titleMarkerStart text with
  | none => false
  | some (_, rest) =>
    match _hend : cutBlock rest with
    | none => true
    | some (block, after) =>
      if titleMarkerStart <:+: block.drop titleMarkerStart.length then true
      else hasMalformedTitleMarker after
termination_by text.length
decreasing_by
  have hlength := cutBlock_length _hstart _hend
  omega

def block : Bytes := titleMarkerStart ++ [10] ++ titleMarkerLine ++ [10] ++ titleMarkerEnd ++ [10]

/-- The text in front of the block, on lines of its own. -/
def withLineEnd (clean : Bytes) : Bytes := if clean ≠ [] ∧ clean.getLast? ≠ some 10 then clean ++ [10] else clean

/-- What the file holds after an installation, unless the markers are malformed; a file that is not there is empty. -/
def installTitleMarker (file : Option Bytes) : Option Bytes :=
  let data := file.getD []
  if hasMalformedTitleMarker data = true then none else some (withLineEnd (removeTitleMarkerBytes data) ++ block)

/-- A file that is not there stays so. -/
def removeTitleMarker (file : Option Bytes) : Option (Option Bytes) :=
  match file with
  | none => some none
  | some data => if hasMalformedTitleMarker data = true then none else some (some (removeTitleMarkerBytes data))

/-! ## The markers -/

theorem start_eq : titleMarkerStart = 35 :: titleMarkerStart.tail := by decide

theorem end_eq : titleMarkerEnd = 35 :: titleMarkerEnd.tail := by decide

theorem cut_start {front : Bytes} (hfree : ¬titleMarkerStart <:+: front) (rest : Bytes) :
    cut titleMarkerStart (front ++ titleMarkerStart ++ rest) = some (front, rest) := by
  rw [start_eq] at hfree ⊢
  exact cut_append_self (by decide) hfree rest

theorem cut_start_skip {piece : Bytes} (h : 35 ∉ piece) (text : Bytes) :
    cut titleMarkerStart (piece ++ text) = (cut titleMarkerStart text).map fun (front, back) => (piece ++ front, back) := by
  rw [start_eq]
  exact cut_append_left h text

theorem cutBlock_eq (rest : Bytes) : cutBlock rest = (cut titleMarkerEnd rest).map fun (front, back) => (titleMarkerStart ++ front, back) := by
  have hother := @cut_other _ _ 35 titleMarkerEnd.tail titleMarkerStart.tail (by decide) (by decide) (by decide) rest
  rw [← start_eq, ← end_eq] at hother
  exact hother

section Loop

variable {text front rest block after : Bytes}

theorem remove_none (h : cut titleMarkerStart text = none) : removeTitleMarkerBytes text = text := by
  rw [removeTitleMarkerBytes]
  split <;> simp_all

theorem remove_open (h : cut titleMarkerStart text = some (front, rest)) (hend : cutBlock rest = none) : removeTitleMarkerBytes text = text := by
  rw [removeTitleMarkerBytes]
  split
  · rfl
  · split <;> simp_all

theorem remove_block (h : cut titleMarkerStart text = some (front, rest)) (hend : cutBlock rest = some (block, after)) :
    removeTitleMarkerBytes text = removeTitleMarkerBytes (front ++ dropLineEnd after) := by
  rw [removeTitleMarkerBytes]
  split
  · simp_all
  · split <;> simp_all

theorem malformed_none (h : cut titleMarkerStart text = none) : hasMalformedTitleMarker text = false := by
  rw [hasMalformedTitleMarker]
  split <;> simp_all

theorem malformed_open (h : cut titleMarkerStart text = some (front, rest)) (hend : cutBlock rest = none) : hasMalformedTitleMarker text = true := by
  rw [hasMalformedTitleMarker]
  split
  · simp_all
  · split <;> simp_all

theorem malformed_block (h : cut titleMarkerStart text = some (front, rest)) (hend : cutBlock rest = some (block, after)) :
    hasMalformedTitleMarker text =
      if titleMarkerStart <:+: block.drop titleMarkerStart.length then true else hasMalformedTitleMarker after := by
  rw [hasMalformedTitleMarker]
  split
  · simp_all
  · split <;> simp_all

theorem malformed_skip {piece : Bytes} (h : 35 ∉ piece) (text : Bytes) : hasMalformedTitleMarker (piece ++ text) = hasMalformedTitleMarker text := by
  have hskip := cut_start_skip h text
  cases hcut : cut titleMarkerStart text with
  | none =>
    rw [hcut, Option.map_none] at hskip
    rw [malformed_none hskip, malformed_none hcut]
  | some pieces =>
    rw [hcut, Option.map_some] at hskip
    cases hend : cutBlock pieces.2 with
    | none => rw [malformed_open hskip hend, malformed_open hcut hend]
    | some more => rw [malformed_block hskip hend, malformed_block hcut hend]

theorem malformed_dropLineEnd (text : Bytes) : hasMalformedTitleMarker (dropLineEnd text) = hasMalformedTitleMarker text := by
  obtain ⟨eol, heol, heq⟩ := dropLineEnd_split text
  conv_rhs => rw [heq]
  exact (malformed_skip heol _).symm

end Loop

/-! ## What stands outside the blocks -/

/-- The text without its blocks, found one behind the other. -/
def outside (text : Bytes) : Bytes :=
  match _hstart : cut titleMarkerStart text with
  | none => text
  | some (front, rest) =>
    match _hend : cutBlock rest with
    | none => text
    | some (_, after) => front ++ outside (dropLineEnd after)
termination_by text.length
decreasing_by
  have hlength := cutBlock_length _hstart _hend
  have hdrop := dropLineEnd_length after
  omega

section Outside

variable {text front rest block after : Bytes}

theorem outside_none (h : cut titleMarkerStart text = none) : outside text = text := by
  rw [outside]
  split <;> simp_all

theorem outside_block (h : cut titleMarkerStart text = some (front, rest)) (hend : cutBlock rest = some (block, after)) :
    outside text = front ++ outside (dropLineEnd after) := by
  rw [outside]
  split
  · simp_all
  · split <;> simp_all

/-- What is well formed has no start marker, or a block and behind it what is well formed. -/
theorem wellFormed_cases (h : hasMalformedTitleMarker text = false) : cut titleMarkerStart text = none ∨
    ∃ front rest block after, cut titleMarkerStart text = some (front, rest) ∧ cutBlock rest = some (block, after) ∧
      hasMalformedTitleMarker (dropLineEnd after) = false := by
  cases hcut : cut titleMarkerStart text with
  | none => exact .inl rfl
  | some pieces =>
    cases hend : cutBlock pieces.2 with
    | none =>
      rw [malformed_open hcut hend] at h
      cases h
    | some more =>
      rw [malformed_block hcut hend] at h
      split at h
      · cases h
      · exact .inr ⟨pieces.1, pieces.2, more.1, more.2, rfl, hend, (malformed_dropLineEnd _).trans h⟩

/-- Where the pieces outside make up no start marker, taking out the blocks leaves just them. -/
theorem remove_append (n : Nat) : ∀ (text before : Bytes), text.length ≤ n → hasMalformedTitleMarker text = false →
    ¬titleMarkerStart <:+: before ++ outside text → removeTitleMarkerBytes (before ++ text) = before ++ outside text := by
  induction n with
  | zero =>
    intro text before hn _ hfree
    cases List.length_eq_zero_iff.1 (Nat.le_zero.1 hn)
    have hnil : outside [] = [] := outside_none (by decide)
    rw [hnil] at hfree ⊢
    exact remove_none (cut_eq_none.2 hfree)
  | succ n ih =>
    intro text before hn hwell hfree
    rcases wellFormed_cases hwell with hcut | ⟨front, rest, block, after, hcut, hend, hafter⟩
    · rw [outside_none hcut] at hfree ⊢
      exact remove_none (cut_eq_none.2 hfree)
    · have hlength := cutBlock_length hcut hend
      have hdrop := dropLineEnd_length after
      rw [outside_block hcut hend, ← List.append_assoc] at hfree ⊢
      have hfront : ¬titleMarkerStart <:+: before ++ front := fun h => hfree (h.trans (List.prefix_append _ _).isInfix)
      have hcut' : cut titleMarkerStart (before ++ text) = some (before ++ front, rest) := by
        rw [cut_some hcut, ← List.append_assoc, ← List.append_assoc]
        exact cut_start hfront rest
      rw [remove_block hcut' hend]
      exact ih (dropLineEnd after) (before ++ front) (by omega) hafter hfree

theorem remove_eq_outside (hwell : hasMalformedTitleMarker text = false) (hfree : ¬titleMarkerStart <:+: outside text) :
    removeTitleMarkerBytes text = outside text :=
  remove_append text.length text [] le_rfl hwell hfree

/-- A start marker that the loop leaves has no end marker behind it. -/
theorem malformed_of_left (text : Bytes) (h : titleMarkerStart <:+: removeTitleMarkerBytes text) :
    hasMalformedTitleMarker (removeTitleMarkerBytes text) = true := by
  induction text using removeTitleMarkerBytes.induct with
  | case1 text hcut =>
    rw [remove_none hcut] at h
    exact absurd h (cut_eq_none.1 hcut)
  | case2 text front rest hcut hend =>
    rw [remove_open hcut hend]
    exact malformed_open hcut hend
  | case3 text front rest hcut block after hend ih =>
    rw [remove_block hcut hend] at h ⊢
    exact ih h

end Outside

/-! ## Sequences of operations -/

inductive Op where
  | install
  | remove
  deriving DecidableEq, Repr

/-- An operation that is refused leaves the file. -/
def Op.run (file : Option Bytes) : Op → Option Bytes
  | .install => (installTitleMarker file).elim file some
  | .remove => (removeTitleMarker file).getD file

/-- The one content is the other, or that with a line end behind it. -/
def UpToNewline (text other : Bytes) : Prop := text = other ∨ text = other ++ [10]

/-- Removing takes the blocks and nothing else, installing does so once and leaves what is outside, removing takes back what was installed,
and no sequence of the two makes the markers malformed. -/
structure Reversible (text : Bytes) : Prop where
  removes : removeTitleMarker (some text) = some (some (outside text))
  installs : ∃ once, installTitleMarker (some text) = some once ∧ installTitleMarker (some once) = some once ∧ UpToNewline (outside once) (outside text)
  undone : ∀ once, installTitleMarker (some text) = some once → ∃ left alone, removeTitleMarker (some once) = some (some left) ∧
    removeTitleMarker (some text) = some (some alone) ∧ UpToNewline left alone
  wellFormed : ∀ (ops : List Op) (text' : Bytes), ops.foldl Op.run (some text) = some text' → hasMalformedTitleMarker text' = false

/-- The markers are in pairs, and what is outside of them makes up no start marker. -/
structure Good (text : Bytes) : Prop where
  wellFormed : hasMalformedTitleMarker text = false
  free : ¬titleMarkerStart <:+: outside text

section Good

variable {text : Bytes}

theorem Good.remove (h : Good text) : removeTitleMarkerBytes text = outside text := remove_eq_outside h.wellFormed h.free

theorem outside_of_free (h : ¬titleMarkerStart <:+: text) : outside text = text := outside_none (cut_eq_none.2 h)

theorem good_of_free (h : ¬titleMarkerStart <:+: text) : Good text where
  wellFormed := malformed_none (cut_eq_none.2 h)
  free := by rwa [outside_of_free h]

theorem withLineEnd_upTo (text : Bytes) : UpToNewline (withLineEnd text) text := by
  unfold withLineEnd
  split
  · exact .inr rfl
  · exact .inl rfl

theorem withLineEnd_withLineEnd (text : Bytes) : withLineEnd (withLineEnd text) = withLineEnd text := by
  by_cases h : text ≠ [] ∧ text.getLast? ≠ some 10
  · have honce : withLineEnd text = text ++ [10] := if_pos h
    rw [honce]
    exact if_neg fun h => h.2 List.getLast?_concat
  · have honce : withLineEnd text = text := if_neg h
    rw [honce, honce]

/-- No start marker ends in a line end. -/
theorem free_withLineEnd (h : ¬titleMarkerStart <:+: text) : ¬titleMarkerStart <:+: withLineEnd text := by
  rcases withLineEnd_upTo text with heq | heq
  · rwa [heq]
  · rw [heq, List.infix_concat_iff]
    rintro (hsuffix | hinfix)
    · rcases List.suffix_concat_iff.1 hsuffix with hnil | ⟨rest, hrest, -⟩
      · exact absurd hnil (by decide)
      · have hlast := congrArg List.getLast? hrest
        rw [List.getLast?_concat] at hlast
        exact absurd hlast (by decide)
    · exact h hinfix

/-- A text and the block behind it: the block is the only one. -/
theorem outside_append_block (h : ¬titleMarkerStart <:+: text) :
    hasMalformedTitleMarker (text ++ block) = false ∧ outside (text ++ block) = text := by
  have hblock : block = titleMarkerStart ++ ([10] ++ titleMarkerLine ++ [10] ++ titleMarkerEnd ++ [10]) := by simp only [block, List.append_assoc]
  have hcut := cut_start h ([10] ++ titleMarkerLine ++ [10] ++ titleMarkerEnd ++ [10])
  rw [List.append_assoc, ← hblock] at hcut
  have hend : cutBlock ([10] ++ titleMarkerLine ++ [10] ++ titleMarkerEnd ++ [10]) = some (titleMarkerStart ++ ([10] ++ titleMarkerLine ++ [10]), [10]) := by
    rw [cutBlock_eq, show cut titleMarkerEnd ([10] ++ titleMarkerLine ++ [10] ++ titleMarkerEnd ++ [10]) =
      some ([10] ++ titleMarkerLine ++ [10], [10]) by decide]
    rfl
  constructor
  · rw [malformed_block hcut hend, List.drop_left, if_neg (by decide)]
    exact malformed_none (by decide)
  · rw [outside_block hcut hend, show dropLineEnd [10] = [] from rfl, outside_none (by decide), List.append_nil]

theorem Good.install (h : Good text) : installTitleMarker (some text) = some (withLineEnd (outside text) ++ block) := by
  rw [installTitleMarker, Option.getD_some, if_neg (by simp [h.wellFormed]), h.remove]

theorem Good.removeFile (h : Good text) : removeTitleMarker (some text) = some (some (outside text)) := by
  rw [removeTitleMarker, if_neg (by simp [h.wellFormed]), h.remove]

theorem Good.withBlock (h : Good text) : Good (withLineEnd (outside text) ++ block) := by
  have hfree := free_withLineEnd h.free
  obtain ⟨hwell, hout⟩ := outside_append_block hfree
  exact ⟨hwell, by rwa [hout]⟩

theorem Good.run (h : Good text) (op : Op) : ∃ text', op.run (some text) = some text' ∧ Good text' := by
  cases op with
  | install => exact ⟨_, by rw [Op.run, h.install, Option.elim_some], h.withBlock⟩
  | remove => exact ⟨_, by rw [Op.run, h.removeFile, Option.getD_some], good_of_free h.free⟩

theorem Good.runs (h : Good text) (ops : List Op) : ∃ text', ops.foldl Op.run (some text) = some text' ∧ Good text' := by
  induction ops generalizing text with
  | nil => exact ⟨text, rfl, h⟩
  | cons op ops ih =>
    obtain ⟨text', hrun, hgood⟩ := h.run op
    rw [List.foldl_cons, hrun]
    exact ih hgood

theorem Good.reversible (h : Good text) : Reversible text := by
  have hout := (outside_append_block (free_withLineEnd h.free)).2
  refine ⟨h.removeFile, ⟨_, h.install, ?_, ?_⟩, fun once honce => ?_, fun ops text' hrun => ?_⟩
  · rw [h.withBlock.install, hout, withLineEnd_withLineEnd]
  · rw [hout]
    exact withLineEnd_upTo _
  · rw [h.install] at honce
    cases honce
    refine ⟨_, _, h.withBlock.removeFile, h.removeFile, ?_⟩
    rw [hout]
    exact withLineEnd_upTo _
  · obtain ⟨text'', hrun', hgood⟩ := h.runs ops
    rw [hrun] at hrun'
    cases hrun'
    exact hgood.wellFormed

end Good

/-- For every content with well-formed markers the edits are reversible exactly where the pieces outside make up no start marker. -/
theorem reversible_iff (text : Bytes) (hwell : hasMalformedTitleMarker text = false) :
    Reversible text ↔ ¬titleMarkerStart <:+: outside text := by
  constructor
  · intro h hleft
    have hremoved := h.removes
    rw [removeTitleMarker, if_neg (by simp [hwell])] at hremoved
    have heq := Option.some.inj (Option.some.inj hremoved)
    have hmalformed := malformed_of_left text (by rwa [heq])
    have hkept := h.wellFormed [.remove] (removeTitleMarkerBytes text) (by
      rw [List.foldl_cons, List.foldl_nil, Op.run, h.removes, heq]
      rfl)
    rw [hkept] at hmalformed
    cases hmalformed
  · exact fun hfree => Good.reversible ⟨hwell, hfree⟩

theorem reversible_plain : Reversible (ascii "set -g mouse on") ↔ ¬titleMarkerStart <:+: outside (ascii "set -g mouse on") :=
  reversible_iff _ (malformed_none (by decide))

/-- What is behind the first block: the rest of a start marker, a line of the user, and another block. -/
def behind : Bytes := ascii "agent-title >>> bind x " ++ titleMarkerStart ++ titleMarkerEnd

/-- A block within a start marker. -/
def splitMarker : Bytes := ascii "# >>> purdex " ++ titleMarkerStart ++ (titleMarkerEnd ++ behind)

theorem splitMarker_cut : cut titleMarkerStart splitMarker = some (ascii "# >>> purdex ", titleMarkerEnd ++ behind) := by decide

theorem splitMarker_end : cutBlock (titleMarkerEnd ++ behind) = some (titleMarkerStart, behind) := by decide

theorem splitMarker_wellFormed : hasMalformedTitleMarker splitMarker = false := by
  have hbehind : hasMalformedTitleMarker behind = false := by
    have hcut : cut titleMarkerStart behind = some (ascii "agent-title >>> bind x ", titleMarkerEnd) := by decide
    have hend : cutBlock titleMarkerEnd = some (titleMarkerStart, []) := by decide
    rw [malformed_block hcut hend, if_neg (by decide)]
    exact malformed_none (by decide)
  rw [malformed_block splitMarker_cut splitMarker_end, if_neg (by decide), hbehind]

/-- All of it is taken out, with the line that stood between the blocks. -/
theorem splitMarker_removed : removeTitleMarkerBytes splitMarker = [] := by
  have hdrop : dropLineEnd behind = behind := by decide
  have hcut : cut titleMarkerStart (ascii "# >>> purdex " ++ behind) = some ([], ascii " bind x " ++ titleMarkerStart ++ titleMarkerEnd) := by decide
  have hend : cutBlock (ascii " bind x " ++ titleMarkerStart ++ titleMarkerEnd) =
      some (titleMarkerStart ++ (ascii " bind x " ++ titleMarkerStart), []) := by decide
  rw [remove_block splitMarker_cut splitMarker_end, hdrop, remove_block hcut hend]
  exact remove_none (by decide)

theorem splitMarker_lost : hasMalformedTitleMarker splitMarker = false ∧ ¬Reversible splitMarker := by
  refine ⟨splitMarker_wellFormed, fun h => ?_⟩
  have hremoved := h.removes
  rw [removeTitleMarker, if_neg (by simp [splitMarker_wellFormed]), splitMarker_removed, outside_block splitMarker_cut splitMarker_end] at hremoved
  have hnil := Option.some.inj (Option.some.inj hremoved)
  exact absurd (List.append_eq_nil_iff.1 hnil.symm).1 (by decide)

end Purdex.Agent.TitleMarker
