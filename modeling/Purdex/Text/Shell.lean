/-
The words of a shell command where quoting alone says what they are, and a text quoted so that it is one word.
-/
import Mathlib.Data.List.Basic

namespace Shell

/-! ## Words -/

/-- How the next character is read. -/
inductive Quoting
  | bare
  | escaped
  | single
  | double
  | doubleEscaped
  deriving Repr, DecidableEq

/-- The words so far, and the one that is read, if one has begun. -/
structure Reader where
  words : List String
  word : Option (List Char)
  quoting : Quoting
  deriving DecidableEq

def Reader.push (r : Reader) (cs : List Char) : Reader := { r with word := some (r.word.getD [] ++ cs) }

def Reader.flush (r : Reader) : Reader :=
  match r.word with
  | none => r
  | some cs => { r with words := r.words ++ [String.ofList cs], word := none }

/-- What is more than itself outside quotes. -/
def special : List Char := ['|', '&', ';', '<', '>', '(', ')', '$', '`', '\n', '*', '?', '[', '#', '~', '=', '%']

/-- `none` is where words depend on more than quotes. -/
def Reader.step (r : Reader) (c : Char) : Option Reader :=
  match r.quoting with
  | .bare =>
    if c = '\'' then some { r.push [] with quoting := .single }
    else if c = '"' then some { r.push [] with quoting := .double }
    else if c = '\\' then some { r with quoting := .escaped }
    else if c = ' ' ∨ c = '\t' then some r.flush
    else if c ∈ special then none
    else some (r.push [c])
  -- a newline that is escaped goes with its backslash
  | .escaped => some { (if c = '\n' then r else r.push [c]) with quoting := .bare }
  | .single => if c = '\'' then some { r with quoting := .bare } else some (r.push [c])
  | .double =>
    if c = '"' then some { r with quoting := .bare }
    else if c = '\\' then some { r with quoting := .doubleEscaped }
    else if c = '$' ∨ c = '`' then none
    else some (r.push [c])
  -- any other backslash within double quotes stands for itself
  | .doubleEscaped =>
    if c ∈ ['$', '`', '"', '\\'] then some { r.push [c] with quoting := .double }
    else some { (if c = '\n' then r else r.push ['\\', c]) with quoting := .double }

/-- The words behind those that there are. -/
def scan (before : List String) (line : List Char) : Option (List String) :=
  (line.foldlM Reader.step ⟨before, none, .bare⟩).bind fun r => if r.quoting = .bare then some r.flush.words else none

def words (line : String) : Option (List String) := scan [] line.toList

/-! ## One word -/

/-- A text that is this one word. -/
def Reads (text : List Char) (word : String) : Prop :=
  ∀ before, text.foldlM Reader.step ⟨before, none, .bare⟩ = some ⟨before, some word.toList, .bare⟩

def quoteChar (c : Char) : List Char := if c = '\'' then ['\'', '\\', '\'', '\''] else [c]

/-- Within single quotes, where each of its own ends them and is escaped. -/
def quote (s : String) : String := "'" ++ String.ofList (s.toList.flatMap quoteChar) ++ "'"

section Words

variable {text rest : List Char} {word : String} {before : List String}

theorem scan_cons (h : Reads text word) : scan before (text ++ ' ' :: rest) = scan (before ++ [word]) rest := by
  have hblank : Reader.step ⟨before, some word.toList, .bare⟩ ' ' = some ⟨before ++ [word], none, .bare⟩ := by
    change some (Reader.mk (before ++ [String.ofList word.toList]) none .bare) = _
    rw [String.ofList_toList]
  rw [scan, List.foldlM_append, h before, Option.bind_eq_bind, Option.bind_some, List.foldlM_cons, hblank]
  rfl

theorem scan_last (h : Reads text word) : scan before text = some (before ++ [word]) := by
  rw [scan, h before, Option.bind_some, if_pos rfl]
  change some (before ++ [String.ofList word.toList]) = _
  rw [String.ofList_toList]

theorem foldlM_quoteChar (cs : List Char) (acc : List Char) : (cs.flatMap quoteChar).foldlM Reader.step ⟨before, some acc, .single⟩ =
    some ⟨before, some (acc ++ cs), .single⟩ := by
  induction cs generalizing acc with
  | nil => simp
  | cons c cs ih =>
    have hchar : (quoteChar c).foldlM Reader.step ⟨before, some acc, .single⟩ = some ⟨before, some (acc ++ [c]), .single⟩ := by
      by_cases hc : c = '\''
      · subst hc
        simp [quoteChar, Reader.step, Reader.push]
      · simp [quoteChar, Reader.step, Reader.push, hc]
    rw [List.flatMap_cons, List.foldlM_append, hchar, Option.bind_eq_bind, Option.bind_some, ih, List.append_assoc, List.singleton_append]

/-- Whatever a text has in it, quoted it is one word. -/
theorem reads_quote (s : String) : Reads (quote s).toList s := by
  intro before
  have hlist : (quote s).toList = '\'' :: (s.toList.flatMap quoteChar ++ ['\'']) := by
    simp [quote, String.toList_append]
  have hopen : Reader.step ⟨before, none, .bare⟩ '\'' = some ⟨before, some [], .single⟩ := rfl
  rw [hlist, List.foldlM_cons, hopen, Option.bind_eq_bind, Option.bind_some, List.foldlM_append, foldlM_quoteChar,
    Option.bind_eq_bind, Option.bind_some, List.nil_append]
  rfl

theorem foldlM_plain {cs : List Char} (h : ∀ c ∈ cs, c ∉ '\'' :: '"' :: '\\' :: ' ' :: '\t' :: special) (acc : List Char) :
    cs.foldlM Reader.step ⟨before, some acc, .bare⟩ = some ⟨before, some (acc ++ cs), .bare⟩ := by
  induction cs generalizing acc with
  | nil => simp
  | cons c cs ih =>
    obtain ⟨hc, hcs⟩ := List.forall_mem_cons.1 h
    simp only [List.mem_cons, not_or] at hc
    obtain ⟨hsingle, hdouble, hescape, hspace, htab, hspecial⟩ := hc
    have hstep : Reader.step ⟨before, some acc, .bare⟩ c = some ⟨before, some (acc ++ [c]), .bare⟩ := by
      simp [Reader.step, Reader.push, hsingle, hdouble, hescape, hspace, htab, hspecial]
    rw [List.foldlM_cons, hstep, Option.bind_eq_bind, Option.bind_some, ih hcs, List.append_assoc, List.singleton_append]

theorem reads_plain {s : String} (hne : s ≠ "") (hplain : s.toList.all (· ∉ '\'' :: '"' :: '\\' :: ' ' :: '\t' :: special) = true) :
    Reads s.toList s := by
  intro before
  have h : ∀ c ∈ s.toList, c ∉ '\'' :: '"' :: '\\' :: ' ' :: '\t' :: special := fun c hc => of_decide_eq_true (List.all_eq_true.1 hplain c hc)
  cases hs : s.toList with
  | nil => exact absurd (String.toList_eq_nil_iff.1 hs) hne
  | cons c cs =>
    have hall : s.toList.foldlM Reader.step ⟨before, some [], .bare⟩ = _ := foldlM_plain h []
    rw [hs] at hall
    have hc := h c (hs ▸ List.mem_cons_self)
    have hstart : Reader.step ⟨before, none, .bare⟩ c = Reader.step ⟨before, some [], .bare⟩ c := by
      simp only [List.mem_cons, not_or] at hc
      obtain ⟨hsingle, hdouble, hescape, hspace, htab, -⟩ := hc
      simp [Reader.step, Reader.push, hsingle, hdouble, hescape, hspace, htab]
    rw [List.foldlM_cons, hstart, ← List.foldlM_cons, hall]
    rfl

end Words

end Shell
