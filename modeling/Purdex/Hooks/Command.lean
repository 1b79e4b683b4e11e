/-
The commands in a hook file: how one is split into words, which of them are ours, and the one that is written.
-/
import Purdex.Hooks.Catalog

namespace Purdex.Hooks

/-! ## Words -/

/-- `filepath.Base`, with slashes. -/
def base (path : String) : String :=
  if path = "" then "."
  else
    match ((path.toList.reverse.dropWhile (· = '/')).takeWhile (· ≠ '/')).reverse with
    | [] => "/"
    | name => String.ofList name

/-- The words so far, the one that is read, and the quote it is read within. -/
structure Lexer where
  tokens : List String
  cur : List Char
  quoteChar : Option Char
  deriving DecidableEq

def Lexer.flush (s : Lexer) : Lexer :=
  if s.cur = [] then s else { s with tokens := s.tokens ++ [String.ofList s.cur], cur := [] }

def Lexer.step (s : Lexer) (c : Char) : Lexer :=
  match s.quoteChar with
  | some quote => if c = quote then { s with quoteChar := none } else { s with cur := s.cur ++ [c] }
  | none =>
    if c = '"' ∨ c = '\'' then { s with quoteChar := some c }
    else if c = ' ' ∨ c = '\t' ∨ c = '\n' then s.flush
    else { s with cur := s.cur ++ [c] }

/-- No quote and no blank is part of a character of more than one byte. -/
def tokenizeCommand (cmd : String) : List String := (cmd.toList.foldl Lexer.step ⟨[], [], none⟩).flush.tokens

def tokenizeCCCommand : String → List String := tokenizeCommand

def tokenizeCodexCommand : String → List String := tokenizeCommand

/-- What was read before stays in front. -/
theorem foldl_step_tokens (before : List String) (cs : List Char) (s : Lexer) :
    cs.foldl Lexer.step { s with tokens := before ++ s.tokens } =
      { cs.foldl Lexer.step s with tokens := before ++ (cs.foldl Lexer.step s).tokens } := by
  induction cs generalizing s with
  | nil => rfl
  | cons c cs ih =>
    have hstep : Lexer.step { s with tokens := before ++ s.tokens } c = { s.step c with tokens := before ++ (s.step c).tokens } := by
      obtain ⟨tokens, cur, quoteChar⟩ := s
      unfold Lexer.step Lexer.flush
      cases quoteChar with
      | some quote =>
        simp only
        split <;> rfl
      | none =>
        simp only
        split
        · rfl
        · split
          · split
            · rfl
            · simp only [List.append_assoc]
          · rfl
    rw [List.foldl_cons, hstep, ih, List.foldl_cons]

theorem foldl_step_quoted {quote : Char} {cs : List Char} (h : quote ∉ cs) (tokens : List String) (cur : List Char) :
    cs.foldl Lexer.step ⟨tokens, cur, some quote⟩ = ⟨tokens, cur ++ cs, some quote⟩ := by
  induction cs generalizing cur with
  | nil => simp
  | cons c cs ih =>
    obtain ⟨hc, hcs⟩ := List.ne_and_not_mem_of_not_mem_cons h
    have hstep : Lexer.step ⟨tokens, cur, some quote⟩ c = ⟨tokens, cur ++ [c], some quote⟩ := if_neg (Ne.symm hc)
    rw [List.foldl_cons, hstep, ih hcs, List.append_assoc, List.singleton_append]

/-- What is read as one word before a blank comes out in front of the rest. -/
theorem tokenize_word {cs : List Char} {word : String} (hword : word ≠ "") (hread : cs.foldl Lexer.step ⟨[], [], none⟩ = ⟨[], word.toList, none⟩)
    {cmd rest : String} (hcmd : cmd.toList = cs ++ ' ' :: rest.toList) : tokenizeCommand cmd = word :: tokenizeCommand rest := by
  have hne : word.toList ≠ [] := fun h => hword (String.toList_eq_nil_iff.1 h)
  have hblank : Lexer.step ⟨[], word.toList, none⟩ ' ' = ⟨[word], [], none⟩ := by
    change Lexer.flush _ = _
    rw [Lexer.flush, if_neg hne, String.ofList_toList, List.nil_append]
  unfold tokenizeCommand
  rw [hcmd, List.foldl_append, hread, List.foldl_cons, hblank]
  have hrest := foldl_step_tokens [word] rest.toList ⟨[], [], none⟩
  rw [List.append_nil] at hrest
  rw [hrest]
  unfold Lexer.flush
  simp only
  split <;> rfl

/-- A quoted word comes out as it is, whatever blanks it has. -/
theorem tokenize_quoted {word : String} (hword : word ≠ "") (hquote : '"' ∉ word.toList) (rest : String) :
    tokenizeCommand ("\"" ++ word ++ "\" " ++ rest) = word :: tokenizeCommand rest := by
  have hopen : Lexer.step ⟨[], [], none⟩ '"' = ⟨[], [], some '"'⟩ := rfl
  have hclose : Lexer.step ⟨[], [] ++ word.toList, some '"'⟩ '"' = ⟨[], word.toList, none⟩ := rfl
  have hread : ('"' :: (word.toList ++ ['"'])).foldl Lexer.step ⟨[], [], none⟩ = ⟨[], word.toList, none⟩ := by
    rw [List.foldl_cons, hopen, List.foldl_append, foldl_step_quoted hquote, List.foldl_cons, hclose, List.foldl_nil]
  exact tokenize_word hword hread (by simp [String.toList_append])

/-- A word that needs no quotes. -/
def plain (word : String) : Bool := word ≠ "" && word.toList.all fun c => !(c = '"' || c = '\'' || c = ' ' || c = '\t' || c = '\n')

theorem foldl_step_plain {word : String} (h : plain word = true) : word.toList.foldl Lexer.step ⟨[], [], none⟩ = ⟨[], word.toList, none⟩ := by
  have hall : ∀ (cs cur : List Char), (∀ c ∈ cs, ¬(c = '"' ∨ c = '\'') ∧ ¬(c = ' ' ∨ c = '\t' ∨ c = '\n')) →
      cs.foldl Lexer.step ⟨[], cur, none⟩ = ⟨[], cur ++ cs, none⟩ := by
    intro cs
    induction cs with
    | nil => simp
    | cons c cs ih =>
      intro cur hcs
      obtain ⟨⟨hquote, hblank⟩, hrest⟩ := List.forall_mem_cons.1 hcs
      have hstep : Lexer.step ⟨[], cur, none⟩ c = ⟨[], cur ++ [c], none⟩ := by
        unfold Lexer.step
        simp only
        rw [if_neg hquote, if_neg hblank]
      rw [List.foldl_cons, hstep, ih _ hrest, List.append_assoc, List.singleton_append]
  refine hall _ _ fun c hc => ?_
  have hplain := List.all_eq_true.1 (Bool.and_eq_true_iff.1 h).2 c hc
  simp only [Bool.not_eq_true', Bool.or_eq_false_iff, decide_eq_false_iff_not] at hplain
  tauto

theorem tokenize_plain {word : String} (h : plain word = true) (rest : String) :
    tokenizeCommand (word ++ " " ++ rest) = word :: tokenizeCommand rest :=
  tokenize_word (of_decide_eq_true (Bool.and_eq_true_iff.1 h).1) (foldl_step_plain h) (by simp [String.toList_append])

theorem tokenize_last {word : String} (h : plain word = true) : tokenizeCommand word = [word] := by
  have hne : word.toList ≠ [] := fun hnil => of_decide_eq_true (Bool.and_eq_true_iff.1 h).1 (String.toList_eq_nil_iff.1 hnil)
  rw [tokenizeCommand, foldl_step_plain h, Lexer.flush, if_neg hne, String.ofList_toList, List.nil_append]

/-! ## Ours -/

/-- `--agent` is followed by the agent somewhere. -/
def hasAgent (agent : String) : List String → Bool
  | flag :: name :: rest => (flag = "--agent" && name = agent) || hasAgent agent (name :: rest)
  | _ => false

/-- A call of `pdx hook` for the agent, whose last word is one of the names. -/
def isPdxCommand (agent : String) (eventOK : String → Bool) (cmd : String) : Bool :=
  match tokenizeCommand cmd with
  | first :: second :: rest =>
    base first = "pdx" && second = "hook" && hasAgent agent rest && eventOK ((first :: second :: rest).getLast (List.cons_ne_nil _ _))
  | _ => false

def isPdxCommandCCKnownEvent (cmd : String) (known : List String) : Bool := isPdxCommand "cc" (known.contains ·) cmd

def isPdxCommandCodexOwnedEvent (cmd : String) (owned : List String) : Bool := isPdxCommand "codex" (owned.contains ·) cmd

/-- The command that is installed. -/
def hookCommand (pdxPath agent event : String) : String := "\"" ++ pdxPath ++ "\" " ++ ("hook --agent " ++ agent ++ " " ++ event)

/-- What is installed is told for ours again, wherever pdx is, blanks in the path or none. -/
theorem isPdxCommand_hookCommand {pdxPath agent event : String} {owned : List String} (hbase : base pdxPath = "pdx")
    (hquote : '"' ∉ pdxPath.toList) (howned : event ∈ owned)
    (hwords : tokenizeCommand ("hook --agent " ++ agent ++ " " ++ event) = ["hook", "--agent", agent, event]) :
    isPdxCommand agent (owned.contains ·) (hookCommand pdxPath agent event) = true := by
  have hne : pdxPath ≠ "" := by
    rintro rfl
    exact absurd hbase (by decide)
  unfold isPdxCommand hookCommand
  rw [tokenize_quoted hne hquote, hwords]
  simp [hbase, hasAgent, howned]

end Purdex.Hooks
