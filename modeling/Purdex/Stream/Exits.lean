/-
How the exit of a relay's process is classified: the relay passes on its lines and then its exit, the daemon parks the first
result line under the session's code, and looks there when the exit comes.
-/
import Mathlib.Data.List.TakeWhile
import Purdex.Conc.Stages

namespace Purdex.Stream.Exits

open Conc

/-! ## The relay -/

/-- What a result line says. -/
structure ResultEvent where
  isError : Bool
  subtype : String
  deriving Repr, DecidableEq

/-- A line of the process: how long it is, and what it says where it is a compact JSON object whose type is `result`. -/
structure Line where
  size : Nat
  result : Option ResultEvent
  deriving Repr, DecidableEq

structure TerminalEvent where
  exitCode : Int
  signaled : Bool
  deriving Repr, DecidableEq

inductive Frame
  | text (line : Line)
  | terminal (ev : TerminalEvent)

/-- The scanner's buffer, which has to hold a line. -/
def maxLine : Nat := 1024 * 1024

/-- The scanner stops at a line that is too long, and says so to nobody. -/
def scan (lines : List Line) : List Line := lines.takeWhile (·.size < maxLine)

/-- The line by line copy, and the exit behind it. A connection that breaks cuts it short. -/
def frames (lines : List Line) (exit : TerminalEvent) : List Frame := (scan lines).map .text ++ [.terminal exit]

def firstResult (lines : List Line) : Option ResultEvent := lines.findSome? (·.result)

/-! ## The outcome -/

structure ResultOutcome where
  hasResult : Bool
  isError : Bool
  subtype : String
  deriving Repr, DecidableEq

inductive Status
  | completed
  | failed
  deriving Repr, DecidableEq

inductive OutcomeSource
  | result
  | exitOnly
  deriving Repr, DecidableEq

def classifyOutcome (exitCode : Int) (signaled : Bool) (res : ResultOutcome) : Status × OutcomeSource :=
  let source := if res.hasResult then OutcomeSource.result else .exitOnly
  if signaled = true ∨ exitCode ≠ 0 then (.failed, source)
  else if res.hasResult = true ∧ res.isError = true then (.failed, .result)
  else (.completed, source)

/-- What the handler makes of what it finds. -/
def outcomeOf (res : Option ResultEvent) : ResultOutcome :=
  match res with
  | none => ⟨false, false, ""⟩
  | some res => ⟨true, res.isError, res.subtype⟩

/-! ## The daemon -/

/-- What was done with the parked results, and what the handler of an exit found. -/
inductive Entry
  | captured (i : Nat) (code : String) (ev : ResultEvent)
  | cleared (i : Nat) (code : String)
  | handled (i : Nat) (found : Option (Nat × ResultEvent))
  deriving DecidableEq

/-- A parked result stands with the connection it came from, which the daemon does not note; and neither does it keep a log. -/
structure Daemon where
  sessions : String → Option Nat
  results : String → Option (Nat × ResultEvent)
  log : List Entry

inductive HandlerStage
  | connecting
  | refused
  | writing
  | disconnecting
  | unregistered
  | cleared
  deriving Repr, DecidableEq

/-- The connection of one relay: its handler, whose loop writes to the relay and which then cleans up, and its reader. -/
structure RelayConn where
  code : String
  lines : List Line
  exit : TerminalEvent
  stage : HandlerStage
  pos : Nat
  resultCaptured : Bool
  reads : Bool

inductive Turn
  | register
  | writerEnds
  | unregister
  | clear
  | read
  | readerEnds
  deriving Repr, DecidableEq

/-- One frame: a result that is the first is parked, whoever else has parked one there. -/
def onFrame (i : Nat) (t : RelayConn) (d : Daemon) : Frame → RelayConn × Daemon
  | .text line =>
    match line.result with
    | none => ({ t with pos := t.pos + 1 }, d)
    | some ev =>
      if t.resultCaptured then ({ t with pos := t.pos + 1 }, d)
      else
        ({ t with pos := t.pos + 1, resultCaptured := true },
          { d with results := Function.update d.results t.code (some (i, ev)), log := .captured i t.code ev :: d.log })
  | .terminal _ => ({ t with pos := t.pos + 1 }, { d with log := .handled i (d.results t.code) :: d.log })

/-- The writer's loop may end at any time, for a write fails; its reader reads on. -/
def handleCliBridge (i : Nat) (turn : Turn) (t : RelayConn) (d : Daemon) : Option (RelayConn × Daemon) :=
  match turn with
  | .register =>
    if t.stage = .connecting then
      match d.sessions t.code with
      | some _ => some ({ t with stage := .refused }, d)
      | none => some ({ t with stage := .writing, reads := true }, { d with sessions := Function.update d.sessions t.code (some i) })
    else none
  | .writerEnds => if t.stage = .writing then some ({ t with stage := .disconnecting }, d) else none
  | .unregister =>
    if t.stage = .disconnecting then
      some ({ t with stage := .unregistered }, { d with sessions := Function.update d.sessions t.code none })
    else none
  | .clear =>
    if t.stage = .unregistered then
      some ({ t with stage := .cleared },
        { d with results := Function.update d.results t.code none, log := .cleared i t.code :: d.log })
    else none
  | .read => if t.reads then ((frames t.lines t.exit)[t.pos]?).map (onFrame i t d) else none
  | .readerEnds => if t.reads then some ({ t with reads := false }, d) else none

def bridging : Stages Daemon RelayConn Turn Empty where
  act := handleCliBridge
  tick o := o.elim

abbrev Bridging := Staged Daemon RelayConn

def start : Bridging := ⟨⟨fun _ => none, fun _ => none, []⟩, []⟩

def RelayConn.Fresh (t : RelayConn) : Prop := t.stage = .connecting ∧ t.pos = 0 ∧ t.resultCaptured = false ∧ t.reads = false

instance (t : RelayConn) : Decidable t.Fresh := inferInstanceAs (Decidable (_ ∧ _))

def startsFresh (_ : Bridging) : Move RelayConn Turn Empty → Prop
  | .start t => t.Fresh
  | _ => True

/-- The runs of the daemon, with any relays under any codes. -/
abbrev BridgingRuns : Bridging → List (Moved Daemon RelayConn Turn Empty) → Prop := bridging.Runs (· = start) startsFresh

/-! ## What is parked -/

/-- What an entry writes under a code. -/
def Entry.writes (code : String) : Entry → Option (Option (Nat × ResultEvent))
  | .captured i c ev => if c = code then some (some (i, ev)) else none
  | .cleared _ c => if c = code then some none else none
  | .handled .. => none

/-- What the last write under a code left, newest entries first. -/
def parked (code : String) (log : List Entry) : Option (Nat × ResultEvent) := (log.findSome? (Entry.writes code)).join

theorem writes_eq_some {code : String} {e : Entry} {p : Nat × ResultEvent} :
    e.writes code = some (some p) ↔ e = .captured p.1 code p.2 := by
  cases e with
  | captured i c ev =>
    obtain ⟨j, ev'⟩ := p
    unfold Entry.writes
    by_cases hc : c = code <;> simp [hc]
  | cleared i c =>
    unfold Entry.writes
    by_cases hc : c = code <;> simp [hc]
  | handled i found => simp [Entry.writes]

theorem parked_eq_some {code : String} {log : List Entry} {p : Nat × ResultEvent} :
    parked code log = some p ↔
      ∃ later earlier, log = later ++ .captured p.1 code p.2 :: earlier ∧ ∀ e ∈ later, e.writes code = none := by
  unfold parked
  rw [Option.join_eq_some_iff, List.findSome?_eq_some_iff]
  constructor
  · rintro ⟨later, e, earlier, rfl, he, hlater⟩
    rw [writes_eq_some.1 he]
    exact ⟨later, earlier, rfl, hlater⟩
  · rintro ⟨later, earlier, rfl, hlater⟩
    exact ⟨later, _, earlier, rfl, writes_eq_some.2 rfl, hlater⟩

theorem parked_cons (code : String) (e : Entry) (log : List Entry) :
    parked code (e :: log) = match e.writes code with
      | some p => p
      | none => parked code log := by
  unfold parked
  rw [List.findSome?_cons]
  cases e.writes code <;> rfl

/-! ## The first result of what is passed on -/

theorem firstResult_initial {before lines : List Line} {ev : ResultEvent} (hinit : before <+: lines) (h : firstResult before = some ev) :
    firstResult lines = some ev := by
  obtain ⟨rest, rfl⟩ := hinit
  unfold firstResult at h ⊢
  rw [List.findSome?_append, h]
  rfl

/-- There is a result line, and up to the first one no line is too long. -/
def Fits (lines : List Line) : Prop :=
  ∃ before line after, lines = before ++ line :: after ∧ line.result.isSome ∧ (∀ l ∈ before, l.result = none) ∧
    ∀ l ∈ before ++ [line], l.size < maxLine

theorem firstResult_scan {lines : List Line} : Fits lines ↔ (firstResult (scan lines)).isSome := by
  constructor
  · rintro ⟨before, line, after, rfl, hresult, -, hsize⟩
    have hinit : before ++ [line] <+: scan (before ++ line :: after) := by
      have hall : ∀ l ∈ before ++ [line], decide (l.size < maxLine) = true := fun l hl => decide_eq_true (hsize l hl)
      have hsplit : before ++ line :: after = (before ++ [line]) ++ after := by simp
      rw [hsplit, scan, List.takeWhile_append_of_pos hall]
      exact List.prefix_append _ _
    have hsome : (firstResult (before ++ [line])).isSome := by
      rw [firstResult, List.findSome?_isSome_iff]
      exact ⟨line, by simp, hresult⟩
    obtain ⟨ev, hev⟩ := Option.isSome_iff_exists.1 hsome
    rw [firstResult_initial hinit hev]
    rfl
  · intro h
    obtain ⟨ev, hev⟩ := Option.isSome_iff_exists.1 h
    obtain ⟨before, line, after, hscan, hline, hbefore⟩ := List.findSome?_eq_some_iff.1 hev
    obtain ⟨rest, hrest⟩ := List.takeWhile_prefix (l := lines) (fun l => decide (l.size < maxLine))
    refine ⟨before, line, after ++ rest, ?_, by rw [hline]; rfl, hbefore, fun l hl => ?_⟩
    · rw [← hrest]
      change scan lines ++ rest = _
      rw [hscan]
      simp
    · have hin : l ∈ scan lines := by
        rw [hscan]
        simp only [List.mem_append, List.mem_cons] at hl ⊢
        tauto
      have htaken : l ∈ lines.takeWhile fun l => decide (l.size < maxLine) := hin
      have hsize := List.mem_takeWhile_imp htaken
      exact of_decide_eq_true hsize

theorem scan_initial (lines : List Line) : scan lines <+: lines := List.takeWhile_prefix _

theorem firstResult_take_succ {lines : List Line} {n : Nat} {line : Line} (h : lines[n]? = some line) :
    firstResult (lines.take (n + 1)) = (firstResult (lines.take n)).or line.result := by
  unfold firstResult
  rw [List.take_add_one, h, Option.toList_some, List.findSome?_append]
  cases hline : line.result <;> simp [hline]

theorem frames_get {lines : List Line} {exit : TerminalEvent} {n : Nat} {frame : Frame} (h : (frames lines exit)[n]? = some frame) :
    (∃ line, frame = .text line ∧ (scan lines)[n]? = some line) ∨ (frame = .terminal exit ∧ (scan lines).length = n) := by
  unfold frames at h
  rcases Nat.lt_or_ge n (scan lines).length with hlt | hge
  · rw [List.getElem?_append_left (by simpa using hlt), List.getElem?_map] at h
    obtain ⟨line, hline, rfl⟩ := Option.map_eq_some_iff.1 h
    exact .inl ⟨line, rfl, hline⟩
  · rw [List.getElem?_append_right (by simpa using hge), List.length_map] at h
    have hzero : n - (scan lines).length = 0 := by
      by_contra hne
      rw [List.getElem?_eq_none (by simp; omega)] at h
      cases h
    rw [hzero] at h
    exact .inr ⟨(Option.some.inj h).symm, by omega⟩

/-! ## What a run keeps -/

/-- The result a relay's own process gave. -/
def own (i : Nat) (t : RelayConn) : Option (Nat × ResultEvent) := (firstResult t.lines).map (i, ·)

/-- Where the process wrote a result: its lines fit up to there, and since its reader parked it nobody parked or cleared anything
under the code. Where it wrote none: what anybody parked there was cleared since. -/
def Undisturbed (i : Nat) (t : RelayConn) (log : List Entry) : Prop :=
  match firstResult t.lines with
  | some _ => Fits t.lines ∧ ∀ later earlier code ev, log = later ++ .captured i code ev :: earlier → ∀ e ∈ later, e.writes t.code = none
  | none => ∀ later earlier j ev, log = later ++ .captured j t.code ev :: earlier → ∃ e ∈ later, e.writes t.code = some none

/-- What the log has of a connection: its first result among the lines that were read, once. -/
structure Told (log : List Entry) (i : Nat) (t : RelayConn) : Prop where
  flag : t.resultCaptured = (firstResult ((scan t.lines).take t.pos)).isSome
  entry : ∀ code ev, .captured i code ev ∈ log ↔ code = t.code ∧ firstResult ((scan t.lines).take t.pos) = some ev
  once : ∀ later earlier code ev, log = later ++ .captured i code ev :: earlier → ∀ code' ev', .captured i code' ev' ∉ later

/-- Each exit that was handled found its own result exactly where it was undisturbed. -/
def HandledRight (log : List Entry) (i : Nat) (t : RelayConn) : Prop :=
  ∀ later found earlier, log = later ++ .handled i found :: earlier → (found = own i t ↔ Undisturbed i t earlier)

structure Inv (w : Bridging) : Prop where
  cache : ∀ code, w.shared.results code = parked code w.shared.log
  known : ∀ i code ev, .captured i code ev ∈ w.shared.log → i < w.threads.length
  handlers : ∀ i found, .handled i found ∈ w.shared.log → i < w.threads.length
  told : ∀ i t, w.threads[i]? = some t → Told w.shared.log i t
  right : ∀ i t, w.threads[i]? = some t → HandledRight w.shared.log i t

theorem parked_eq_none {code : String} {log : List Entry} :
    parked code log = none ↔
      ∀ later earlier j ev, log = later ++ .captured j code ev :: earlier → ∃ e ∈ later, e.writes code = some none := by
  constructor
  · rintro h later earlier j ev rfl
    induction later with
    | nil =>
      have hhead : parked code (.captured j code ev :: earlier) = some (j, ev) := parked_eq_some.2 ⟨[], earlier, rfl, nofun⟩
      rw [List.nil_append, hhead] at h
      cases h
    | cons e later ih =>
      rw [List.cons_append, parked_cons] at h
      cases he : e.writes code with
      | none =>
        rw [he] at h
        obtain ⟨e', he', hclear⟩ := ih h
        exact ⟨e', List.mem_cons_of_mem _ he', hclear⟩
      | some p =>
        rw [he] at h
        refine ⟨e, List.mem_cons_self, ?_⟩
        rw [he]
        exact congrArg some h
  · intro h
    by_contra hne
    obtain ⟨p, hp⟩ := Option.ne_none_iff_exists'.1 hne
    obtain ⟨later, earlier, hlog, hlater⟩ := parked_eq_some.1 hp
    obtain ⟨e, he, hclear⟩ := h later earlier p.1 p.2 hlog
    rw [hlater e he] at hclear
    cases hclear

theorem found_own_iff {log : List Entry} {i : Nat} {t : RelayConn} (ht : Told log i t) (hpos : (scan t.lines).length = t.pos) :
    parked t.code log = own i t ↔ Undisturbed i t log := by
  have hentry := ht.entry
  rw [← hpos, List.take_length] at hentry
  unfold own Undisturbed
  cases hfirst : firstResult t.lines with
  | none => exact parked_eq_none
  | some ev =>
    rw [Option.map_some]
    constructor
    · intro hparked
      obtain ⟨later, earlier, hlog, hlater⟩ := parked_eq_some.1 hparked
      have hscan := ((hentry t.code ev).1 (by rw [hlog]; simp)).2
      refine ⟨firstResult_scan.2 (by rw [hscan]; rfl), fun later' earlier' code' ev' hlog' => ?_⟩
      -- the reader parked one result only, so that both places are one
      obtain rfl : later' = later := by
        rcases List.append_eq_append_iff.1 (hlog'.symm.trans hlog) with ⟨mid, rfl, hmid⟩ | ⟨mid, rfl, hmid⟩
        · cases mid with
          | nil => exact (List.append_nil _).symm
          | cons e mid =>
            obtain ⟨rfl, -⟩ := List.cons.inj hmid
            exact absurd (by simp) (ht.once _ _ _ _ hlog code' ev')
        · cases mid with
          | nil => exact List.append_nil _
          | cons e mid =>
            obtain ⟨rfl, -⟩ := List.cons.inj hmid
            exact absurd (by simp) (ht.once _ _ _ _ hlog' t.code ev)
      exact hlater
    · rintro ⟨hfits, hquiet⟩
      obtain ⟨ev', hscan⟩ := Option.isSome_iff_exists.1 (firstResult_scan.1 hfits)
      obtain rfl : ev' = ev := Option.some.inj ((firstResult_initial (scan_initial _) hscan).symm.trans hfirst)
      obtain ⟨later, earlier, hlog⟩ := List.append_of_mem ((hentry t.code ev').2 ⟨rfl, hscan⟩)
      exact parked_eq_some.2 ⟨later, earlier, hlog, hquiet later earlier t.code ev' hlog⟩

/-! ## Steps -/

/-- What a turn does to the parked results and the log. -/
inductive Turned (i : Nat) (t : RelayConn) (d : Daemon) (t' : RelayConn) (d' : Daemon) : Prop
  | quiet (hpos : t'.pos = t.pos) (hflag : t'.resultCaptured = t.resultCaptured) (hresults : d'.results = d.results) (hlog : d'.log = d.log)
  | cleared (hpos : t'.pos = t.pos) (hflag : t'.resultCaptured = t.resultCaptured)
      (hresults : d'.results = Function.update d.results t.code none) (hlog : d'.log = .cleared i t.code :: d.log)
  | passed (line : Line) (hline : (scan t.lines)[t.pos]? = some line) (hno : line.result = none ∨ t.resultCaptured = true)
      (hpos : t'.pos = t.pos + 1) (hflag : t'.resultCaptured = t.resultCaptured) (hresults : d'.results = d.results) (hlog : d'.log = d.log)
  | captured (line : Line) (hline : (scan t.lines)[t.pos]? = some line) (ev : ResultEvent) (hev : line.result = some ev)
      (hnot : t.resultCaptured = false) (hpos : t'.pos = t.pos + 1) (hflag : t'.resultCaptured = true)
      (hresults : d'.results = Function.update d.results t.code (some (i, ev))) (hlog : d'.log = .captured i t.code ev :: d.log)
  | handled (hend : (scan t.lines).length = t.pos) (hpos : t'.pos = t.pos + 1) (hflag : t'.resultCaptured = t.resultCaptured)
      (hresults : d'.results = d.results) (hlog : d'.log = .handled i (d.results t.code) :: d.log)

theorem onFrame_turned {i : Nat} {t : RelayConn} {d : Daemon} {frame : Frame} (h : (frames t.lines t.exit)[t.pos]? = some frame) :
    ((onFrame i t d frame).1.code = t.code ∧ (onFrame i t d frame).1.lines = t.lines) ∧
      Turned i t d (onFrame i t d frame).1 (onFrame i t d frame).2 := by
  rcases frames_get h with ⟨line, rfl, hline⟩ | ⟨rfl, hend⟩
  · cases hresult : line.result with
    | none =>
      have hframe : onFrame i t d (.text line) = ({ t with pos := t.pos + 1 }, d) := by simp only [onFrame, hresult]
      rw [hframe]
      exact ⟨⟨rfl, rfl⟩, .passed line hline (.inl hresult) rfl rfl rfl rfl⟩
    | some ev =>
      by_cases hflag : t.resultCaptured = true
      · have hframe : onFrame i t d (.text line) = ({ t with pos := t.pos + 1 }, d) := by simp only [onFrame, hresult, if_pos hflag]
        rw [hframe]
        exact ⟨⟨rfl, rfl⟩, .passed line hline (.inr hflag) rfl rfl rfl rfl⟩
      · have hframe : onFrame i t d (.text line) = ({ t with pos := t.pos + 1, resultCaptured := true },
            { d with results := Function.update d.results t.code (some (i, ev)), log := .captured i t.code ev :: d.log }) := by
          simp only [onFrame, hresult, if_neg hflag]
        rw [hframe]
        exact ⟨⟨rfl, rfl⟩, .captured line hline ev hresult (Bool.eq_false_iff.2 hflag) rfl rfl rfl rfl⟩
  · exact ⟨⟨rfl, rfl⟩, .handled hend rfl rfl rfl rfl⟩

theorem handleCliBridge_turned {i : Nat} {turn : Turn} {t t' : RelayConn} {d d' : Daemon}
    (h : handleCliBridge i turn t d = some (t', d')) : (t'.code = t.code ∧ t'.lines = t.lines) ∧ Turned i t d t' d' := by
  unfold handleCliBridge at h
  cases turn with
  | register =>
    simp only at h
    split at h
    · split at h
      · cases h
        exact ⟨⟨rfl, rfl⟩, .quiet rfl rfl rfl rfl⟩
      · cases h
        exact ⟨⟨rfl, rfl⟩, .quiet rfl rfl rfl rfl⟩
    · cases h
  | writerEnds | unregister | readerEnds =>
    simp only at h
    split at h
    · cases h
      exact ⟨⟨rfl, rfl⟩, .quiet rfl rfl rfl rfl⟩
    · cases h
  | clear =>
    simp only at h
    split at h
    · cases h
      exact ⟨⟨rfl, rfl⟩, .cleared rfl rfl rfl rfl⟩
    · cases h
  | read =>
    simp only at h
    split at h
    · obtain ⟨frame, hframe, heq⟩ := Option.map_eq_some_iff.1 h
      have hturned := onFrame_turned (i := i) (d := d) hframe
      rw [heq] at hturned
      exact hturned
    · cases h

section Log

variable {log : List Entry} {i : Nat} {t t' : RelayConn} {e : Entry}

theorem Told.congr (h : Told log i t) (hcode : t'.code = t.code) (hlines : t'.lines = t.lines) (hpos : t'.pos = t.pos)
    (hflag : t'.resultCaptured = t.resultCaptured) : Told log i t' := by
  refine ⟨?_, ?_, h.once⟩
  · rw [hflag, hlines, hpos]
    exact h.flag
  · rw [hcode, hlines, hpos]
    exact h.entry

/-- Entries that are no result of the connection do not concern it. -/
theorem Told.cons (h : Told log i t) (he : ∀ code ev, e ≠ .captured i code ev) : Told (e :: log) i t := by
  refine ⟨h.flag, fun code ev => ?_, fun later earlier code ev heq => ?_⟩
  · rw [List.mem_cons, or_iff_right (he code ev).symm]
    exact h.entry code ev
  · cases later with
    | nil => exact absurd (List.cons.inj heq).1 (he code ev)
    | cons first later =>
      obtain ⟨rfl, hlog⟩ := List.cons.inj heq
      intro code' ev' hin
      rcases List.mem_cons.1 hin with hfirst | hlater
      · exact he code' ev' hfirst.symm
      · exact h.once later earlier code ev hlog code' ev' hlater

theorem Told.passed (h : Told log i t) {line : Line} (hline : (scan t.lines)[t.pos]? = some line)
    (hno : line.result = none ∨ t.resultCaptured = true) (hcode : t'.code = t.code) (hlines : t'.lines = t.lines)
    (hpos : t'.pos = t.pos + 1) (hflag : t'.resultCaptured = t.resultCaptured) : Told log i t' := by
  have hsame : firstResult ((scan t.lines).take (t.pos + 1)) = firstResult ((scan t.lines).take t.pos) := by
    rw [firstResult_take_succ hline]
    rcases hno with hnone | hcaptured
    · rw [hnone, Option.or_none]
    · rw [h.flag] at hcaptured
      obtain ⟨ev, hev⟩ := Option.isSome_iff_exists.1 hcaptured
      rw [hev, Option.some_or]
  refine ⟨?_, ?_, h.once⟩
  · rw [hflag, hlines, hpos, hsame]
    exact h.flag
  · rw [hcode, hlines, hpos, hsame]
    exact h.entry

theorem Told.captured (h : Told log i t) {line : Line} (hline : (scan t.lines)[t.pos]? = some line) {ev : ResultEvent}
    (hev : line.result = some ev) (hnot : t.resultCaptured = false) (hcode : t'.code = t.code) (hlines : t'.lines = t.lines)
    (hpos : t'.pos = t.pos + 1) (hflag : t'.resultCaptured = true) : Told (.captured i t.code ev :: log) i t' := by
  have hnone : firstResult ((scan t.lines).take t.pos) = none := by
    have hflag' := h.flag
    rw [hnot] at hflag'
    exact Option.isSome_eq_false_iff.1 hflag'.symm |> Option.isNone_iff_eq_none.1
  have hnew : firstResult ((scan t.lines).take (t.pos + 1)) = some ev := by
    rw [firstResult_take_succ hline, hnone, hev]
    rfl
  have hbefore : ∀ code' ev', .captured i code' ev' ∉ log := fun code' ev' hin => by
    obtain ⟨-, hsome⟩ := (h.entry code' ev').1 hin
    rw [hnone] at hsome
    cases hsome
  refine ⟨?_, fun code' ev' => ?_, fun later earlier code' ev' heq => ?_⟩
  · rw [hflag, hlines, hpos, hnew]
    rfl
  · rw [hcode, hlines, hpos, hnew, List.mem_cons, or_iff_left (hbefore code' ev')]
    simp [eq_comm]
  · cases later with
    | nil => exact nofun
    | cons first later =>
      obtain ⟨-, hlog⟩ := List.cons.inj heq
      exact absurd (by rw [hlog]; simp) (hbefore code' ev')

theorem HandledRight.congr (h : HandledRight log i t) (hcode : t'.code = t.code) (hlines : t'.lines = t.lines) : HandledRight log i t' := by
  intro later found earlier heq
  unfold own Undisturbed
  rw [hcode, hlines]
  exact h later found earlier heq

theorem HandledRight.cons (h : HandledRight log i t) (he : ∀ found, e = .handled i found → (found = own i t ↔ Undisturbed i t log)) :
    HandledRight (e :: log) i t := by
  intro later found earlier heq
  cases later with
  | nil =>
    obtain ⟨rfl, rfl⟩ := List.cons.inj heq
    exact he found rfl
  | cons first later => exact h later found earlier (List.cons.inj heq).2

end Log

/-- The cache is what the log says, behind every turn. -/
theorem cache_turned {i : Nat} {t t' : RelayConn} {d d' : Daemon} (h : Turned i t d t' d')
    (hcache : ∀ code, d.results code = parked code d.log) (code : String) : d'.results code = parked code d'.log := by
  cases h with
  | quiet _ _ hresults hlog | passed _ _ _ _ _ hresults hlog =>
    rw [hresults, hlog]
    exact hcache code
  | cleared _ _ hresults hlog | captured _ _ _ _ _ _ _ hresults hlog =>
    rw [hresults, hlog, parked_cons, Function.update_apply]
    unfold Entry.writes
    by_cases hcode : code = t.code
    · simp [hcode]
    · simp [hcode, Ne.symm hcode, hcache code]
  | handled _ _ _ hresults hlog =>
    rw [hresults, hlog, parked_cons]
    exact hcache code

/-- The entries that a turn adds are its own. -/
theorem log_turned {i : Nat} {t t' : RelayConn} {d d' : Daemon} (h : Turned i t d t' d') {j : Nat} (hj : j ≠ i) :
    (∀ code ev, .captured j code ev ∈ d'.log → .captured j code ev ∈ d.log) ∧
      (∀ found, .handled j found ∈ d'.log → .handled j found ∈ d.log) ∧
        (∀ u, Told d.log j u → Told d'.log j u) ∧ ∀ u, HandledRight d.log j u → HandledRight d'.log j u := by
  cases h with
  | quiet _ _ _ hlog | passed _ _ _ _ _ _ hlog =>
    rw [hlog]
    exact ⟨fun _ _ h => h, fun _ h => h, fun _ h => h, fun _ h => h⟩
  | cleared _ _ _ hlog | captured _ _ _ _ _ _ _ _ hlog | handled _ _ _ _ hlog =>
    rw [hlog]
    refine ⟨fun code ev hin => ?_, fun found hin => ?_, fun u hu => hu.cons fun code ev heq => ?_,
      fun u hu => hu.cons fun found heq => ?_⟩
    · rcases List.mem_cons.1 hin with heq | hin
      · cases heq <;> exact absurd rfl hj
      · exact hin
    · rcases List.mem_cons.1 hin with heq | hin
      · cases heq <;> exact absurd rfl hj
      · exact hin
    · cases heq <;> exact absurd rfl hj
    · cases heq <;> exact absurd rfl hj

/-- What the turn leaves of its own connection. -/
theorem own_turned {i : Nat} {t t' : RelayConn} {d d' : Daemon} (h : Turned i t d t' d') (hcode : t'.code = t.code)
    (hlines : t'.lines = t.lines) (hcache : ∀ code, d.results code = parked code d.log) (htold : Told d.log i t)
    (hright : HandledRight d.log i t) : Told d'.log i t' ∧ HandledRight d'.log i t' := by
  cases h with
  | quiet hpos hflag _ hlog =>
    rw [hlog]
    exact ⟨htold.congr hcode hlines hpos hflag, hright.congr hcode hlines⟩
  | cleared hpos hflag _ hlog =>
    rw [hlog]
    exact ⟨(htold.congr hcode hlines hpos hflag).cons nofun, (hright.congr hcode hlines).cons nofun⟩
  | passed line hline hno hpos hflag _ hlog =>
    rw [hlog]
    exact ⟨htold.passed hline hno hcode hlines hpos hflag, hright.congr hcode hlines⟩
  | captured line hline ev hev hnot hpos hflag _ hlog =>
    rw [hlog]
    exact ⟨htold.captured hline hev hnot hcode hlines hpos hflag, (hright.congr hcode hlines).cons nofun⟩
  | handled hend hpos hflag _ hlog =>
    rw [hlog]
    have hdone : Told d.log i t' := by
      have htake : (scan t.lines).take (t.pos + 1) = (scan t.lines).take t.pos := by
        rw [List.take_of_length_le (by omega), List.take_of_length_le (by omega)]
      refine ⟨?_, ?_, htold.once⟩
      · rw [hflag, hlines, hpos, htake]
        exact htold.flag
      · rw [hcode, hlines, hpos, htake]
        exact htold.entry
    refine ⟨hdone.cons nofun, HandledRight.congr (hright.cons fun found heq => ?_) hcode hlines⟩
    obtain rfl := (Entry.handled.inj heq).2
    rw [hcache]
    exact found_own_iff htold hend

theorem inv_run {w : Bridging} {tr : List (Moved Daemon RelayConn Turn Empty)} (h : BridgingRuns w tr) : Inv w := by
  refine h.invariant (P := fun w _ => Inv w) ?_ fun w w' tr mv _ ih hok hstep => ?_
  · rintro w rfl
    exact ⟨fun _ => rfl, nofun, nofun, nofun, nofun⟩
  · rcases Stages.step_cases hstep with ⟨t, rfl, rfl⟩ | ⟨i, turn, t, t', d', rfl, ht, hact, rfl⟩ | ⟨o, -⟩
    · obtain ⟨-, hpos, hflag, -⟩ := hok
      have hnew : ∀ code ev, .captured w.threads.length code ev ∉ w.shared.log := fun code ev hin =>
        absurd (ih.known _ _ _ hin) (lt_irrefl _)
      refine ⟨ih.cache, fun i code ev hin => ?_, fun i found hin => ?_, fun i u hu => ?_, fun i u hu => ?_⟩
      · have := ih.known i code ev hin
        rw [List.length_append]
        omega
      · have := ih.handlers i found hin
        rw [List.length_append]
        omega
      · rcases of_getElem?_append hu with hu | ⟨rfl, rfl⟩
        · exact ih.told i u hu
        · refine ⟨?_, fun code ev => iff_of_false (hnew code ev) ?_, fun later earlier code ev heq => ?_⟩
          · rw [hflag, hpos]
            rfl
          · rw [hpos]
            exact fun hc => absurd hc.2 nofun
          · exact absurd (by rw [heq]; simp) (hnew code ev)
      · rcases of_getElem?_append hu with hu | ⟨rfl, rfl⟩
        · exact ih.right i u hu
        · intro later found earlier heq
          exact absurd (ih.handlers _ found (by rw [heq]; simp)) (lt_irrefl _)
    · obtain ⟨⟨hcode, hlines⟩, hturned⟩ := handleCliBridge_turned hact
      have hlt : i < w.threads.length := (List.getElem?_eq_some_iff.1 ht).1
      refine ⟨cache_turned hturned ih.cache, fun j code ev hin => ?_, fun j found hin => ?_, fun j u hu => ?_, fun j u hu => ?_⟩
      · rw [List.length_set]
        by_cases hj : j = i
        · exact hj ▸ hlt
        · exact ih.known j code ev ((log_turned hturned hj).1 code ev hin)
      · rw [List.length_set]
        by_cases hj : j = i
        · exact hj ▸ hlt
        · exact ih.handlers j found ((log_turned hturned hj).2.1 found hin)
      · rw [getElem?_set_of_some ht] at hu
        split at hu
        · rename_i hij
          subst hij
          obtain rfl := Option.some.inj hu
          exact (own_turned hturned hcode hlines ih.cache (ih.told i t ht) (ih.right i t ht)).1
        · rename_i hij
          exact (log_turned hturned (Ne.symm hij)).2.2.1 u (ih.told j u hu)
      · rw [getElem?_set_of_some ht] at hu
        split at hu
        · rename_i hij
          subst hij
          obtain rfl := Option.some.inj hu
          exact (own_turned hturned hcode hlines ih.cache (ih.told i t ht) (ih.right i t ht)).2
        · rename_i hij
          exact (log_turned hturned (Ne.symm hij)).2.2.2 u (ih.right j u hu)
    · exact o.elim

/-! ## The exits -/

/-- A process that reported an error is not recorded as completed. -/
theorem error_not_completed {exitCode : Int} {signaled : Bool} {ev : ResultEvent} (h : ev.isError = true) :
    (classifyOutcome exitCode signaled (outcomeOf (some ev))).1 = .failed := by
  unfold classifyOutcome outcomeOf
  simp only [h]
  split
  · rfl
  · rfl

def startsFreshB (_ : Bridging) : Move RelayConn Turn Empty → Bool
  | .start t => decide t.Fresh
  | _ => true

theorem startsFresh_of_bool (w : Bridging) (mv : Move RelayConn Turn Empty) (h : startsFreshB w mv = true) : startsFresh w mv := by
  cases mv with
  | start t =>
    have hfresh : t.Fresh := of_decide_eq_true h
    exact hfresh
  | turn i turn => trivial
  | outside o => trivial

/-- A process that says that it failed, and exits with 0. -/
def failing : RelayConn := ⟨"7wdrqe", [⟨100, some ⟨true, "error_during_execution"⟩⟩], ⟨0, false⟩, .connecting, 0, false, false⟩

def readThrough : List (Move RelayConn Turn Empty) := [.start failing, .turn 0 .register, .turn 0 .read, .turn 0 .read]

/-- The exit comes behind the clean-up. -/
def cleanedFirst : List (Move RelayConn Turn Empty) :=
  [.start failing, .turn 0 .register, .turn 0 .read, .turn 0 .writerEnds, .turn 0 .unregister, .turn 0 .clear, .turn 0 .read]

end Purdex.Stream.Exits
