/-
Hook files: what an install and a remove make of one. A Claude file loses an entry with one of our commands in it, a Codex file the
command.
-/
import Purdex.Hooks.Command
import Purdex.Json.Fields
import Mathlib

namespace Purdex.Hooks

open Json

/-! ## Numbers -/

/-- What becomes of a number that is read into a float64 and printed again, the shortest way that reads back as it. -/
structure Numbers where
  fits : ℚ → Bool
  round : ℚ → ℚ
  fits_round : ∀ n, fits n → fits (round n)
  round_round : ∀ n, fits n → round (round n) = round n
  small : ∀ n : ℤ, n.natAbs ≤ 2 ^ 53 → fits n ∧ round n = n

namespace Numbers

/-- The decoder takes it. -/
def readable (numbers : Numbers) (a : Raw) : Bool := a.allNumbers numbers.fits

def settle (numbers : Numbers) (a : Raw) : Raw := a.mapNumbers numbers.round

def settleFields (numbers : Numbers) (fields : List (String × Raw)) : List (String × Raw) :=
  fields.map fun p => (p.1, numbers.settle p.2)

end Numbers

/-! ## Entries -/

/-- A hook whose command is ours. -/
def isOwnedHook (owns : String → Bool) : Raw → Bool
  | .obj fields =>
    match fields.lookup "command" with
    | some (.str cmd) => owns cmd
    | _ => false
  | _ => false

def toEntrySlice : Option Raw → List Raw
  | some (.arr entries) => entries
  | _ => []

def entryIsPdxCCKnownEvent (known : List String) : Raw → Bool
  | .obj fields =>
    match fields.lookup "hooks" with
    | some (.arr hooks) => hooks.any (isOwnedHook (isPdxCommandCCKnownEvent · known))
    | _ => false
  | _ => false

/-- An entry with one of our commands goes, with all that is in it. -/
def filterOutPdxKnownCCEvents (entries : List Raw) : List Raw :=
  entries.filter fun entry => !entryIsPdxCCKnownEvent ccOwnedCleanupEventNames entry

/-- What is kept of an entry: without our commands, and none of it where no hook is left. -/
def keepCodexEntry (isOwned : String → Bool) (entry : Raw) : Option Raw :=
  match entry with
  | .obj group =>
    match group.lookup "hooks" with
    | none => if (group.lookup "type").isSome ∧ isOwnedHook isOwned entry then none else some entry
    | some (.arr hooks) =>
      match hooks.filter (!isOwnedHook isOwned ·) with
      | [] => none
      | kept => some (.obj (Fields.put "hooks" (.arr kept) group))
    | some _ => some entry
  | _ => some entry

def filterOutPdxCodexWithPredicate (entries : List Raw) (isOwned : String → Bool) : List Raw :=
  entries.filterMap (keepCodexEntry isOwned)

def filterOutPdxCodexKnownEvents (entries : List Raw) : List Raw :=
  filterOutPdxCodexWithPredicate entries (isPdxCommandCodexOwnedEvent · codexOwnedCleanupEventNames)

def makePdxEntry (pdxPath agentType event : String) : Raw :=
  .obj [("hooks", .arr [.obj [("type", .str "command"), ("command", .str (hookCommand pdxPath agentType event))]])]

def makeCodexEntry (pdxPath event : String) : Raw :=
  .obj [("hooks", .arr [.obj [("type", .str "command"), ("command", .str (hookCommand pdxPath "codex" event)), ("timeout", .num 5)]])]

/-! ## The two agents -/

inductive Provider
  | cc
  | codex
  deriving Repr, DecidableEq

namespace Provider

def agent : Provider → String
  | cc => "cc"
  | codex => "codex"

def specs : Provider → List HookEventSpec
  | cc => ccEventSpecs
  | codex => codexEventSpecs

def installable (p : Provider) : List HookEventSpec := p.specs.filter isInstallableHookSpec

/-- A command that is taken for ours. -/
def owns : Provider → String → Bool
  | cc, cmd => isPdxCommandCCKnownEvent cmd ccOwnedCleanupEventNames
  | codex, cmd => isPdxCommandCodexOwnedEvent cmd codexOwnedCleanupEventNames

def filterOut : Provider → List Raw → List Raw
  | cc => filterOutPdxKnownCCEvents
  | codex => filterOutPdxCodexKnownEvents

def makeEntry : Provider → String → HookEventSpec → Raw
  | cc, pdxPath, spec => makePdxEntry pdxPath "cc" spec.purdexName
  | codex, pdxPath, spec => makeCodexEntry pdxPath spec.purdexName

end Provider

/-! ## The merge -/

inductive Failure
  | parse
  | root
  | event (key : String)
  deriving Repr, DecidableEq

/-- `aborted` is a write to a map that is nil. -/
inductive Merged
  | failed (reason : Failure)
  | aborted
  | written (settings : List (String × Raw))

def hooksMapForMerge (settings : List (String × Raw)) : Except Failure (List (String × Raw)) :=
  match settings.lookup "hooks" with
  | none | some .null => .ok []
  | some (.obj hooks) => .ok hooks
  | some _ => .error .root

def shapeOk : Option Raw → Bool
  | none | some .null | some (.arr _) => true
  | some _ => false

def validateInstallableHookShapes (p : Provider) (hooks : List (String × Raw)) : Except Failure Unit :=
  match p.installable.find? fun spec => !shapeOk (hooks.lookup spec.key) with
  | some spec => .error (.event spec.key)
  | none => .ok ()

/-- What a remove makes of the value of an event. -/
def cleanEvent (p : Provider) : Raw → Option Raw
  | .arr entries =>
    match p.filterOut entries with
    | [] => none
    | kept => some (.arr kept)
  | existing => some existing

def removeHooks (p : Provider) (hooks : List (String × Raw)) : List (String × Raw) := Fields.sift (cleanEvent p) hooks

def installEvent (p : Provider) (pdxPath : String) (hooks : List (String × Raw)) (spec : HookEventSpec) : List (String × Raw) :=
  Fields.put spec.key (.arr (p.filterOut (toEntrySlice (hooks.lookup spec.key)) ++ [p.makeEntry pdxPath spec])) hooks

def installHooks (p : Provider) (pdxPath : String) (hooks : List (String × Raw)) : List (String × Raw) :=
  p.installable.foldl (installEvent p pdxPath) hooks

def mergeInto (p : Provider) (pdxPath : String) (remove : Bool) (settings : List (String × Raw)) : Except Failure (List (String × Raw)) := do
  let hooks ← hooksMapForMerge settings
  if remove then
    return Fields.put "hooks" (.obj (removeHooks p hooks)) settings
  validateInstallableHookShapes p hooks
  return Fields.put "hooks" (.obj (installHooks p pdxPath hooks)) settings

/-- A file with `null` in it makes the settings a nil map, in which there is no `hooks`, and none can be put. -/
def merge (p : Provider) (numbers : Numbers) (pdxPath : String) (remove : Bool) (file : Option Raw) : Merged :=
  let merged (settings : List (String × Raw)) : Merged :=
    match mergeInto p pdxPath remove settings with
    | .error reason => .failed reason
    | .ok settings => .written settings
  match file with
  | none => merged []
  | some a =>
    if numbers.readable a then
      match a with
      | .null => .aborted
      | .obj fields => merged (numbers.settleFields fields)
      | _ => .failed .parse
    else .failed .parse

def mergeClaudeHooks : Numbers → String → Bool → Option Raw → Merged := merge .cc

def mergeCodexHooks : Numbers → String → Bool → Option Raw → Merged := merge .codex

/-- The file that is there then: it is replaced as a whole, or stays. -/
def Merged.after (file : Option Raw) : Merged → Option Raw
  | .written settings => some (.obj settings)
  | _ => file

end Purdex.Hooks
