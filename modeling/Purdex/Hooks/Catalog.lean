/-
The hook events of the two agents whose hook files are written: their names here, their keys in the file, and which of them are
installed.
-/
import Mathlib.Data.List.Nodup

namespace Purdex.Hooks

inductive Status
  | running
  | waiting
  | idle
  | error
  | clear
  deriving Repr, DecidableEq

/-- `unset` is the empty string. -/
inductive HookHandling
  | unset
  | status
  | detail
  | ignored
  | unsupported
  deriving Repr, DecidableEq

/-- What is read of an event here. Each has a key. -/
structure HookEventSpec where
  purdexName : String
  upstreamKeys : List String
  emitsStatus : List Status
  handling : HookHandling := .unset
  futureOnly : Bool := false
  keyed : upstreamKeys ≠ [] := by decide
  deriving Repr, DecidableEq

/-- `spec.UpstreamKeys[0]` -/
def HookEventSpec.key (spec : HookEventSpec) : String := spec.upstreamKeys.head spec.keyed

def effectiveHookHandling (spec : HookEventSpec) : HookHandling :=
  if spec.handling ≠ .unset then spec.handling
  else if spec.emitsStatus ≠ [] then .status
  else .detail

def isInstallableHookSpec (spec : HookEventSpec) : Bool :=
  match effectiveHookHandling spec with
  | .status | .detail => true
  | _ => false

def ccEventSpecs : List HookEventSpec :=
  [ { purdexName := "PdxSetup", upstreamKeys := ["Setup"], emitsStatus := [], handling := .unsupported },
    { purdexName := "PdxSessionStart", upstreamKeys := ["SessionStart"], emitsStatus := [.idle] },
    { purdexName := "PdxUserPromptSubmit", upstreamKeys := ["UserPromptSubmit"], emitsStatus := [.running] },
    { purdexName := "PdxSubagentStart", upstreamKeys := ["SubagentStart"], emitsStatus := [] },
    { purdexName := "PdxSubagentStop", upstreamKeys := ["SubagentStop"], emitsStatus := [] },
    { purdexName := "PdxStop", upstreamKeys := ["Stop"], emitsStatus := [.idle] },
    { purdexName := "PdxStopFailure", upstreamKeys := ["StopFailure"], emitsStatus := [.error] },
    { purdexName := "PdxNotification", upstreamKeys := ["Notification"], emitsStatus := [.waiting, .idle] },
    { purdexName := "PdxPermissionRequest", upstreamKeys := ["PermissionRequest"], emitsStatus := [.waiting] },
    { purdexName := "PdxSessionEnd", upstreamKeys := ["SessionEnd"], emitsStatus := [.clear] },
    { purdexName := "PdxUserPromptExpansion", upstreamKeys := ["UserPromptExpansion"], emitsStatus := [], handling := .unsupported },
    { purdexName := "PdxPreToolUse", upstreamKeys := ["PreToolUse"], emitsStatus := [] },
    { purdexName := "PdxPermissionDenied", upstreamKeys := ["PermissionDenied"], emitsStatus := [], handling := .ignored },
    { purdexName := "PdxPostToolUse", upstreamKeys := ["PostToolUse"], emitsStatus := [.running] },
    { purdexName := "PdxPostToolUseFailure", upstreamKeys := ["PostToolUseFailure"], emitsStatus := [] },
    { purdexName := "PdxPostToolBatch", upstreamKeys := ["PostToolBatch"], emitsStatus := [], handling := .unsupported },
    { purdexName := "PdxTaskCreated", upstreamKeys := ["TaskCreated"], emitsStatus := [], handling := .ignored },
    { purdexName := "PdxTaskCompleted", upstreamKeys := ["TaskCompleted"], emitsStatus := [], handling := .ignored },
    { purdexName := "PdxTeammateIdle", upstreamKeys := ["TeammateIdle"], emitsStatus := [], handling := .ignored },
    { purdexName := "PdxInstructionsLoaded", upstreamKeys := ["InstructionsLoaded"], emitsStatus := [], handling := .ignored },
    { purdexName := "PdxConfigChange", upstreamKeys := ["ConfigChange"], emitsStatus := [], handling := .ignored },
    { purdexName := "PdxCwdChanged", upstreamKeys := ["CwdChanged"], emitsStatus := [], handling := .ignored },
    { purdexName := "PdxFileChanged", upstreamKeys := ["FileChanged"], emitsStatus := [], handling := .unsupported },
    { purdexName := "PdxWorktreeCreate", upstreamKeys := ["WorktreeCreate"], emitsStatus := [], handling := .unsupported },
    { purdexName := "PdxWorktreeRemove", upstreamKeys := ["WorktreeRemove"], emitsStatus := [], handling := .unsupported },
    { purdexName := "PdxPreCompact", upstreamKeys := ["PreCompact"], emitsStatus := [], handling := .unsupported },
    { purdexName := "PdxPostCompact", upstreamKeys := ["PostCompact"], emitsStatus := [], handling := .ignored },
    { purdexName := "PdxElicitation", upstreamKeys := ["Elicitation"], emitsStatus := [], handling := .ignored },
    { purdexName := "PdxElicitationResult", upstreamKeys := ["ElicitationResult"], emitsStatus := [], handling := .ignored } ]

def codexEventSpecs : List HookEventSpec :=
  [ { purdexName := "PdxSessionStart", upstreamKeys := ["SessionStart"], emitsStatus := [.idle] },
    { purdexName := "PdxUserPromptSubmit", upstreamKeys := ["UserPromptSubmit"], emitsStatus := [.running] },
    { purdexName := "PdxSubagentStart", upstreamKeys := ["SubagentStart"], emitsStatus := [], futureOnly := true },
    { purdexName := "PdxSubagentStop", upstreamKeys := ["SubagentStop"], emitsStatus := [], futureOnly := true },
    { purdexName := "PdxStop", upstreamKeys := ["Stop"], emitsStatus := [.idle] },
    { purdexName := "PdxStopFailure", upstreamKeys := ["StopFailure"], emitsStatus := [.error], futureOnly := true },
    { purdexName := "PdxNotification", upstreamKeys := ["Notification"], emitsStatus := [.waiting, .idle], futureOnly := true },
    { purdexName := "PdxPermissionRequest", upstreamKeys := ["PermissionRequest"], emitsStatus := [.waiting] },
    { purdexName := "PdxSessionEnd", upstreamKeys := ["SessionEnd"], emitsStatus := [.clear], futureOnly := true },
    { purdexName := "PdxPreToolUse", upstreamKeys := ["PreToolUse"], emitsStatus := [], futureOnly := true },
    { purdexName := "PdxPostToolUse", upstreamKeys := ["PostToolUse"], emitsStatus := [], handling := .unsupported } ]

/-- The names a command may end with that is taken out again: the keys of the installed events, and their names here. -/
def ownedCleanupEventNames (specs : List HookEventSpec) : List String :=
  (specs.filter isInstallableHookSpec).flatMap fun spec => spec.upstreamKeys ++ [spec.purdexName]

def ccOwnedCleanupEventNames : List String := ownedCleanupEventNames ccEventSpecs

def codexOwnedCleanupEventNames : List String := ownedCleanupEventNames codexEventSpecs

theorem mem_ownedCleanupEventNames {specs : List HookEventSpec} {spec : HookEventSpec} (h : spec ∈ specs.filter isInstallableHookSpec) :
    spec.purdexName ∈ ownedCleanupEventNames specs := by
  refine List.mem_flatMap.2 ⟨spec, h, ?_⟩
  exact List.mem_append_right _ (List.mem_singleton_self _)

/-- No two installed events are at one key. -/
theorem nodup_keys : ∀ specs ∈ [ccEventSpecs, codexEventSpecs], ((specs.filter isInstallableHookSpec).map HookEventSpec.key).Nodup := by
  decide

end Purdex.Hooks
