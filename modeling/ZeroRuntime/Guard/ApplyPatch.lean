import ZeroRuntime.Lib.PathText
import ZeroRuntime.Lib.Sorted
import ZeroRuntime.Lib.Value

/-!
# ZeroRuntime.Guard.ApplyPatch

What the execution guard (`core/tasks/execution_guard.py`) says to a step that applies patches.

* `trimPath` is how the guard reads a path: backslashes are slashes, and leading dots and slashes
  are dropped.
* The texts a step names as targets are gathered first (`targetTexts`, `editTexts`); `check` sees
  them trimmed.
* The search for files that import a changed one reads the disk and is a parameter.
-/

namespace ZeroRuntime
namespace Guard

open Lib

/-- The entries of a mapping. -/
abbrev Entries := List (String × Val)

/-! ## Paths -/

/-- `s.lstrip("./")` -/
def stripDots (s : String) : String :=
  String.ofList (s.toList.dropWhile fun c => c = '.' || c = '/')

/-- `s.replace("\\", "/")` -/
def forward (s : String) : String := Text.replaceChar '\\' '/' s

def trimPath (s : String) : String := stripDots (forward s)

def repoSourcePrefixes : List String :=
  ["core/", "services/", "tests/", "runtime/", "tasks/", "planning/"]

/-- The path starts with one of the directories that need a confirmation. -/
def isRepoSource (path : String) : Bool :=
  repoSourcePrefixes.any (Text.startsWith (Text.lower path) ·)

def sensitiveTokens : List String :=
  ["scheduler", "execution_guard", "step_executor", "task_runner", "task_runtime"]

def isSensitive (path : String) : Bool :=
  sensitiveTokens.any (Text.contains (Text.lower path) ·)

/-! ## What a step names -/

/-- The text of the first of some fields that is not empty. -/
def firstText (keys : List String) (item : Entries) : String :=
  (keys.foldr (fun key rest => (Val.getIn key item).orElse rest) (.str "")).text

/-- `step.get("patches")`, when it is a list. -/
def patchesOf (step : Entries) : Option (List Val) :=
  match Val.getIn "patches" step with
  | .list items => some items
  | _ => none

/-- The mappings among some values. -/
def mappings (items : List Val) : List Entries :=
  items.filterMap fun
    | .dict item => some item
    | _ => none

def stepText (step : Entries) : String := firstText ["target_path", "target", "path"] step

def patchTexts (step : Entries) : List String :=
  (mappings ((patchesOf step).getD [])).map (firstText ["target_path", "target"])

def listAt (key : String) (payload : Entries) : Option (List Val) :=
  match Val.getIn key payload with
  | .list items => some items
  | _ => none

/-- What `edit_payload` names, when it is a mapping: the changed files, and the targets of the
edits. -/
def editTexts (step : Entries) : List String × List String :=
  match Val.getIn "edit_payload" step with
  | .dict payload =>
    (((listAt "changed_files" payload).getD []).map (fun item => Text.strip item.toText)
        |>.filter (· ≠ ""),
      (mappings (((listAt "file_edits" payload).or (listAt "edits" payload)).getD [])).map
        (firstText ["target_path", "target", "path"]))
  | _ => ([], [])

/-! ## The check -/

structure Preflight where
  preflightOk : Bool
  targetFiles : List String
  patchFiles : List String
  repoSource : Bool
  editScope : String
  riskLevel : String
  requiresConfirmation : Bool
  confirmed : Bool
  conflictDetected : Bool
  conflictReason : String
  impactedFiles : List String := []

structure Decision where
  ok : Bool
  error : String := ""
  guardMode : String
  policyReason : String := ""
  targetPath : String := ""
  changedFiles : List String := []
  repoImpact : Option Preflight := none

/-- The targets of the patches, as the guard reads them. -/
def patchTargets (step : Entries) : List String :=
  ((patchTexts step).map trimPath).filter (· ≠ "")

def patchFiles (step : Entries) : List String :=
  match patchesOf step with
  | some items =>
    ((mappings items).map fun item => trimPath (firstText ["patch_path", "path"] item)).filter
      (· ≠ "")
  | none => [trimPath (firstText ["patch_path", "path"] step)].filter (· ≠ "")

/-- What is wrong with one item of `patches`. -/
def itemConflicts : Val → List String
  | .dict item =>
    (if trimPath (firstText ["patch_path", "path"] item) = "" then ["patch item missing patch_path"]
      else []) ++
    (if trimPath (firstText ["target_path", "target"] item) = "" then
      ["patch item missing target_path"] else [])
  | _ => ["patch item must be an object"]

def patchConflicts (step : Entries) : List String :=
  match patchesOf step with
  | some [] => ["empty patch list"]
  | some items => items.flatMap itemConflicts
  | none => []

/-- `raw_path`, or else the first target of the patches. -/
def rawPath (step : Entries) : String :=
  let raw := trimPath (stepText step)
  if raw = "" then (patchTargets step).headD "" else raw

/-- `changed_files`, each path once. -/
def changedFiles (step : Entries) : List String :=
  let (changed, edited) := editTexts step
  (rawPath step :: patchTargets step ++ changed.map trimPath ++
    (edited.map trimPath).filter (· ≠ "")).eraseDups

def duplicateTargets (step : Entries) : List String :=
  sortedSet ((patchTargets step).filter fun path => (patchTargets step).count path > 1)

def conflictReasons (step : Entries) : List String :=
  patchConflicts step ++
    if duplicateTargets step = [] then []
    else ["duplicate target path in same transaction: " ++ ", ".intercalate (duplicateTargets step)]

def confirmed (step : Entries) : Bool :=
  ["confirmed", "confirmation", "repo_scale_confirmed", "scope_confirmed"].any
    fun key => (Val.getIn key step).truthy

def repoSource (step : Entries) : Bool := (changedFiles step).any isRepoSource

def preflight (step : Entries) : Preflight :=
  let files := changedFiles step
  let repoSource := repoSource step
  let conflicts := conflictReasons step
  { preflightOk := conflicts.isEmpty && (!repoSource || confirmed step)
    targetFiles := files
    patchFiles := (patchFiles step).eraseDups
    repoSource := repoSource
    editScope :=
      if files.length > 1 then (if repoSource then "repo_scale" else "multi_file")
      else "single_file"
    riskLevel :=
      if repoSource then
        (if files.length > 1 || files.any isSensitive then "high" else "medium")
      else "low"
    requiresConfirmation := repoSource
    confirmed := confirmed step
    conflictDetected := !conflicts.isEmpty
    conflictReason := "; ".intercalate conflicts }

section Check

variable (findPythonImporters : List String → List String)

/-- A denial for want of a confirmation. -/
def denyUnconfirmed (step : Entries) (error guardMode reason : String) : Decision :=
  { ok := false, error := error ++ rawPath step, guardMode := guardMode, policyReason := reason
    repoImpact := some { preflight step with
      preflightOk := false, requiresConfirmation := true, conflictDetected := true
      conflictReason := reason, impactedFiles := findPythonImporters (changedFiles step) } }

/-- `check_step`, for a step of type `apply_patch` or `apply_unified_diff`. -/
def check (step : Entries) : Decision :=
  let stepType := Text.lower (Val.getIn "type" step).text
  let runtimeMode := Text.lower ((Val.getIn "runtime_mode" step).orElse (.str "execute")).text
  if runtimeMode ∈ ["replay", "audit", "repair_replay"] then
    { ok := false, guardMode := "readonly_runtime_blocked"
      error := runtimeMode ++ " runtime cannot execute side-effect step: " ++ stepType
      policyReason := runtimeMode ++ " runtime is readonly" }
  else if rawPath step = "" then
    { ok := false, guardMode := "missing_path", error := "apply_patch step missing target_path" }
  else if conflictReasons step ≠ [] then
    { ok := false, guardMode := "apply_patch_preflight_blocked"
      error := "apply_patch blocked by preflight: " ++ (preflight step).conflictReason
      policyReason := "apply_patch preflight conflict", repoImpact := some (preflight step) }
  else if repoSource step ∧ (changedFiles step).length > 1 ∧ ¬confirmed step then
    denyUnconfirmed findPythonImporters step
      "apply_patch blocked: repo source multi-file repair cannot auto apply: "
      "repo_source_multi_file_apply_blocked" "repo source multi-file repair cannot auto apply"
  else if repoSource step ∧ ¬confirmed step then
    denyUnconfirmed findPythonImporters step
      "apply_patch blocked: repo source target requires confirmation: "
      "repo_source_apply_requires_confirmation" "repo source apply requires confirmation"
  else
    { ok := true, guardMode := "apply_patch_allowed", policyReason := "apply_patch passed guard"
      targetPath := rawPath step, changedFiles := changedFiles step
      repoImpact := some (preflight step) }

end Check

end Guard
end ZeroRuntime
