import ZeroRuntime.Lib.Value

/-!
# ZeroRuntime.ScopeGate.Model

The scope gate of a proposed repair (`core/tasks/runtime_repair_mutation_scope_gate.py`): which
paths and actions it may have.

* `normalizePath` is what paths and patterns are compared by, `matchText` compares two of them.
* `decidePathScope`, `decideActionScope`: one path, one action.
* `scopeGate` reads the paths and actions from its arguments or from the authorization.
-/

namespace ZeroRuntime
namespace ScopeGate

open Lib

def defaultAllowedPaths : List String := ["workspace/shared/**", "workspace/tasks/**"]

def defaultBlockedPaths : List String :=
  ["app.py", "services/system_boot.py", "core/planning/**", "core/tasks/scheduler.py",
   "core/agent/agent_loop.py", ".git/**", ".env"]

def safeScopeActions : List String :=
  ["inspect_runtime_state", "inspect_execution_log", "inspect_trace", "inspect_result",
   "propose_repair_plan", "prepare_code_repair", "generate_patch_preview"]

def blockedMutationActions : List String :=
  ["apply_patch", "write_file", "delete_file", "run_shell_command", "schedule_task",
   "modify_scheduler", "modify_planner", "auto_retry", "auto_repair", "auto_apply_patch"]

/-! ## Texts -/

/-- `text.replace("//", "/")` until there is none left. -/
def collapse : List Char → List Char
  | [] => []
  | [c] => [c]
  | c :: d :: cs => if c = '/' ∧ d = '/' then collapse (d :: cs) else c :: collapse (d :: cs)

def dropDrive : List Char → List Char
  | _ :: ':' :: '/' :: cs => cs
  | cs => cs

def dropDot : List Char → List Char
  | '.' :: '/' :: cs => cs
  | cs => cs

/-- `text.strip("/")` -/
def trimSlashes (cs : List Char) : List Char :=
  (cs.dropWhile fun c => c = '/').rdropWhile fun c => c = '/'

def normalizeChars (cs : List Char) : List Char :=
  trimSlashes (dropDot (dropDrive (collapse
    ((Text.stripChars cs).map fun c => if c = '\\' then '/' else c))))

def normalizePath (path : String) : String := String.ofList (normalizeChars path.toList)

/-- `text[:-n]` -/
def dropEnd (n : Nat) (s : String) : String :=
  String.ofList (s.toList.take (s.toList.length - n))

/-- `path == stem or path.startswith(stem + "/")` -/
def inStem (path stem : String) : Bool := path = stem || Text.startsWith path (stem ++ "/")

/-- A normalized path against a normalized pattern. -/
def matchText (path pattern : String) : Bool :=
  if Text.endsWith pattern "/**" then
    inStem path (Text.stripRight '/' (dropEnd 3 pattern))
  else if Text.endsWith pattern "/*" then
    let stem := Text.stripRight '/' (dropEnd 2 pattern)
    let remainder := trimSlashes (path.toList.drop stem.toList.length)
    inStem path stem && (remainder ≠ [] && '/' ∉ remainder)
  else path = pattern

def pathMatches (path pattern : String) : Bool :=
  let normalizedPath := normalizePath path
  let normalizedPattern := normalizePath pattern
  if normalizedPath = "" ∨ normalizedPattern = "" then false
  else matchText normalizedPath normalizedPattern

def firstMatchingPattern (path : String) (patterns : List String) : String :=
  (patterns.find? fun pattern => pathMatches path pattern).getD ""

def unique (values : List String) : List String :=
  ((values.map Text.strip).filter fun text => text ≠ "").eraseDups

def normalizePatterns (patterns : List String) : List String := unique (patterns.map normalizePath)

def stringList (value : Val) (fallback : List String) : List String :=
  match value with
  | .list items => unique ((items.filter fun item => item.text ≠ "").map Val.toText)
  | .str text => if Text.strip text ≠ "" then [Text.strip text] else fallback
  | _ => fallback

/-! ## Decisions -/

structure PathDecision where
  path : String
  normalizedPath : String
  allowed : Bool
  reason : String
  matchedAllowed : String
  matchedBlocked : String

def decidePathScope (allowedPatterns blockedPatterns : List String) (path : String) :
    PathDecision :=
  let normalized := normalizePath path
  if normalized = "" then ⟨path, normalized, false, "empty_path", "", ""⟩
  else
    let blockedMatch := firstMatchingPattern normalized blockedPatterns
    if blockedMatch ≠ "" then ⟨path, normalized, false, "blocked_path_pattern", "", blockedMatch⟩
    else
      let allowedMatch := firstMatchingPattern normalized allowedPatterns
      if allowedMatch ≠ "" then ⟨path, normalized, true, "allowed_path_pattern", allowedMatch, ""⟩
      else ⟨path, normalized, false, "outside_allowed_paths", "", ""⟩

structure ActionDecision where
  action : String
  normalizedAction : String
  allowed : Bool
  reason : String

def decideActionScope (action : String) : ActionDecision :=
  let normalized := Text.lower (Text.strip action)
  if normalized = "" then ⟨action, normalized, false, "empty_action"⟩
  else if normalized ∈ blockedMutationActions then
    ⟨action, normalized, false, "blocked_mutation_action"⟩
  else if normalized ∈ safeScopeActions then ⟨action, normalized, true, "safe_scope_action"⟩
  else ⟨action, normalized, false, "unknown_action"⟩

/-! ## The gate -/

abbrev Entries := List (String × Val)

def firstStrings (keys : List String) (record : Entries) : List String :=
  ((keys.map fun key => stringList (Val.getIn key record) []).find? (· ≠ [])).getD []

def extractStrings (keys fallback : List String) (authorization : Entries) : List String :=
  let own := firstStrings keys authorization
  if own ≠ [] then own
  else
    match Val.getIn "repair_intent" authorization with
    | .dict repairIntent =>
      let intended := firstStrings keys repairIntent
      if intended ≠ [] then intended else fallback
    | _ => fallback

def extractPathsFromAuthorization (authorization : Entries) : List String :=
  extractStrings ["target_paths", "paths", "requested_paths", "candidate_paths"] [] authorization

def extractRequestedActions (authorization : Entries) : List String :=
  extractStrings ["requested_actions", "allowed_actions", "proposed_actions", "actions"]
    ["prepare_code_repair"] authorization

/-- `patterns or default` -/
def orDefault (patterns default : List String) : List String :=
  if patterns = [] then default else patterns

def buildSummary (scopeAllowed : Bool) (blockedReasons : List String) : String :=
  if scopeAllowed then
    "Mutation scope gate passed for preview-only repair routing. Mutation remains disabled until a later executor gate."
  else if blockedReasons = [] then "Mutation scope gate blocked."
  else "Mutation scope gate blocked: " ++ ", ".intercalate (unique blockedReasons)

structure GateResult where
  taskId : String
  proposalId : String
  scopeStatus : String
  scopeAllowed : Bool
  authorizationGranted : Bool
  targetPaths : List String
  requestedActions : List String
  allowedPaths : List String
  blockedPaths : List String
  pathDecisions : List PathDecision
  actionDecisions : List ActionDecision
  blockedReasons : List String
  allowedNextAction : String
  humanSummary : String
  rawAuthorization : Entries

def pathReason (decision : PathDecision) : Option String :=
  if decision.allowed then none
  else some ("path_blocked:" ++ decision.path ++ ":" ++ decision.reason)

def actionReason (decision : ActionDecision) : Option String :=
  if decision.allowed then none
  else some ("action_blocked:" ++ decision.action ++ ":" ++ decision.reason)

/-- `build_runtime_repair_mutation_scope_gate` -/
def scopeGate (authorization targetPaths requestedActions : Val)
    (allowedPaths blockedPaths : List String) : GateResult :=
  let safeAuthorization := authorization.entries
  let authorized := (Val.getIn "authorized" safeAuthorization).truthy
  let resolvedAllowedPaths := normalizePatterns (orDefault allowedPaths defaultAllowedPaths)
  let resolvedBlockedPaths := normalizePatterns (orDefault blockedPaths defaultBlockedPaths)
  let requestedPathValues :=
    stringList targetPaths (extractPathsFromAuthorization safeAuthorization)
  let requestedActionValues :=
    stringList requestedActions (extractRequestedActions safeAuthorization)
  let pathDecisions :=
    requestedPathValues.map (decidePathScope resolvedAllowedPaths resolvedBlockedPaths)
  let actionDecisions := requestedActionValues.map decideActionScope
  let blockedReasons :=
    (if authorized then [] else ["mutation_authorization_not_granted"]) ++
      pathDecisions.filterMap pathReason ++ actionDecisions.filterMap actionReason
  let scopeAllowed := authorized && blockedReasons.isEmpty
  { taskId := (Val.getIn "task_id" safeAuthorization).text
    proposalId := (Val.getIn "proposal_id" safeAuthorization).text
    scopeStatus := if scopeAllowed then "allowed" else "blocked"
    scopeAllowed := scopeAllowed
    authorizationGranted := authorized
    targetPaths := requestedPathValues
    requestedActions := requestedActionValues
    allowedPaths := resolvedAllowedPaths
    blockedPaths := resolvedBlockedPaths
    pathDecisions := pathDecisions
    actionDecisions := actionDecisions
    blockedReasons := unique blockedReasons
    allowedNextAction := if scopeAllowed then "build_patch_preview" else "inspect_scope_block"
    humanSummary := buildSummary scopeAllowed blockedReasons
    rawAuthorization := safeAuthorization }

end ScopeGate
end ZeroRuntime
