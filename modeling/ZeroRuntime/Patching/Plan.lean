import ZeroRuntime.Lib.FileMap
import ZeroRuntime.Lib.Written

/-!
# ZeroRuntime.Patching.Plan

Patch plans: which files of a workspace are to be replaced, and what a session allows.

Paths are written down as texts; `normalizeRelativePath` reads the names. A scope is a list of rules,
each one a path, or a path and a star.
-/

namespace ZeroRuntime
namespace Patching

open Lib

abbrev Entries := List (String × Val)

structure MutationScope where
  allowedPaths : List String
  deniedPaths : List String := []
  maxFilesChanged : Option ℤ := none
  allowNewFiles : Bool := true

structure MutationSession where
  sessionId : String
  scope : MutationScope
  sandboxRunId : Option String := none

structure MutationPatchItem where
  relativePath : String
  operation : String := "replace"
  operationPayload : Entries := []

structure MutationPatchPlan where
  sessionId : String
  sandboxRunId : Option String
  items : List MutationPatchItem
  sandboxFiles : List (String × String) := []
  metadata : Entries := []

/-! ## Paths -/

/-- `while path.startswith("./"): path = path[2:]` -/
def dropHere : List Char → List Char
  | '.' :: '/' :: cs => dropHere cs
  | cs => cs

def pathText (names : Names) : String := "/".intercalate names

/-- `_normalize_relative_path`; the two modules name the path differently in their messages. -/
def normalizeRelativePath (subject path : String) : Except Err Names :=
  let normalized :=
    String.ofList (dropHere (Text.strip (Text.replaceChar '\\' '/' path)).toList)
  let names := (Text.split '/' normalized).filter fun name => name ≠ "" ∧ name ≠ "."
  if Text.strip path = "" then .error (.valueError (subject ++ " path must be non-empty text."))
  else if Text.startsWith normalized "/" then
    .error (.valueError (subject ++ " path must be relative: " ++ path))
  else if ".." ∈ names then
    .error (.valueError (subject ++ " path escapes workspace: " ++ path))
  else if names = [] then .error (.valueError (subject ++ " path must be non-empty text."))
  else .ok names

def pathMatches (path rule : String) : Except Err Bool := do
  let normalizedRule := pathText (← normalizeRelativePath "Mutation" rule)
  if Text.endsWith normalizedRule "*" then
    let pre := Text.stripRight '/' (String.ofList normalizedRule.toList.dropLast)
    .ok (path = pre || Text.startsWith path (pre ++ "/"))
  else .ok (path = normalizedRule || Text.startsWith path (normalizedRule ++ "/"))

/-- `any(_path_matches(path, rule) for rule in rules)` -/
def anyMatches (path : String) : List String → Except Err Bool
  | [] => .ok false
  | rule :: rules => do
    if ← pathMatches path rule then .ok true else anyMatches path rules

def validateMutationPath (relativePath : String) (scope : MutationScope) : Except Err Bool := do
  let path := pathText (← normalizeRelativePath "Mutation" relativePath)
  if ← anyMatches path scope.deniedPaths then .ok false
  else if scope.allowedPaths = [] then .ok false
  else anyMatches path scope.allowedPaths

def validateMutationFileCount (changedPaths : List String) (scope : MutationScope) : Bool :=
  match scope.maxFilesChanged with
  | none => true
  | some max => (changedPaths.dedup.length : ℤ) ≤ max

/-! ## Plans -/

def operationPayloadsByPath (operations : List Val) : Except Err (Dict Names Entries) :=
  operations.foldlM
    (fun result operation =>
      match operation with
      | .dict kvs =>
        let rawPath := ((Val.getIn "target_path" kvs).orElse (Val.getIn "relative_path" kvs)).orElse
          (Val.getIn "path" kvs)
        if rawPath.truthy then do
          let names ← normalizeRelativePath "Patch" rawPath.toText
          .ok (result.set names kvs)
        else .ok result
      | _ => .ok result)
    Dict.empty

/-- The paths are checked one after the other. -/
def checkScope (scope : MutationScope) : List Names → Except Err Unit
  | [] => .ok ()
  | names :: paths => do
    if ← validateMutationPath (pathText names) scope then checkScope scope paths
    else .error (.valueError ("Mutation patch path outside session scope: " ++ pathText names))

def createPatchPlan (session : MutationSession) (relativePaths : List String)
    (operations : List Val) (sandboxFiles : Entries) (metadata : Entries) :
    Except Err MutationPatchPlan := do
  let paths ← relativePaths.mapM (normalizeRelativePath "Patch")
  if !validateMutationFileCount (paths.map pathText) session.scope then
    .error (.valueError "Mutation patch exceeds max_files_changed scope limit.")
  else
    checkScope session.scope paths
    let operationByPath ← operationPayloadsByPath operations
    let items := paths.map fun names =>
      let payload := (operationByPath.get? names).getD []
      { relativePath := pathText names
        operation := (((Val.find "op_type" payload).getD (.str "replace")).orElse
          (.str "replace")).toText
        operationPayload := payload : MutationPatchItem }
    let files ← sandboxFiles.foldlM
      (fun files e => do
        let names ← normalizeRelativePath "Patch" e.1
        .ok (Dict.set files (pathText names) e.2.toText))
      Dict.empty
    .ok
      { sessionId := session.sessionId
        sandboxRunId := session.sandboxRunId
        items
        sandboxFiles := files.entries
        metadata }

/-! ## What an item brings -/

def minimalPatchResult (patchText : String) : Except Err String :=
  let kept := (Text.splitLines patchText.toList).filterMap fun line =>
    if Text.isPrefix "+++".toList line || Text.isPrefix "---".toList line ||
        Text.isPrefix "@@".toList line then none
    else
      match line with
      | c :: rest => if c = '+' ∨ c = ' ' ∨ c = '\t' then some (String.ofList rest) else none
      | [] => none
  if kept = [] then .error (.valueError "patch_has_no_content")
  else .ok ("\n".intercalate kept ++ "\n")

def payloadContent (payload : Entries) : Except Err (Option String) :=
  match Val.getIn "content" payload with
  | .none =>
    match Val.getIn "patch" payload with
    | .none => .ok none
    | patch => do
      let content ← minimalPatchResult patch.toText
      .ok (some content)
  | content => .ok (some content.toText)

/-! ## Authority -/

def capabilitySchema : String := "zero.runtime.mutation_authority.v1"

def canonicalMutationAuthority : String := "RuntimeMutationGateway"

/-- `issue_runtime_mutation_capability`, as `apply_patch_plan` asks for it. -/
def issueRuntimeMutationCapability (sessionId operation target : String) : Entries :=
  let session : Val := .str sessionId
  [("schema", .str capabilitySchema), ("authority", .str canonicalMutationAuthority),
    ("issuer", .str canonicalMutationAuthority),
    ("source", .str "mutation_patch_apply_legacy_request"), ("role", .str "PERSISTENCE"),
    ("request_id", .str session.text), ("operation_type", .str operation),
    ("target_path", .str target), ("allowed_operations", .list [.str operation]),
    ("allowed_targets", .list [.str target]),
    ("scope", .dict [("session_id", session), ("target_path", .str target)]),
    ("lineage", .dict [("session_id", session)]), ("provenance", .dict [("session_id", session)]),
    ("metadata", .dict [("compatibility", .str "legacy_direct_apply_call")])]

def targetMatches (target pattern : String) : Bool :=
  let target := Text.lower target
  let pattern' := Text.stripRight '/' (Text.lower pattern)
  pattern = "*" || target = pattern' || Text.startsWith target (pattern' ++ "/")

/-- `_mapping_contains(granted, {})` -/
def isGranted : Val → Bool
  | .dict kvs => !kvs.isEmpty
  | _ => false

def requireRuntimeMutationAuthority (payload : Entries) (operation target : String) :
    Except Err Entries := do
  let get (k : String) : Val := Val.getIn k payload
  let clean (x : Val) : String := Text.strip (Text.replaceChar '\\' '/' (x.orElse (.str "")).toText)
  let target := clean (.str target)
  if payload = [] then .error (.permissionError "runtime_mutation_capability_required")
  else if !Val.eq (get "schema") (.str capabilitySchema) then
    .error (.permissionError "invalid_runtime_mutation_capability_schema")
  else if !Val.eq (get "authority") (.str canonicalMutationAuthority) then
    .error (.permissionError "invalid_runtime_mutation_authority")
  else if (get "issuer").text ≠ canonicalMutationAuthority then
    .error (.permissionError "invalid_runtime_mutation_capability_issuer")
  else if Text.upper (get "role").text ≠ "PERSISTENCE" then
    .error (.permissionError "runtime_mutation_authority_role_mismatch")
  else
    let operations := (← Val.iterate ((get "allowed_operations").orElse (.list []))).map Val.text
    if "*" ∉ operations ∧ operation ∉ operations then
      .error (.permissionError "runtime_mutation_operation_outside_authority")
    else
      let targets := (← Val.iterate ((get "allowed_targets").orElse (.list []))).map clean
      if "*" ∉ targets ∧ ¬targets.any (targetMatches target) then
        .error (.permissionError "runtime_mutation_target_outside_authority")
      else if "*" ∈ operations ∨ "*" ∈ targets then
        .error (.permissionError "runtime_mutation_wildcard_authority_forbidden")
      else if !isGranted (get "scope") then
        .error (.permissionError "runtime_mutation_scope_mismatch")
      else if !isGranted (get "lineage") then
        .error (.permissionError "runtime_mutation_lineage_mismatch")
      else
        .ok (payload ++
          [("validated", .bool true), ("validated_source", .str "mutation_patch_apply"),
            ("validated_operation_type", .str operation), ("validated_target_path", .str target)])

end Patching
end ZeroRuntime
