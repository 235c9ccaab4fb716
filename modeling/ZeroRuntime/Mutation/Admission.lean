import ZeroRuntime.Mutation.Store

/-!
# ZeroRuntime.Mutation.Admission

Before anything is written: binding the workspace root, admitting the handoff, and looking at the
live preconditions of its operations (`engineering_workspace_mutation_root_binding.py`,
`..._executor_admission.py`, `..._live_precondition.py`).

The root is the directory the workspace is in: its name, and whether it is the root of a file system
or a drive.
-/

namespace ZeroRuntime
namespace Mutation

open Lib Workspace

/-! ## Root binding -/

structure WorkspaceRoot where
  name : String
  filesystemRoot : Bool := false
  driveRoot : Bool := false

structure RootBinding where
  bound : Bool
  workspaceId : Val
  workspaceRootFingerprint : Val
  reasonCodes : List String

def workspaceFingerprint (D : Digest) (root : WorkspaceRoot) : String :=
  D.fingerprint (.dict [("workspace_root_name", .str root.name), ("root_kind", .str "directory")])

/-- `any(resolved.iterdir())`: the tree, or the store's home. -/
def hasEntries : Run Bool := Eff.query fun s =>
  .ok (decide (s.tree.paths ≠ ∅) || !s.store.entries.isEmpty)

def rootReasons (D : Digest) (root : WorkspaceRoot) (handoff pkg : Entries)
    (entries : Except Err Bool) : List String :=
  let given := Val.getIn "workspace_root_fingerprint" handoff
  let id := Val.getIn "workspace_id" handoff
  (if root.filesystemRoot then ["filesystem_root_disallowed"] else []) ++
  (if root.driveRoot then ["drive_root_disallowed"] else []) ++
  (match entries with
    | .ok true => []
    | .ok false => ["workspace_root_empty"]
    | .error _ => ["workspace_root_unreadable"]) ++
  (if given.truthy && !given.eq (.str (workspaceFingerprint D root))
    then ["workspace_root_fingerprint_mismatch"] else []) ++
  (if id.truthy && !id.eq ((Val.getIn "workspace_id" pkg).orElse id)
    then ["workspace_id_mismatch"] else [])

def bindWorkspaceRoot (D : Digest) (root : WorkspaceRoot) (handoff : Entries) :
    Run RootBinding := do
  let found ← Eff.attempt (Eff.query fun _ => .ok ())
  let rs ← match found with
    | .error _ => pure ["workspace_root_not_found"]
    | .ok () => do
      let entries ← Eff.attempt hasEntries
      let pkg ← Eff.ofExcept (txPackage handoff)
      pure (rootReasons D root handoff pkg entries)
  let pkg ← Eff.ofExcept (txPackage handoff)
  pure { bound := rs.isEmpty
         workspaceId := (Val.getIn "workspace_id" handoff).orElse (Val.getIn "workspace_id" pkg)
         workspaceRootFingerprint := (Val.getIn "workspace_root_fingerprint" handoff).orElse
           (if rs.isEmpty then .str (workspaceFingerprint D root) else .none)
         reasonCodes := reasons rs }

/-! ## Admission -/

def falseFlags : List String :=
  ["transaction_execution_authorized", "authorization_token_consumed",
    "preparation_token_consumed", "mutation_executor_invoked", "transaction_started",
    "backup_created", "commit_started", "commit_completed", "rollback_performed",
    "recovery_performed", "mutation_performed", "filesystem_write_performed", "patch_applied",
    "git_invoked", "shell_invoked", "runtime_kernel_invoked", "network_invoked", "model_invoked",
    "adapter_invoked"]

/-- `x is True` -/
def isTrue : Val → Bool
  | .bool true => true
  | _ => false

/-- `x is False` -/
def isFalse : Val → Bool
  | .bool false => true
  | _ => false

/-- `h.get(key, default)` -/
def getD (h : Entries) (key : String) (default : Val) : Val := (Val.find key h).getD default

/-- `_scope_values`: the first of the names that is set, as a list. -/
def scopeValues (scope : Entries) : List String → List Val
  | [] => []
  | name :: names =>
    match Val.getIn name scope with
    | .none => scopeValues scope names
    | .list xs => xs
    | _ => []

def scopeReasons (scope : Entries) (ops : List Entries) (expectedCount actualCount : Val) :
    List String :=
  let explicit := scopeValues scope
    ["authorized_operation_ids", "operation_ids", "allowed_operation_ids"]
  let types := scopeValues scope
    ["authorized_operation_types", "operation_types", "allowed_operation_types"]
  (if !explicit.isEmpty && !Val.eqItems explicit (ops.map operationId)
    then ["authorized_operation_scope_mismatch"] else []) ++
  (if !Val.eqItems (scopeValues scope
      ["authorized_target_paths", "target_paths", "allowed_target_paths"]) (ops.map targetRel)
    then ["authorized_target_scope_mismatch"] else []) ++
  (if !types.isEmpty && !Val.eqItems types (ops.map opType)
    then ["authorized_operation_type_scope_mismatch"] else []) ++
  (if !expectedCount.eq actualCount then ["authorized_operation_count_mismatch"] else [])

def validateExplicitAuthorizedScope (handoff : Entries) (ops : List Entries) : List String :=
  match Val.getIn "authorized_scope" handoff with
  | .dict scope =>
    let status := getD scope "status" (.str "valid")
    (if status.elem [.str "valid", .str "authorized", .str "approved"] then []
      else ["authorized_scope_invalid"]) ++
    scopeReasons scope ops (getD scope "operation_count" (.int ops.length)) (.int ops.length)
  | _ => []

def artifactKeys : List String :=
  ["transaction_closure", "readiness", "transaction_package_validation", "authorization_token",
    "preparation_token", "authorization_verification", "authorization_decision",
    "authorized_scope", "mutation_package_validation"]

def badStatuses : List Val :=
  [.str "invalid", .str "not_ready", .str "not_verified", .str "not_valid", .str "failed"]

/-- An upstream artifact that is there and not valid. -/
def artifactReasons (handoff : Entries) (key : String) : Except Err (List String) :=
  let a := getD handoff key (.dict [])
  if a.truthy then do
    let status ← a.attr "status"
    pure (if status.elem badStatuses then [key ++ "_invalid"] else [])
  else .ok []

def authorizationReasons (handoff : Entries) : List String :=
  let mutation := Val.hasKey "human_mutation_authorization_obtained" handoff
  let human := Val.hasKey "human_authorization_obtained" handoff
  (if !(mutation || human) then ["human_authorization_missing"]
    else if !isTrue (getD handoff "human_mutation_authorization_obtained"
      (Val.getIn "human_authorization_obtained" handoff)) then ["human_authorization_missing"]
    else []) ++
  (if isTrue (getD handoff "transaction_planning_completed" (.bool true)) then []
    else ["transaction_planning_incomplete"]) ++
  (if isFalse (getD handoff "transaction_execution_authorized" (.bool false)) then []
    else ["upstream_already_authorized"]) ++
  falseFlags.flatMap fun k =>
    if isFalse (getD handoff k (.bool false)) then [] else [k ++ "_not_false"]

def tokenReasons (handoff : Entries) : Except Err (List String) := do
  let tok := getD handoff "authorization_token" (.dict [])
  let ptok := getD handoff "preparation_token" (.dict [])
  let rs ← if tok.truthy then do
      let purpose ← tok.attr "token_purpose"
      let limit ← tok.attr "use_limit"
      let consumed ← tok.attr "token_consumed"
      pure (if !purpose.eq (.str "workspace_mutation_transaction_admission") ||
        !limit.eq (.int 1) || !isFalse consumed then ["token_invalid"] else [])
    else .ok []
  let prs ← if ptok.truthy then do
      let consumed ← ptok.attr "token_consumed"
      pure (if isFalse consumed then [] else ["preparation_token_consumed"])
    else .ok []
  pure (rs ++ prs)

/-- What is wrong with one operation by itself. -/
def operationReasons (o : Entries) : List String :=
  let tr := targetRel o
  let sr := sourceRel o
  (if (opKind o).isSome then [] else ["unsupported_operation"]) ++
  (if tr.truthy then reasons (safeRelPath tr) else ["target_missing"]) ++
  (if opKind o = some .renamePath then
    if sr.truthy then reasons (safeRelPath sr) ++
      (if sr.eq tr then ["source_target_identity"] else [])
    else ["source_missing"]
  else []) ++
  (if opKind o = some .createTextFile ∨ opKind o = some .replaceTextFile then
    match content o with
    | .str c => if maxContent < utf8Length c then ["content_bound_exceeded"] else []
    | _ => ["binary_content"]
  else [])

/-- `a != b and (a.startswith(b + '/') or b.startswith(a + '/'))`, which raises unless both are
strings. -/
def nested (a b : Val) : Except Err Bool :=
  if a.eq b then .ok false
  else match a, b with
    | .str s, .str t =>
      .ok (Text.startsWith s (t ++ "/") || Text.startsWith t (s ++ "/"))
    | .str _, _ => .error .typeError
    | _, _ => .error .attributeError

/-- `len(targets) != len(set(targets))` -/
def hasDuplicates (targets : List Val) : Except Err Bool :=
  if targets.all Val.hashable then .ok (targets.length ≠ (Val.dedup targets).length)
  else .error .typeError

def anyNested (targets : List Val) : Except Err Bool := do
  let found ← targets.mapM fun a => do
    let ns ← targets.mapM fun b => nested a b
    pure (ns.any id)
  pure (found.any id)

/-- What is wrong with the operations together. -/
def conflictReasons (ops : List Entries) : Except Err (List String) := do
  let targets := (ops.map targetRel).filter Val.truthy
  let ren := (ops.filter fun o => opKind o = some .renamePath && (sourceRel o).truthy).map
    fun o => (sourceRel o, targetRel o)
  let dup ← hasDuplicates targets
  let nest ← anyNested targets
  let cycle := ren.any fun x => ren.any fun y => x.1.eq y.2 && x.2.eq y.1
  pure ((if dup then ["duplicate_target_conflict"] else []) ++
    (if nest then ["parent_child_conflict"] else []) ++ (if cycle then ["rename_cycle"] else []))

inductive AdmissionStatus where
  | admitted | invalid | notAdmitted
deriving DecidableEq, Repr

structure Admission where
  status : AdmissionStatus
  workspaceId : Val
  workspaceRootFingerprint : Val
  handoffId : Val
  operationIds : List Val
  operationCount : ℕ
  reasonCodes : List String
  transactionId : String

def admissionReasons (binding : RootBinding) (handoff : Entries) (ops : List Entries) :
    Except Err (List String) := do
  let schema := Val.getIn "schema" handoff
  let artifacts ← artifactKeys.mapM (artifactReasons handoff)
  let tokens ← tokenReasons handoff
  let conflicts ← conflictReasons ops
  pure ((if binding.bound then [] else ["workspace_binding_invalid"]) ++
    (if schema.eq (.str "zero.engineering.mutation_executor_handoff.v1") then []
      else ["handoff_schema_invalid"]) ++
    artifacts.flatten ++ authorizationReasons handoff ++ tokens ++
    (if ops.isEmpty then ["empty_operation_subset"] else []) ++
    (if maxOps < ops.length then ["operation_bound_exceeded"] else []) ++
    (if ops.isEmpty then [] else validateExplicitAuthorizedScope handoff ops) ++
    ops.flatMap operationReasons ++ conflicts)

def admitWorkspaceMutationExecutor (D : Digest) (binding : RootBinding) (handoff : Entries) :
    Except Err Admission := do
  let ops ← opsFromHandoff handoff
  let rs ← admissionReasons binding handoff ops
  let txid ← transactionId D handoff
  pure { status := if rs.isEmpty then .admitted
           else if rs.contains "handoff_schema_invalid" then .invalid else .notAdmitted
         workspaceId := binding.workspaceId
         workspaceRootFingerprint := binding.workspaceRootFingerprint
         handoffId := Val.getIn "handoff_id" handoff
         operationIds := ops.map operationId
         operationCount := ops.length
         reasonCodes := reasons rs
         transactionId := txid }

/-! ## Live preconditions -/

/-- The pinned fingerprint of the content before, if there is one, is the one found. -/
def unpinned (D : Digest) (o : Entries) (found : String) : Bool :=
  !(expectedBefore o).truthy || (expectedBefore o).eq (.str (D.sha found))

/-- What one operation finds amiss, inside its `try`. -/
def liveReasons (D : Digest) (o : Entries) (tp : Path) : Run (List String) :=
  match opKind o with
  | some .createTextFile | some .createDirectory => do
    pure (if ← has tp then ["target_exists"] else [])
  | some .replaceTextFile | some .deleteFile => do
    if !(← has tp) then pure ["target_missing"]
    else if !(← isFile tp) then pure ["target_kind_invalid"]
    else do
      let found ← readText tp
      pure (if unpinned D o found then [] else ["precondition_mismatch"])
  | some .renamePath => do
    match ← resolveInside (sourceRel o) with
    | .error rs => pure (rs ++ ["source_missing"])
    | .ok sp =>
      if !(← has sp) then pure ["source_missing"]
      else if ← has tp then pure ["target_exists"]
      else pure []
  | none => pure ["unsupported_operation"]

def inspectOperations (D : Digest) : List Entries → Run (List String)
  | [] => pure []
  | o :: os => do
    let rs ← match ← resolveInside (targetRel o) with
      | .error rs => pure rs
      | .ok tp => do
        match ← Eff.attempt (liveReasons D o tp) with
        | .ok rs => pure rs
        | .error _ => pure ["internal_execution_failure"]
    let more ← inspectOperations D os
    pure (rs ++ more)

inductive PreconditionStatus where
  | satisfied | invalid | notSatisfied
deriving DecidableEq, Repr

structure Precondition where
  status : PreconditionStatus
  reasonCodes : List String

/-- `inspect_live_preconditions`, for an admitted handoff. -/
def inspectLivePreconditions (D : Digest) (ops : List Entries) : Run Precondition := do
  let rs ← inspectOperations D ops
  pure { status := if rs.isEmpty then .satisfied
           else if rs.contains "path_escape" || rs.contains "path_invalid" then .invalid
           else .notSatisfied
         reasonCodes := reasons rs }

end Mutation
end ZeroRuntime
