import ZeroRuntime.Lib.Written
import ZeroRuntime.Missions.Goals

/-!
# ZeroRuntime.Execution.Registry

The registry of goal executions (`core/runtime/runtime_goal_execution_registry.py`): requests that
wait for an executor, and what became of those that are done.

* `hash` stands for the digest behind `fingerprint`, which is taken of a value with sorted keys.
* Entries and records are as the code makes them; `unsigned` is the mapping that is fingerprinted.
* Missions, goals and sessions come in as mappings, in any shape.
* `saveGoalExecutionRegistry` answers the content of the file, as a later load finds it. The checks
  of the path are left out.
-/

namespace ZeroRuntime
namespace Execution

open Lib Sessions Missions

/-- `CONTRACT` -/
def registryContract : String := "zero.runtime.goal_execution_registry.v1"

def entryContract : String := "zero.runtime.goal_execution_registry_entry.v1"

/-- `REQUEST_CONTRACT` of the goal executor. -/
def requestContract : String := "zero.runtime.goal_execution_request.v1"

def supportedGoalTypes : List String := ["inspect", "document", "modify", "validate"]

def forbiddenExecutableFields : List String :=
  ["argv", "callable", "command", "dynamic_import", "eval", "exec", "network", "shell",
    "subprocess"]

/-! ## Data -/

/-- A goal as `_normalize_goal` makes it. -/
structure NormalGoal where
  missionId : String
  goalId : String
  goalType : String
  goalTitle : String
  goalDescription : String
  targetScope : List String
  excludedScope : List String
  acceptanceCriteria : Val
  validationRequirements : Val
  operatorContext : Entries
  goalFingerprint : String

/-- `create_goal_execution_request` -/
structure ExecutionRequest where
  contract : String
  executionRequestId : String
  goalId : String
  missionId : String
  sessionId : Val
  goalType : String
  approvedScope : List String
  excludedScope : List String
  acceptanceCriteria : Val
  validationRequirements : Val
  operatorContext : Entries
  createdAt : ℕ
  goalFingerprint : String
  sessionFingerprint : Val
  executionRequestFingerprint : String

inductive EntryStatus where
  | registered | consumed | invalidated
deriving DecidableEq, Repr

def EntryStatus.text : EntryStatus → String
  | registered => "registered"
  | consumed => "consumed"
  | invalidated => "invalidated"

structure RegistryEntry where
  contract : String
  entryId : String
  registryId : String
  entryStatus : EntryStatus
  registeredAt : ℕ
  consumedAt : Option ℕ
  missionId : String
  goalId : String
  goalType : String
  goalFingerprint : String
  sessionId : String
  sessionFingerprint : Val
  approvedScope : List String
  excludedScope : List String
  artifactRoot : String
  executionRequest : ExecutionRequest
  executionRequestFingerprint : String
  executionResultFingerprint : Option String
  workspaceMutated : Bool
  transactionInvoked : Bool
  entryFingerprint : String

structure CompletionRecord where
  recordId : String
  missionId : Val
  goalId : Val
  sessionId : Val
  executionStatus : String
  transactionStatus : Val
  transactionFingerprint : Val
  evidenceFingerprint : Val
  completedAt : Val
  recordFingerprint : String

/-- What `finalize_goal_execution_registry` adds to a registry. -/
structure Completion where
  records : Dict String CompletionRecord
  recordOrder : List String
  count : ℕ
  closedAt : ℕ

inductive RegistryStatus where
  | active | closed
deriving DecidableEq, Repr

def RegistryStatus.text : RegistryStatus → String
  | active => "active"
  | closed => "closed"

structure Registry where
  contract : String
  registryId : String
  registryStatus : RegistryStatus
  createdAt : ℕ
  updatedAt : ℕ
  entries : Dict String RegistryEntry
  entryOrder : List String
  entryCount : ℕ
  completion : Option Completion
  registryFingerprint : String

/-! ## As mappings -/

def texts (xs : List String) : Val := .list (xs.map .str)

/-- A time that was written down. -/
def timeVal (t : ℕ) : Val := .int t

def optionalTime (t : Option ℕ) : Val := (t.map timeVal).getD .none

namespace NormalGoal

def unsigned (g : NormalGoal) : Entries :=
  [("mission_id", .str g.missionId), ("goal_id", .str g.goalId), ("goal_type", .str g.goalType),
    ("goal_title", .str g.goalTitle), ("goal_description", .str g.goalDescription),
    ("target_scope", texts g.targetScope), ("excluded_scope", texts g.excludedScope),
    ("acceptance_criteria", g.acceptanceCriteria),
    ("validation_requirements", g.validationRequirements),
    ("operator_context", .dict g.operatorContext)]

end NormalGoal

namespace ExecutionRequest

def unsigned (r : ExecutionRequest) : Entries :=
  [("contract", .str r.contract), ("execution_request_id", .str r.executionRequestId),
    ("goal_id", .str r.goalId), ("mission_id", .str r.missionId), ("session_id", r.sessionId),
    ("goal_type", .str r.goalType), ("approved_scope", texts r.approvedScope),
    ("excluded_scope", texts r.excludedScope), ("acceptance_criteria", r.acceptanceCriteria),
    ("validation_requirements", r.validationRequirements),
    ("operator_context", .dict r.operatorContext), ("created_at", timeVal r.createdAt),
    ("goal_fingerprint", .str r.goalFingerprint), ("session_fingerprint", r.sessionFingerprint)]

def toVal (r : ExecutionRequest) : Val :=
  .dict (r.unsigned ++ [("execution_request_fingerprint", .str r.executionRequestFingerprint)])

end ExecutionRequest

namespace RegistryEntry

def unsigned (e : RegistryEntry) : Entries :=
  [("contract", .str e.contract), ("entry_id", .str e.entryId),
    ("registry_id", .str e.registryId), ("entry_status", .str e.entryStatus.text),
    ("registered_at", timeVal e.registeredAt), ("consumed_at", optionalTime e.consumedAt),
    ("invalidated_at", .none), ("mission_id", .str e.missionId), ("goal_id", .str e.goalId),
    ("goal_type", .str e.goalType), ("goal_fingerprint", .str e.goalFingerprint),
    ("session_id", .str e.sessionId), ("session_fingerprint", e.sessionFingerprint),
    ("approved_scope", texts e.approvedScope), ("excluded_scope", texts e.excludedScope),
    ("artifact_root", .str e.artifactRoot), ("execution_request", e.executionRequest.toVal),
    ("execution_request_fingerprint", .str e.executionRequestFingerprint),
    ("workspace_mutated", .bool e.workspaceMutated),
    ("transaction_invoked", .bool e.transactionInvoked),
    ("audit_record", .dict
      [("event_type", .str "runtime_goal_execution_request_registered"),
        ("registered_at", timeVal e.registeredAt), ("mission_id", .str e.missionId),
        ("goal_id", .str e.goalId), ("session_id", .str e.sessionId)])] ++
  match e.executionResultFingerprint with
  | some result => [("execution_result_fingerprint", .str result)]
  | none => []

def toVal (e : RegistryEntry) : Val :=
  .dict (e.unsigned ++ [("entry_fingerprint", .str e.entryFingerprint)])

end RegistryEntry

namespace CompletionRecord

def unsigned (r : CompletionRecord) : Entries :=
  [("record_id", .str r.recordId), ("mission_id", r.missionId), ("goal_id", r.goalId),
    ("session_id", r.sessionId), ("execution_status", .str r.executionStatus),
    ("transaction_status", r.transactionStatus),
    ("transaction_fingerprint", r.transactionFingerprint),
    ("evidence_fingerprint", r.evidenceFingerprint), ("completed_at", r.completedAt)]

def toVal (r : CompletionRecord) : Val :=
  .dict (r.unsigned ++ [("record_fingerprint", .str r.recordFingerprint)])

end CompletionRecord

/-- A dictionary as a mapping of values. -/
def dictVal {α : Type} (toVal : α → Val) (d : Dict String α) : Val :=
  .dict (d.mapValues toVal).entries

def Completion.fields (c : Completion) : Entries :=
  [("completion_records", dictVal CompletionRecord.toVal c.records),
    ("completion_record_order", texts c.recordOrder), ("completion_count", .int c.count),
    ("closed_at", timeVal c.closedAt)]

/-- `_unsigned_registry` -/
def Registry.unsigned (r : Registry) : Entries :=
  [("contract", .str r.contract), ("registry_id", .str r.registryId),
    ("registry_status", .str r.registryStatus.text), ("created_at", timeVal r.createdAt),
    ("updated_at", timeVal r.updatedAt), ("entries", dictVal RegistryEntry.toVal r.entries),
    ("entry_order", texts r.entryOrder), ("entry_count", .int r.entryCount),
    ("audit_record", .dict
      [("event_type", .str "runtime_goal_execution_registry_created"),
        ("created_at", timeVal r.createdAt)])] ++
  match r.completion with
  | some c => c.fields
  | none => []

def Registry.toVal (r : Registry) : Val :=
  .dict (r.unsigned ++ [("registry_fingerprint", .str r.registryFingerprint)])

section Digest

variable (hash : Val → String)

def fingerprint (v : Val) : String := hash v.sorted

def sealRegistryEntry (e : RegistryEntry) : RegistryEntry :=
  { e with entryFingerprint := fingerprint hash (.dict e.unsigned) }

def sealGoalExecutionRegistry (r : Registry) : Registry :=
  { r with registryFingerprint := fingerprint hash (.dict r.unsigned) }

def createGoalExecutionRegistry (registryId : Val) (now : Instant) : Except Err Registry :=
  if registryId.text = "" then .error (.valueError "registry_id_required")
  else .ok <| sealGoalExecutionRegistry hash
    { contract := registryContract
      registryId := registryId.text
      registryStatus := .active
      createdAt := timeText now
      updatedAt := timeText now
      entries := Dict.empty
      entryOrder := []
      entryCount := 0
      completion := none
      registryFingerprint := "" }

/-! ## Validation -/

def validateRegistryEntry (e : RegistryEntry) : List String :=
  let r := e.executionRequest
  reasonIf (e.contract ≠ entryContract) "invalid_registry_entry_contract" ++
  reasonIf (e.entryFingerprint ≠ fingerprint hash (.dict e.unsigned))
    "registry_entry_fingerprint_mismatch" ++
  reasonIf (isBlank e.entryId) "entry_id_required" ++
  reasonIf (isBlank e.registryId) "registry_id_required" ++
  reasonIf (isBlank e.missionId) "mission_id_required" ++
  reasonIf (isBlank e.goalId) "goal_id_required" ++
  reasonIf (isBlank e.sessionId) "session_id_required" ++
  reasonIf (isBlank e.executionRequestFingerprint) "execution_request_fingerprint_required" ++
  reasonIf (r.contract ≠ requestContract) "invalid_execution_request_contract" ++
  reasonIf (!Val.eq r.sessionId (.str e.sessionId)) "registry_request_session_mismatch" ++
  reasonIf (r.goalId ≠ e.goalId) "registry_request_goal_mismatch" ++
  reasonIf (r.missionId ≠ e.missionId) "registry_request_mission_mismatch" ++
  reasonIf (r.executionRequestFingerprint ≠ e.executionRequestFingerprint)
    "registry_request_fingerprint_mismatch" ++
  reasonIf (e.workspaceMutated = true) "registry_must_not_mutate_workspace" ++
  reasonIf (e.transactionInvoked = true) "registry_must_not_invoke_transaction"

def validateGoalExecutionRegistry (r : Registry) : List String :=
  sortedSet <|
    reasonIf (r.contract ≠ registryContract) "invalid_goal_execution_registry_contract" ++
    reasonIf (r.registryFingerprint ≠ fingerprint hash (.dict r.unsigned))
      "goal_execution_registry_fingerprint_mismatch" ++
    reasonIf (isBlank r.registryId) "registry_id_required" ++
    reasonIf (r.entries.keys ≠ r.entryOrder) "registry_entry_order_mismatch" ++
    reasonIf (r.entryCount ≠ r.entries.entries.length) "registry_entry_count_mismatch" ++
    r.entries.entries.flatMap fun e =>
      reasonIf (e.2.entryId ≠ e.1) "registry_entry_identity_mismatch" ++
      validateRegistryEntry hash e.2

/-- `raise ValueError(";".join(reasons))` if there are any. -/
def requireNone (reasons : List String) : Except Err Unit :=
  if reasons ≠ [] then .error (.valueError (joined reasons)) else .ok ()

/-! ## Registering -/

/-- `str(item or "").strip()` with slashes for backslashes. -/
def scopePath (item : Val) : String :=
  String.ofList (item.text.toList.map fun c => if c = '\\' then '/' else c)

def stringList : Val → List String
  | .list xs =>
    ((xs.map scopePath).filter (· ≠ "")).foldl
      (fun seen x => if x ∈ seen then seen else seen ++ [x]) []
  | _ => []

def contextOf (goal : Entries) : Entries :=
  let instruction := (Val.getIn "authoring_instruction" goal).entries
  let context := (Val.getIn "operator_context" goal).entries
  if instruction.isEmpty || Val.hasKey "authoring_instruction" context then context
  else context ++ [("authoring_instruction", .dict instruction)]

def normalizeGoal (mission goal : Entries) : NormalGoal :=
  let get (k : String) : Val := Val.getIn k goal
  let planned := (Val.getIn "planner_output_summary" mission).entries
  let g : NormalGoal :=
    { missionId := ((get "mission_id").orElse (Val.getIn "mission_id" mission)).text
      goalId := (get "goal_id").text
      goalType := Text.lower ((get "goal_type").orElse (get "type")).text
      goalTitle := (get "goal_title").text
      goalDescription := ((get "goal_description").orElse (get "description")).text
      targetScope := stringList ((get "target_scope").orElse (get "approved_target_scope"))
      excludedScope :=
        stringList ((get "excluded_scope").orElse (Val.getIn "excluded_scope" planned))
      acceptanceCriteria := (get "acceptance_criteria").orElse (.list [])
      validationRequirements := (get "validation_requirements").orElse (.list [])
      operatorContext := contextOf goal
      goalFingerprint := (get "goal_fingerprint").text }
  if g.goalFingerprint = "" then { g with goalFingerprint := fingerprint hash (.dict g.unsigned) }
  else g

def createGoalExecutionRequest (g : NormalGoal) (session : Entries) (now : Instant) :
    ExecutionRequest :=
  let sessionId := Val.getIn "session_id" session
  let sessionFingerprint := Val.getIn "session_fingerprint" session
  let seed : Val := .dict
    [("goal_id", .str g.goalId), ("session_id", sessionId),
      ("goal_fingerprint", .str g.goalFingerprint), ("session_fingerprint", sessionFingerprint),
      ("operator_context", .dict g.operatorContext)]
  let r : ExecutionRequest :=
    { contract := requestContract
      executionRequestId := "goal-execution-" ++ Text.take 20 (fingerprint hash seed)
      goalId := g.goalId
      missionId := g.missionId
      sessionId
      goalType := g.goalType
      approvedScope := g.targetScope
      excludedScope := g.excludedScope
      acceptanceCriteria := g.acceptanceCriteria.orElse (.list [])
      validationRequirements := g.validationRequirements.orElse (.list [])
      operatorContext := g.operatorContext
      createdAt := timeText now
      goalFingerprint := g.goalFingerprint
      sessionFingerprint
      executionRequestFingerprint := "" }
  { r with executionRequestFingerprint := fingerprint hash (.dict r.unsigned) }

def registrationReasons (g : NormalGoal) (session : Entries) (artifactRoot : Val) : List String :=
  reasonIf (g.missionId = "") "mission_id_required" ++
  reasonIf (g.goalId = "") "goal_id_required" ++
  reasonIf (g.goalType ∉ supportedGoalTypes) "unsupported_goal_type" ++
  reasonIf (g.targetScope = []) "approved_scope_required" ++
  reasonIf (g.targetScope.any fun x => g.excludedScope.contains x)
    "approved_scope_intersects_excluded_scope" ++
  reasonIf (g.operatorContext.any fun e => forbiddenExecutableFields.contains e.1)
    "executable_operator_context_forbidden" ++
  reasonIf ((Val.getIn "session_id" session).text = "") "session_id_required" ++
  reasonIf (!Val.eq (Val.getIn "session_status" session) (.str "waiting_for_candidate_bundle"))
    "session_not_waiting_for_candidate_bundle" ++
  reasonIf (!Val.eq (Val.getIn "required_action" session) (.str "candidate_bundle"))
    "candidate_bundle_action_not_required" ++
  reasonIf (artifactRoot.text = "") "artifact_root_required"

def entryIdOf (registryId missionId goalId sessionId requestFingerprint : String) : String :=
  "goal-execution-entry-" ++ Text.take 20 (fingerprint hash (.dict
    [("registry_id", .str registryId), ("mission_id", .str missionId), ("goal_id", .str goalId),
      ("session_id", .str sessionId), ("execution_request_fingerprint", .str requestFingerprint)]))

def newEntry (registryId : String) (mission goal session : Entries) (artifactRoot : Val)
    (now : Instant) : RegistryEntry :=
  let g := normalizeGoal hash mission goal
  let request := createGoalExecutionRequest hash g session now
  let sessionId := (Val.getIn "session_id" session).text
  sealRegistryEntry hash
    { contract := entryContract
      entryId := entryIdOf hash registryId g.missionId g.goalId sessionId
        request.executionRequestFingerprint
      registryId
      entryStatus := .registered
      registeredAt := timeText now
      consumedAt := none
      missionId := g.missionId
      goalId := g.goalId
      goalType := g.goalType
      goalFingerprint := g.goalFingerprint
      sessionId
      sessionFingerprint := Val.getIn "session_fingerprint" session
      approvedScope := g.targetScope
      excludedScope := g.excludedScope
      artifactRoot := artifactRoot.text
      executionRequest := request
      executionRequestFingerprint := request.executionRequestFingerprint
      executionResultFingerprint := none
      workspaceMutated := false
      transactionInvoked := false
      entryFingerprint := "" }

def withEntry (r : Registry) (e : RegistryEntry) (now : Instant) : Registry :=
  let entries := r.entries.set e.entryId e
  sealGoalExecutionRegistry hash
    { r with
      entries
      entryOrder := r.entryOrder ++ [e.entryId]
      entryCount := entries.entries.length
      updatedAt := timeText now }

def registerGoalExecutionRequest (r : Registry) (mission goal session : Entries)
    (artifactRoot : Val) (now : Instant) : Except Err Registry := do
  requireNone (validateGoalExecutionRegistry hash r)
  if r.registryStatus ≠ .active then .error (.valueError "registry_not_active")
  else
    requireNone (sortedSet
      (registrationReasons (normalizeGoal hash mission goal) session artifactRoot))
    let e := newEntry hash r.registryId mission goal session artifactRoot now
    match r.entries.get? e.entryId with
    | some existing =>
      if existing.executionRequestFingerprint ≠ e.executionRequestFingerprint then
        .error (.valueError "registry_entry_identity_collision")
      else .ok (sealGoalExecutionRegistry hash r)
    | none =>
      let sealed := withEntry hash r e now
      requireNone (validateGoalExecutionRegistry hash sealed)
      .ok sealed

/-! ## Pending requests -/

structure PendingGoal where
  goalId : String
  missionId : String
  goalType : String
  goalFingerprint : String
  targetScope : List String
  excludedScope : List String
deriving DecidableEq, Repr

structure PendingRequest where
  goal : PendingGoal
  operatorContext : Entries
  artifactRoot : String
  registryEntryId : String
  executionRequest : ExecutionRequest
  executionRequestFingerprint : String

def offerOf (entryId : String) (e : RegistryEntry) : PendingRequest where
  goal :=
    { goalId := e.goalId
      missionId := e.missionId
      goalType := e.goalType
      goalFingerprint := e.goalFingerprint
      targetScope := e.approvedScope
      excludedScope := e.excludedScope }
  operatorContext := e.executionRequest.operatorContext
  artifactRoot := e.artifactRoot
  registryEntryId := entryId
  executionRequest := e.executionRequest
  executionRequestFingerprint := e.executionRequestFingerprint

/-- One turn of the loop over the entries. -/
def offerEntry (entries : Dict String RegistryEntry) (offered : Dict String PendingRequest)
    (entryId : String) : Dict String PendingRequest :=
  match entries.get? entryId with
  | some e =>
    if e.entryStatus ≠ .registered then offered
    else if isBlank e.sessionId then offered
    else offered.set (Text.strip e.sessionId) (offerOf entryId e)
  | none => offered

def pendingGoalExecutionRequests (r : Registry) : Except Err (Dict String PendingRequest) := do
  requireNone (validateGoalExecutionRegistry hash r)
  .ok (r.entryOrder.foldl (offerEntry r.entries) Dict.empty)

/-! ## Consuming -/

def consumedEntry (e : RegistryEntry) (result : String) (now : Instant) : RegistryEntry :=
  sealRegistryEntry hash
    { e with
      entryStatus := .consumed
      consumedAt := some (timeText now)
      executionResultFingerprint := some result }

def markRegistryEntryConsumed (r : Registry) (entryId result : Val) (now : Instant) :
    Except Err Registry := do
  requireNone (validateGoalExecutionRegistry hash r)
  match r.entries.get? entryId.text with
  | none => .error (.valueError "unknown_registry_entry")
  | some e =>
    if result.text = "" then .error (.valueError "execution_result_fingerprint_required")
    else
      match e.entryStatus with
      | .consumed =>
        if e.executionResultFingerprint ≠ some result.text then
          .error (.valueError "registry_entry_consumption_mismatch")
        else .ok (sealGoalExecutionRegistry hash r)
      | .invalidated => .error (.valueError "registry_entry_not_consumable")
      | .registered =>
        .ok <| sealGoalExecutionRegistry hash
          { r with
            entries := r.entries.set entryId.text (consumedEntry hash e result.text now)
            updatedAt := timeText now }

/-! ## Finalizing -/

/-- `mapping.get(key)` for a key of any type. -/
def lookup (key : Val) (kvs : Entries) : Except Err Val :=
  match key with
  | .str s => .ok (Val.getIn s kvs)
  | _ => if key.hashable then .ok .none else .error .typeError

def completionRecord (registryId : String) (mission : Entries) (goalId : Val)
    (goal session : Entries) (now : Instant) : CompletionRecord :=
  let artifacts := (Val.getIn "artifacts" session).entries
  let tx := (Val.getIn "transaction_result" artifacts).entries
  let evidence := (Val.getIn "final_evidence" artifacts).entries
  let missionId := Val.getIn "mission_id" mission
  let sessionId := Val.getIn "session_id" session
  let identity : Val := .dict
    [("registry_id", .str registryId), ("mission_id", missionId), ("goal_id", goalId),
      ("session_id", sessionId)]
  let record : CompletionRecord :=
    { recordId := "goal-execution-completion-" ++ Text.take 20 (fingerprint hash identity)
      missionId
      goalId
      sessionId
      executionStatus := "completed"
      transactionStatus := Val.getIn "transaction_status" tx
      transactionFingerprint :=
        Val.getIn "transaction_result" (Val.getIn "artifact_fingerprints" session).entries
      evidenceFingerprint := Val.getIn "final_evidence_fingerprint" evidence
      completedAt := (Val.getIn "completed_at" goal).orElse (timeVal (timeText now))
      recordFingerprint := "" }
  { record with recordFingerprint := fingerprint hash (.dict record.unsigned) }

/-- The registered entries of the session are consumed by the record of its goal. -/
def settleEntry (sessionId : Val) (result : String) (now : Instant) (e : RegistryEntry) :
    RegistryEntry :=
  if Val.eq (.str e.sessionId) sessionId && e.entryStatus = .registered then
    consumedEntry hash e result now
  else e

abbrev Settled := Dict String CompletionRecord × Dict String RegistryEntry

/-- One turn of the loop over the goals of the mission. -/
def settleGoal (registryId : String) (mission sessions : Entries) (now : Instant)
    (s : Settled) (goalId : Val) : Except Err Settled := do
  let goal := (← lookup goalId (Val.getIn "goals" mission).entries).entries
  if !Val.eq (Val.getIn "goal_status" goal) (.str "completed") then
    .error (.valueError "goal_not_completed")
  else
    let session := (← lookup goalId sessions).entries
    let record := completionRecord hash registryId mission goalId goal session now
    if (s.1.get? record.recordId).any fun existing => !Val.eq existing.toVal record.toVal then
      .error (.valueError "goal_completion_record_mismatch")
    else
      .ok (s.1.set record.recordId record,
        s.2.mapValues (settleEntry hash (Val.getIn "session_id" session) record.recordFingerprint
          now))

def finalizeGoalExecutionRegistry (r : Registry) (mission sessions : Entries) (now : Instant) :
    Except Err Registry := do
  requireNone (validateGoalExecutionRegistry hash r)
  if !Val.eq (Val.getIn "mission_status" mission) (.str "completed") then
    .error (.valueError "mission_not_completed")
  else
    let records := (r.completion.map Completion.records).getD Dict.empty
    let goalIds ← Val.iterate ((Val.getIn "goal_order" mission).orElse (.list []))
    let (records, entries) ←
      goalIds.foldlM (settleGoal hash r.registryId mission sessions now) (records, r.entries)
    .ok <| sealGoalExecutionRegistry hash
      { r with
        entries
        completion := some
          { records
            recordOrder := sortTexts records.keys
            count := records.entries.length
            closedAt := (r.completion.map Completion.closedAt).getD (timeText now) }
        registryStatus := .closed
        updatedAt := timeText now }

/-! ## Saving and loading -/

namespace ExecutionRequest

/-- The request as it is read back. -/
def written (r : ExecutionRequest) : ExecutionRequest :=
  { r with
    sessionId := r.sessionId.sorted
    acceptanceCriteria := r.acceptanceCriteria.sorted
    validationRequirements := r.validationRequirements.sorted
    operatorContext := Val.sortedEntries r.operatorContext
    sessionFingerprint := r.sessionFingerprint.sorted }

end ExecutionRequest

def RegistryEntry.written (e : RegistryEntry) : RegistryEntry :=
  { e with
    sessionFingerprint := e.sessionFingerprint.sorted
    executionRequest := e.executionRequest.written }

def CompletionRecord.written (r : CompletionRecord) : CompletionRecord :=
  { r with
    missionId := r.missionId.sorted
    goalId := r.goalId.sorted
    sessionId := r.sessionId.sorted
    transactionStatus := r.transactionStatus.sorted
    transactionFingerprint := r.transactionFingerprint.sorted
    evidenceFingerprint := r.evidenceFingerprint.sorted
    completedAt := r.completedAt.sorted }

def Completion.written (c : Completion) : Completion :=
  { c with records := (c.records.mapValues CompletionRecord.written).sortKeys }

/-- The registry as it is read back: every mapping by its keys. -/
def Registry.written (r : Registry) : Registry :=
  { r with
    entries := (r.entries.mapValues RegistryEntry.written).sortKeys
    completion := r.completion.map Completion.written }

/-- `save_goal_execution_registry`: the file, and the answer. -/
def saveGoalExecutionRegistry (r : Registry) : Except Err (Registry × Registry) := do
  let sealed := sealGoalExecutionRegistry hash r
  requireNone (validateGoalExecutionRegistry hash sealed)
  if sealed.toVal.writable then .ok (sealed.written, sealed) else .error .typeError

def loadGoalExecutionRegistry (file : Registry) : Except Err Registry := do
  requireNone (validateGoalExecutionRegistry hash file)
  .ok file

end Digest

end Execution
end ZeroRuntime
