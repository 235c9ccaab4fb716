import ZeroRuntime.Sessions.Operator

/-!
# ZeroRuntime.Sessions.EndToEnd

The way of a session from its creation to the transaction
(`core/runtime/runtime_end_to_end_orchestrator.py`).

* `createRuntimeSession` ends in the first pause, for the operator's approval of the proposal.
* `resumeRuntimeSession` takes one operator input. What the gate behind the required action makes
  of the input is a `Decision`: the artifacts it leaves and its verdict.
* `cancelRuntimeSession` ends a session that has not ended yet.
-/

namespace ZeroRuntime
namespace Sessions

open Lib

/-- `INPUT_CONTRACT` -/
def sessionInputContract : String := "zero.runtime.operator_session_input.v1"

def finalEvidenceContract : String := "zero.runtime.operator_session_final_evidence.v1"

def artifactNames : List String :=
  ["proposal", "approval", "admission", "execution_plan", "plan_review",
    "controlled_execution_request", "controlled_execution_result", "active_authorization",
    "active_authorization_result", "candidate_bundle", "invocation_request", "transaction_result",
    "final_evidence"]

/-- `ACTION_TO_INPUT` -/
def RequiredAction.inputType : RequiredAction → String
  | .none => ""
  | .operatorApproval => "proposal_approval"
  | .executionPlanReview => "execution_plan_review"
  | .controlledExecutionRequest => "controlled_execution_request"
  | .activeExecutionAuthorization => "active_execution_authorization"
  | .candidateBundle => "candidate_bundle"
  | .transactionalInvocation => "transactional_invocation"

/-- The parts of the configuration that a new session reads; `proposal` is what `_proposal` makes
of the task. -/
structure SessionConfig where
  sessionExpiresAt : Option ℕ := none
  proposal : Entries

section Digest

variable (F : SessionDigest)

def pause (s : Session) (status : SessionStatus) (action : RequiredAction) (now : Instant) :
    Except Err Session := do
  let s ← transition F s status now
  .ok (sealSession F { s with requiredAction := action })

def block (s : Session) (reasons : List String) (critical : Bool) (now : Instant) :
    Except Err Session := do
  let s ← transition F s (if critical then .failed else .blocked) now
  .ok (sealSession F { s with failure := some { critical, reasons }, requiredAction := .none })

/-- The id of a task that names none is derived from what it holds. -/
def taskIdOf (natural : Entries) : String :=
  let id := Val.getIn "task_id" natural
  if id.truthy then id.toText
  else "natural-task-" ++ Text.take 16 (fingerprint F (.dict natural))

def sessionSeed (taskId : String) (natural : Entries) (target workspace : String)
    (createdAt : ℕ) : Val :=
  .dict [("task_id", .str taskId), ("natural_task", .dict natural), ("target", .str target),
    ("workspace", .str workspace), ("created_at", .int createdAt)]

def sessionIdOf (taskId : String) (natural : Entries) (target workspace : String)
    (createdAt : ℕ) : String :=
  "runtime-session-" ++
    Text.take 20 (fingerprint F (sessionSeed taskId natural target workspace createdAt))

/-- Seven days. -/
def sessionLifetime : ℕ := 7 * 24 * 3600

/-- The session as it is first written down. -/
def newSession (natural : Entries) (target workspace : String) (config : SessionConfig)
    (now : Instant) : Session :=
  let createdAt := timeText now
  let taskId := taskIdOf F natural
  { contract := sessionContract
    sessionId := sessionIdOf F taskId natural target workspace createdAt
    sessionStatus := .created
    taskId
    naturalTask := .dict natural
    createdAt
    updatedAt := createdAt
    expiresAt := config.sessionExpiresAt.getD (createdAt + sessionLifetime)
    targetRootIdentity := target
    workspaceRootIdentity := workspace
    requiredAction := .none
    artifacts := artifactNames.map fun name => (name, .none)
    artifactFingerprints := []
    failure := none
    completed := false
    processedInputIds := []
    sessionFingerprint := "" }

/-- `create_runtime_session`, up to the save. -/
def createRuntimeSession (natural : Entries) (targetRoot workspaceRoot : Root)
    (config : SessionConfig) (now : Instant) : Except Err Session :=
  match targetRoot, workspaceRoot with
  | some target, some workspace => do
    let s := sealSession F (newSession F natural target workspace config now)
    let s ← transition F s .running now
    let s := setArtifact F s "proposal" (.dict config.proposal)
    pause F s .waitingForOperatorApproval .operatorApproval now
  | _, _ => .error .osError

/-! ## Taking an input -/

structure SessionInput where
  contract : String
  sessionId : String
  inputId : String
  operatorId : String
  inputType : String
  submittedAt : Option Instant
deriving DecidableEq, Repr

inductive Verdict where
  | accepted
  | refused (reasons : List String)
  | raised (e : Err)

/-- What the gate behind an action answers: the artifacts it leaves, in order, and its verdict. For
the transaction the verdict is in the result, as `transaction_status`. -/
structure Decision where
  artifacts : Entries
  verdict : Verdict
  transactionResult : Val := .dict []

/-- `_input`: a duplicate is answered with the session as it is. -/
def checkInput (s : Session) (input : SessionInput) (now : Instant) : Except Err Bool :=
  if input.contract ≠ sessionInputContract then
    .error (.valueError "invalid_operator_input_contract")
  else if input.sessionId ≠ s.sessionId then
    .error (.valueError "operator_input_session_mismatch")
  else if Text.strip input.inputId = "" ∨ Text.strip input.operatorId = "" then
    .error (.valueError "operator_identity_required")
  else if input.inputId ∈ s.processedInputIds then .ok true
  else if input.inputType ≠ s.requiredAction.inputType then .error (.valueError "wrong_phase_input")
  else if timeText now + 300 < timeText (input.submittedAt.getD now) then
    .error (.valueError "invalid_operator_input_time")
  else .ok false

/-- The pause after the accepted input of an action. -/
def nextPause : RequiredAction → Option (SessionStatus × RequiredAction)
  | .operatorApproval => some (.waitingForPlanReview, .executionPlanReview)
  | .executionPlanReview => some (.waitingForActiveAuthorization, .controlledExecutionRequest)
  | .controlledExecutionRequest =>
    some (.waitingForActiveAuthorization, .activeExecutionAuthorization)
  | .activeExecutionAuthorization => some (.waitingForCandidateBundle, .candidateBundle)
  | .candidateBundle => some (.waitingForTransactionInvocation, .transactionalInvocation)
  | .transactionalInvocation | .none => none

def setArtifacts (s : Session) (artifacts : Entries) : Session :=
  artifacts.foldl (fun s e => setArtifact F s e.1 e.2) s

/-- `build_runtime_session_final_evidence` -/
def finalEvidence (s : Session) : Val :=
  let tx := Val.getIn "transaction_result" s.artifacts
  let status := Val.getIn "transaction_status" tx.entries
  let value : Entries :=
    [("contract", .str finalEvidenceContract), ("session_id", .str s.sessionId),
      ("task_id", .str s.taskId),
      ("natural_task_fingerprint", .str (fingerprint F s.naturalTask)),
      ("final_transaction_status", status),
      ("validation_status", Val.getIn "validation_status" tx.entries),
      ("rollback_status", Val.getIn "rollback_status" tx.entries),
      ("outcome", .str (if Val.eq status (.str "committed") then "transaction_committed"
        else "transaction_rolled_back"))]
  .dict (value ++ [("final_evidence_fingerprint", .str (fingerprint F (.dict value)))])

/-- `list(result.get("reasons") or [status])` -/
def reasonsOf (result : Val) (status : String) : List String :=
  match Val.getIn "reasons" result.entries with
  | .list (x :: xs) => (x :: xs).map Val.toText
  | _ => [status]

/-- The end of the invocation: the result of the transaction decides. -/
def settleTransaction (s : Session) (result : Val) (now : Instant) : Except Err Session := do
  let s := setArtifact F s "transaction_result" result
  let status := (Val.getIn "transaction_status" result.entries).toText
  let reasons := reasonsOf result status
  if status = "rollback_failed" then block F s reasons true now
  else if status = "blocked" then block F s reasons false now
  else
    let s ← transition F s .completed now
    let s := { s with completed := true }
    let s := setArtifact F s "final_evidence" (finalEvidence F s)
    .ok { s with requiredAction := .none }

/-- What follows on the gate's answer. -/
def settleAction (s : Session) (action : RequiredAction) (d : Decision) (now : Instant) :
    Except Err Session :=
  let s := setArtifacts F s d.artifacts
  match nextPause action, d.verdict with
  | _, .raised e => .error e
  | some _, .refused reasons => block F s reasons false now
  | some (status, next), .accepted => pause F s status next now
  | none, _ =>
    if action = .transactionalInvocation then settleTransaction F s d.transactionResult now
    else .error (.valueError "unsupported_required_action")

/-- `resume_runtime_session`, with the gate's decision. -/
def resumeRuntimeSession (s : Session) (input : SessionInput) (d : Decision)
    (targetRoot workspaceRoot : Root) (now : Instant) : Except Err Session :=
  let reasons := validateSession F s targetRoot workspaceRoot now
  if reasons ≠ [] then .error (.valueError (";".intercalate reasons))
  else if s.sessionStatus.terminal then .ok s
  else do
    let duplicate ← checkInput s input now
    if duplicate then .ok s
    else
      let status := if s.sessionStatus = .waitingForTransactionInvocation then .transactionRunning
        else .running
      let started ← transition F s status now
      let settled ← settleAction F started s.requiredAction d now
      .ok (sealSession F
        { settled with processedInputIds := settled.processedInputIds ++ [input.inputId] })

def cancelRuntimeSession (s : Session) (operatorId : String) (now : Instant) :
    Except Err Session :=
  if Text.strip operatorId = "" then .error (.valueError "operator_id_required")
  else
    match s.sessionStatus with
    | .completed | .failed | .cancelled => .ok s
    | _ => do
      let s ← transition F s .cancelled now
      .ok (sealSession F { s with requiredAction := .none })

end Digest

end Sessions
end ZeroRuntime
