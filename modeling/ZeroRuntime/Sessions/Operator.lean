import ZeroRuntime.Lib.Canonical

/-!
# ZeroRuntime.Sessions.Operator

Operator sessions (`core/runtime/runtime_operator_session.py`): their statuses and transitions, the
fingerprint they are sealed with, and what `validate_session` finds.

* `Instant` is a reading of the clock in microseconds; what is written down are whole seconds.
* `SessionDigest` stands for `fingerprint`, on sessions and on the JSON values it is taken of.
* A `Root` is the identity of a directory, `none` when it does not resolve.
-/

namespace ZeroRuntime
namespace Sessions

open Lib

abbrev Entries := List (String × Val)

abbrev Instant := ℕ

def timeText (now : Instant) : ℕ := now / 1000000

/-- `parse_time(now) >= parse_time(at)` for a time that was written down. -/
def reached (now : Instant) (time : ℕ) : Bool := time * 1000000 ≤ now

abbrev Root := Option String

structure Failure where
  critical : Bool := false
  reasons : List String
deriving DecidableEq, Repr

inductive SessionStatus where
  | created | running | waitingForOperatorApproval | waitingForPlanReview
  | waitingForActiveAuthorization | waitingForCandidateBundle | waitingForTransactionInvocation
  | transactionRunning | completed | blocked | failed | expired | cancelled
deriving DecidableEq, Repr

namespace SessionStatus

def text : SessionStatus → String
  | created => "created"
  | running => "running"
  | waitingForOperatorApproval => "waiting_for_operator_approval"
  | waitingForPlanReview => "waiting_for_plan_review"
  | waitingForActiveAuthorization => "waiting_for_active_authorization"
  | waitingForCandidateBundle => "waiting_for_candidate_bundle"
  | waitingForTransactionInvocation => "waiting_for_transaction_invocation"
  | transactionRunning => "transaction_running"
  | completed => "completed"
  | blocked => "blocked"
  | failed => "failed"
  | expired => "expired"
  | cancelled => "cancelled"

def transitions : SessionStatus → List SessionStatus
  | created => [running, cancelled]
  | running =>
    [waitingForOperatorApproval, waitingForPlanReview, waitingForActiveAuthorization,
      waitingForCandidateBundle, waitingForTransactionInvocation, transactionRunning, blocked,
      failed, expired, cancelled]
  | waitingForOperatorApproval => [running, blocked, expired, cancelled]
  | waitingForPlanReview => [running, blocked, expired, cancelled]
  | waitingForActiveAuthorization => [running, blocked, expired, cancelled]
  | waitingForCandidateBundle => [running, blocked, expired, cancelled]
  | waitingForTransactionInvocation => [transactionRunning, blocked, expired, cancelled]
  | transactionRunning => [completed, blocked, failed]
  | completed | blocked | failed | expired | cancelled => []

def waiting : SessionStatus → Bool
  | waitingForOperatorApproval | waitingForPlanReview | waitingForActiveAuthorization
  | waitingForCandidateBundle | waitingForTransactionInvocation => true
  | _ => false

def terminal : SessionStatus → Bool
  | completed | blocked | failed | expired | cancelled => true
  | _ => false

end SessionStatus

/-- `required_action` -/
inductive RequiredAction where
  | none | operatorApproval | executionPlanReview | controlledExecutionRequest
  | activeExecutionAuthorization | candidateBundle | transactionalInvocation
deriving DecidableEq, Repr

structure Session where
  contract : String
  sessionId : String
  sessionStatus : SessionStatus
  taskId : String
  naturalTask : Val
  createdAt : ℕ
  updatedAt : ℕ
  expiresAt : ℕ
  targetRootIdentity : String
  workspaceRootIdentity : String
  requiredAction : RequiredAction
  artifacts : Entries
  artifactFingerprints : Entries
  failure : Option Failure
  completed : Bool
  processedInputIds : List String
  sessionFingerprint : String

structure SessionDigest where
  session : Session → String
  value : Val → String

/-- `CONTRACT` -/
def sessionContract : String := "zero.runtime.operator_session.v1"

section Digest

variable (F : SessionDigest)

/-- `fingerprint` of a JSON value. -/
def fingerprint (v : Val) : String := F.value v.sorted

def unsigned (s : Session) : Session := { s with sessionFingerprint := "" }

def sealSession (s : Session) : Session := { s with sessionFingerprint := F.session (unsigned s) }

/-- The artifacts whose fingerprint is not the one recorded. -/
def artifactReasons (s : Session) : List String :=
  (s.artifacts.filter fun e =>
      !(e.2 matches .none) &&
        !Val.eq (Val.getIn e.1 s.artifactFingerprints) (.str (fingerprint F e.2))).map
    fun e => "artifact_fingerprint_mismatch:" ++ e.1

/-- The reasons of the two root checks, which stop at a root that does not resolve. -/
def rootReasons (s : Session) (targetRoot workspaceRoot : Root) : List String :=
  match targetRoot with
  | none => ["invalid_root"]
  | some target =>
    (if target = s.targetRootIdentity then [] else ["target_root_mismatch"]) ++
      match workspaceRoot with
      | none => ["invalid_root"]
      | some workspace =>
        if workspace = s.workspaceRootIdentity then [] else ["workspace_root_mismatch"]

def validateSession (s : Session) (targetRoot workspaceRoot : Root) (now : Instant) :
    List String :=
  (if s.contract = sessionContract then [] else ["invalid_session_contract"]) ++
  (if s.sessionFingerprint = F.session (unsigned s) then [] else ["session_fingerprint_mismatch"]) ++
  artifactReasons F s ++ rootReasons s targetRoot workspaceRoot ++
  (if reached now s.expiresAt then ["session_expired"] else [])

def transition (s : Session) (status : SessionStatus) (now : Instant) : Except Err Session :=
  if status ∈ s.sessionStatus.transitions then
    .ok (sealSession F { s with sessionStatus := status, updatedAt := timeText now })
  else
    .error (.valueError
      ("invalid_transition:" ++ s.sessionStatus.text ++ ":" ++ status.text))

def setArtifact (s : Session) (name : String) (artifact : Val) : Session :=
  sealSession F
    { s with
      artifacts := Val.put name artifact s.artifacts
      artifactFingerprints :=
        Val.put name (.str (fingerprint F artifact)) s.artifactFingerprints }

end Digest

end Sessions
end ZeroRuntime
