import Mathlib.Data.Int.Notation
import Mathlib.Data.Nat.Notation
import ZeroRuntime.Goals.Lineage
import ZeroRuntime.Lib.Dict

/-!
# ZeroRuntime.Fabric.Records

The records of the transaction fabric (`core/runtime/runtime_transaction_fabric.py`) and of the
recovery queue (`core/runtime/runtime_recovery_queue.py`), with the dictionaries `to_dict` turns
them into: recovery incidents and ticket ids are computed from those.

Statuses are enumerations; `text` is the string the source uses for one. Clock readings are strings.
-/

namespace ZeroRuntime
namespace Fabric

open Lib Goals

inductive TransactionStatus where
  | opened | prepared | committed | failed | rolledBack | recoveryQueued | recovered | escalated
deriving DecidableEq, Repr

def TransactionStatus.text : TransactionStatus → String
  | .opened => "open"
  | .prepared => "prepared"
  | .committed => "committed"
  | .failed => "failed"
  | .rolledBack => "rolled_back"
  | .recoveryQueued => "recovery_queued"
  | .recovered => "recovered"
  | .escalated => "escalated"

/-- `TERMINAL_TRANSACTION_STATUSES` -/
def TransactionStatus.terminal : TransactionStatus → Bool
  | .committed | .rolledBack | .escalated => true
  | _ => false

inductive BoundaryStatus where
  | active | sealed | broken | rolledBack
deriving DecidableEq, Repr

def BoundaryStatus.text : BoundaryStatus → String
  | .active => "active"
  | .sealed => "sealed"
  | .broken => "broken"
  | .rolledBack => "rolled_back"

inductive StepStatus where
  | pending | completed | failed
deriving DecidableEq, Repr

def StepStatus.text : StepStatus → String
  | .pending => "pending"
  | .completed => "completed"
  | .failed => "failed"

structure RuntimeTransactionBoundary where
  boundaryId : String
  transactionId : String
  executionId : String := ""
  sourceSessionId : String := ""
  taskId : String := ""
  status : BoundaryStatus := .active
  beforeSnapshot : Entries := []
  afterSnapshot : Entries := []
  rollbackSnapshot : Entries := []
  metadata : Entries := []
  createdAt : String
  updatedAt : String

def RuntimeTransactionBoundary.toDict (b : RuntimeTransactionBoundary) : Val :=
  .dict [("boundary_id", .str b.boundaryId), ("transaction_id", .str b.transactionId),
    ("execution_id", .str b.executionId), ("source_session_id", .str b.sourceSessionId),
    ("task_id", .str b.taskId), ("status", .str b.status.text),
    ("before_snapshot", .dict b.beforeSnapshot), ("after_snapshot", .dict b.afterSnapshot),
    ("rollback_snapshot", .dict b.rollbackSnapshot), ("checkpoint_refs", .list []),
    ("metadata", .dict b.metadata), ("created_at", .str b.createdAt),
    ("updated_at", .str b.updatedAt)]

structure RuntimeTransactionStep where
  stepId : String
  transactionId : String
  stepIndex : ℕ
  actionType : String
  status : StepStatus := .pending
  payload : Entries := []
  result : Entries := []
  rollbackPayload : Entries := []
  createdAt : String
  updatedAt : String

def RuntimeTransactionStep.toDict (s : RuntimeTransactionStep) : Val :=
  .dict [("step_id", .str s.stepId), ("transaction_id", .str s.transactionId),
    ("step_index", .int s.stepIndex), ("action_type", .str s.actionType),
    ("status", .str s.status.text), ("payload", .dict s.payload), ("result", .dict s.result),
    ("rollback_payload", .dict s.rollbackPayload), ("metadata", .dict []),
    ("created_at", .str s.createdAt), ("updated_at", .str s.updatedAt)]

/-- The boundary is the one `begin_transaction` makes; nothing takes it away. -/
structure RuntimeTransactionRecord where
  transactionId : String
  sourceSessionId : String
  executionId : String := ""
  taskId : String := ""
  status : TransactionStatus := .opened
  boundary : RuntimeTransactionBoundary
  steps : List RuntimeTransactionStep := []
  recoveryTicket : Entries := []
  recoveryResult : Entries := []
  consistencyReport : Entries := []
  continuationRef : Entries := []
  payload : Entries := []
  metadata : Entries := []
  createdAt : String
  updatedAt : String

def RuntimeTransactionRecord.toDict (r : RuntimeTransactionRecord) : Val :=
  .dict [("transaction_id", .str r.transactionId), ("source_session_id", .str r.sourceSessionId),
    ("execution_id", .str r.executionId), ("task_id", .str r.taskId),
    ("status", .str r.status.text), ("boundary", r.boundary.toDict),
    ("steps", .list (r.steps.map RuntimeTransactionStep.toDict)),
    ("recovery_ticket", .dict r.recoveryTicket), ("recovery_result", .dict r.recoveryResult),
    ("consistency_report", .dict r.consistencyReport),
    ("continuation_ref", .dict r.continuationRef), ("payload", .dict r.payload),
    ("metadata", .dict r.metadata), ("created_at", .str r.createdAt),
    ("updated_at", .str r.updatedAt)]

inductive TicketStatus where
  | queued | running | completed | failed | escalated | blocked
deriving DecidableEq, Repr

def TicketStatus.text : TicketStatus → String
  | .queued => "queued"
  | .running => "running"
  | .completed => "completed"
  | .failed => "failed"
  | .escalated => "escalated"
  | .blocked => "blocked"

structure RuntimeRecoveryTicket where
  ticketId : String
  recoveryId : String
  sourceSessionId : String := ""
  incidentId : String := ""
  taskId : String := ""
  status : TicketStatus := .queued
  priority : ℤ := 100
  attempt : ℕ := 0
  maxAttempts : ℤ := 3
  nextRunTick : ℤ := 0
  createdTick : ℤ := 0
  updatedTick : ℤ := 0
  createdAt : String
  updatedAt : String
  payload : Entries := []
  metadata : Entries := []

def RuntimeRecoveryTicket.toEntries (t : RuntimeRecoveryTicket) : Entries :=
  [("ticket_id", .str t.ticketId), ("recovery_id", .str t.recoveryId),
    ("source_session_id", .str t.sourceSessionId), ("incident_id", .str t.incidentId),
    ("task_id", .str t.taskId), ("status", .str t.status.text), ("priority", .int t.priority),
    ("attempt", .int t.attempt), ("max_attempts", .int t.maxAttempts),
    ("next_run_tick", .int t.nextRunTick), ("created_tick", .int t.createdTick),
    ("updated_tick", .int t.updatedTick), ("created_at", .str t.createdAt),
    ("updated_at", .str t.updatedAt), ("payload", .dict t.payload), ("metadata", .dict t.metadata)]

def validateText (fieldName value : String) : Except Err String :=
  let text := Text.strip value
  if text = "" then .error (.rejected (fieldName ++ "_required")) else .ok text

theorem validateText_ok {fieldName value text : String}
    (h : validateText fieldName value = .ok text) : text = Text.strip value := by
  unfold validateText at h
  simp only at h
  split at h
  · cases h
  · cases h; rfl

theorem validateText_ne {fieldName value text : String}
    (h : validateText fieldName value = .ok text) : text ≠ "" := by
  unfold validateText at h
  simp only at h
  split at h
  · cases h
  · rename_i hne
    cases h
    exact hne

end Fabric
end ZeroRuntime
