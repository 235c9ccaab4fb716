import ZeroRuntime.Lib.Machine
import ZeroRuntime.Lib.Value

/-!
# ZeroRuntime.Status.StateMachine

The runtime state machine (`core/runtime/runtime_state_machine.py`): a task's runtime state is a
mapping that every call copies, normalises and updates.

* `canonicalizeStatus` reads a status of any spelling; a text it does not know is `queued`.
* `transition` takes its arguments as one `Request`. What the caller passes as `extra_updates` is
  merged into the mapping on the branch that moves and on the branch that does not.
* `fromFailurePolicy` goes through the marking functions; `Call` is one call of either kind, with
  the reading `now` of the clock. The readings one call takes are taken to be the same.
-/

namespace ZeroRuntime
namespace Status

open Lib

/-- The entries of a mapping. -/
abbrev Entries := List (String × Val)

inductive RuntimeStatus where
  | queued
  | planning
  | ready
  | running
  | retrying
  | waiting
  | blocked
  | replanning
  | paused
  | finished
  | failed
  | cancelled
  | timeout
deriving DecidableEq, Repr

namespace RuntimeStatus

/-- The text a status is stored as. -/
def value : RuntimeStatus → String
  | queued => "queued"
  | planning => "planning"
  | ready => "ready"
  | running => "running"
  | retrying => "retrying"
  | waiting => "waiting"
  | blocked => "blocked"
  | replanning => "replanning"
  | paused => "paused"
  | finished => "finished"
  | failed => "failed"
  | cancelled => "cancelled"
  | timeout => "timeout"

/-- `ALL_STATUSES` -/
def all : List RuntimeStatus :=
  [finished, failed, cancelled, timeout, queued, planning, ready, running, retrying, waiting,
    blocked, replanning, paused]

/-- `TERMINAL_STATUSES` -/
def terminal : RuntimeStatus → Bool
  | finished | failed | cancelled | timeout => true
  | _ => false

/-- `ALLOWED_TRANSITIONS` -/
def allowed : RuntimeStatus → List RuntimeStatus
  | queued => [planning, ready, running, blocked, paused, finished, cancelled, failed]
  | planning => [ready, failed, cancelled, timeout]
  | ready => [running, paused, blocked, waiting, cancelled, failed, timeout]
  | running =>
    [ready, retrying, waiting, blocked, replanning, paused, finished, failed, cancelled, timeout]
  | retrying => [running, waiting, blocked, replanning, failed, cancelled, timeout, paused]
  | waiting => [ready, running, blocked, replanning, failed, cancelled, timeout, paused]
  | blocked => [ready, running, waiting, replanning, failed, cancelled, timeout, paused]
  | replanning => [ready, running, failed, cancelled, timeout, paused]
  | paused => [queued, ready, running, cancelled, failed]
  | finished => []
  | failed => []
  | cancelled => []
  | timeout => []

end RuntimeStatus

open RuntimeStatus

def statusAliases : List (String × RuntimeStatus) :=
  [("aborted", cancelled), ("abort", cancelled), ("cancel", cancelled), ("canceled", cancelled),
    ("complete", finished), ("completed", finished), ("done", finished), ("ok", finished),
    ("success", finished), ("succeeded", finished), ("verified", finished),
    ("partial_failed", failed), ("recoverable_failure", failed), ("verification_failed", failed),
    ("review_required", blocked), ("policy_blocked", blocked), ("rejected", blocked),
    ("forced_repair", replanning), ("fallback", replanning), ("recovering", replanning),
    ("timed_out", timeout), ("timedout", timeout)]

def statusText (status : Val) : String :=
  Text.replaceChar ' ' '_' (Text.replaceChar '-' '_' (Text.lower status.text))

def canonicalizeStatus (status : Val) : RuntimeStatus :=
  let text := statusText status
  match RuntimeStatus.all.find? (·.value = text) with
  | some s => s
  | none => (statusAliases.lookup text).getD queued

theorem canonicalizeStatus_value (s : RuntimeStatus) : canonicalizeStatus (.str s.value) = s := by
  cases s <;> decide

def canTransition (oldStatus newStatus : RuntimeStatus) : Bool :=
  oldStatus = newStatus || newStatus ∈ oldStatus.allowed

/-! ## The runtime state -/

/-- `is_runtime_session_terminal_status`, for a status of the machine. -/
def isRuntimeSessionTerminalStatus : RuntimeStatus → Bool
  | finished | failed | cancelled | blocked => true
  | _ => false

/-- `is_runtime_session_active_status`, for a status of the machine. -/
def isRuntimeSessionActiveStatus : RuntimeStatus → Bool
  | queued | running | retrying => true
  | _ => false

def runtimeSessionValidationSummary (status : RuntimeStatus) : Val :=
  .dict [("schema", .str "zero.runtime.session.v1"), ("normalized_status", .str status.value),
    ("terminal", .bool (isRuntimeSessionTerminalStatus status)),
    ("active", .bool (isRuntimeSessionActiveStatus status))]

def buildHistoryRecord (now : String) (oldStatus newStatus : String) (reason message : Val) : Val :=
  .dict [("ts", .str now), ("old_status", .str oldStatus), ("new_status", .str newStatus),
    ("reason", reason), ("message", message)]

def statusOf (state : Entries) : RuntimeStatus := canonicalizeStatus (Val.getIn "status" state)

/-- A history that is not a list counts as none. -/
def listed : Val → List Val
  | .list xs => xs
  | _ => []

def historyOf (state : Entries) : List Val := listed (Val.getIn "runtime_status_history" state)

/-- The history after `ensure_runtime_status_fields`: an empty one is opened. -/
def openedHistory (now : String) (state : Entries) : List Val :=
  if (historyOf state).isEmpty then
    [buildHistoryRecord now "" (statusOf state).value (.str "init")
      (.str "initialize runtime status history")]
  else historyOf state

def ensureRuntimeStatusFields (now : String) (runtimeState : Entries) : Entries :=
  let status := statusOf runtimeState
  let state := Val.put "status" (.str status.value) runtimeState
  let state := Val.put "runtime_session_validation" (runtimeSessionValidationSummary status) state
  let state :=
    Val.put "runtime_status_history" (.list (openedHistory now runtimeState)) state
  if (Val.getIn "runtime_created_at" state).truthy then state
  else Val.put "runtime_created_at" (.str now) state

/-! ## Transitions -/

structure TransitionResult where
  ok : Bool
  oldStatus : RuntimeStatus
  newStatus : RuntimeStatus
  reason : Val
  message : Val

/-- The arguments of `transition`. No updates are the same as empty ones. -/
structure Request where
  newStatus : Val
  reason : Val := .str ""
  message : Val := .str ""
  allowNoop : Bool := true
  extraUpdates : Entries := []

/-- `d.update(updates)` -/
def update (state updates : Entries) : Entries :=
  updates.foldl (fun d e => Val.put e.1 e.2 d) state

/-- The field a status is stamped in; `queued` has none. -/
def timestampField : RuntimeStatus → Option String
  | queued => none
  | status => some (status.value ++ "_at")

def applyStatusTimestamps (now : String) (state : Entries) (newStatus : RuntimeStatus) : Entries :=
  let state := match timestampField newStatus with
    | some field => Val.put field (.str now) state
    | none => state
  Val.put "last_status_change_at" (.str now) state

def appendHistory (now : String) (state : Entries) (oldStatus newStatus : RuntimeStatus)
    (reason message : Val) : Entries :=
  Val.put "runtime_status_history"
    (.list (historyOf state ++
      [buildHistoryRecord now oldStatus.value newStatus.value reason message])) state

def transition (now : String) (runtimeState : Entries) (r : Request) :
    TransitionResult × Entries :=
  let state := ensureRuntimeStatusFields now runtimeState
  let oldStatus := statusOf state
  let targetStatus := canonicalizeStatus r.newStatus
  let arrow := oldStatus.value ++ " -> " ++ targetStatus.value
  if oldStatus = targetStatus ∧ r.allowNoop = true then
    ({ ok := true, oldStatus := oldStatus, newStatus := targetStatus
       reason := r.reason.orElse (.str "noop")
       message := r.message.orElse (.str ("status unchanged: " ++ oldStatus.value)) },
      update state r.extraUpdates)
  else if !canTransition oldStatus targetStatus then
    ({ ok := false, oldStatus := oldStatus, newStatus := targetStatus
       reason := r.reason.orElse (.str "invalid_transition")
       message := r.message.orElse (.str ("invalid transition: " ++ arrow)) }, state)
  else
    let reason := r.reason.orElse (.str "")
    let message := r.message.orElse (.str arrow)
    let updated := update (Val.put "status" (.str targetStatus.value) state) r.extraUpdates
    let updated := applyStatusTimestamps now updated targetStatus
    ({ ok := true, oldStatus := oldStatus, newStatus := targetStatus, reason := reason
       message := message },
      appendHistory now updated oldStatus targetStatus reason message)

/-! ## The failure policy -/

/-- What `force_set` asks of `transition`. -/
def forceSet (newStatus reason message : Val) : Request :=
  { newStatus := newStatus, reason := reason
    message := message.orElse (.str "force_set_routed_through_transition_validator") }

/-- What a marking function asks of `transition`: a status, the reason it has by default, its message
and its updates. -/
def mark (status : RuntimeStatus) (reason : Val) (default message : String)
    (extraUpdates : Entries) : Request :=
  { newStatus := .str status.value, reason := reason.orElse (.str default)
    message := .str message, extraUpdates := extraUpdates }

def markRetrying (reason : Val) (nextRetryTick : Option Int) : Request :=
  mark retrying reason "retrying" "runtime waiting for retry"
    (match nextRetryTick with
      | some tick => [("next_retry_tick", .int tick)]
      | none => [])

def markWaiting (reason : Val) : Request := mark waiting reason "waiting" "runtime waiting" []

def markReplanning (reason : Val) : Request :=
  mark replanning reason "replanning" "runtime replanning" []

def markFailed (now : String) (reason : Val) : Request :=
  mark failed reason "failed" "runtime failed" [("last_failed_at", .str now)]

/-- What `from_failure_policy` asks of `transition`. -/
def failurePolicyRequest (now : String) (runtimeState : Entries) (action reason : Val)
    (nextRetryTick : Option Int) : Request :=
  let cleanAction := Text.lower action.text
  if cleanAction = "retry" then
    markRetrying (reason.orElse (.str "failure_policy_retry")) nextRetryTick
  else if cleanAction = "replan" then
    markReplanning (reason.orElse (.str "failure_policy_replan"))
  else if cleanAction = "wait" then markWaiting (reason.orElse (.str "failure_policy_wait"))
  else if cleanAction = "fail" then markFailed now (reason.orElse (.str "failure_policy_fail"))
  else
    forceSet ((Val.find "status" runtimeState).getD (.str queued.value))
      (.str "unknown_failure_policy_action")
      (.str ("unknown failure policy action: " ++ cleanAction))

def fromFailurePolicy (now : String) (runtimeState : Entries) (action reason : Val)
    (nextRetryTick : Option Int) : TransitionResult × Entries :=
  transition now runtimeState (failurePolicyRequest now runtimeState action reason nextRetryTick)

/-! ## Calls -/

inductive Call where
  | transition (now : String) (r : Request)
  | fromFailurePolicy (now : String) (action reason : Val) (nextRetryTick : Option Int)

/-- A task whose runtime state goes from call to call. -/
def runtimeStateMachine : Machine Entries Call TransitionResult where
  step state
    | .transition now r => Status.transition now state r
    | .fromFailurePolicy now action reason nextRetryTick =>
      Status.fromFailurePolicy now state action reason nextRetryTick

end Status
end ZeroRuntime
