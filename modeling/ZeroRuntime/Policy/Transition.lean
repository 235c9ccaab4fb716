import ZeroRuntime.Lib.Value

/-!
# ZeroRuntime.Policy.Transition

The transition policy (`core/runtime/runtime_transition_policy.py`): whether a status may follow
another, given the state, the updates, the owner and the action of the change.

* Statuses are texts, in the spelling `normalizeStatus` gives them; the policy knows some of them.
* `checkTransition` asks one rule after the other, and the first rule that denies decides.
* `int` is the built-in of that name, `none` where it raises.
-/

namespace ZeroRuntime
namespace Policy

open Lib

/-- The entries of a mapping. -/
abbrev Entries := List (String × Val)

def terminalStatuses : List String := ["finished", "failed", "cancelled", "timeout"]

def readonlyRuntimeModes : List String := ["replay", "audit", "repair_replay"]

def runningStatuses : List String := ["running", "ready", "planning", "replanning", "retrying"]

def blockedStatuses : List String :=
  ["blocked", "waiting", "waiting_review", "waiting_blocker", "paused", "review_required"]

def reviewStatuses : List String := ["waiting_review", "review_required"]

/-- The blocked statuses that need their blockers resolved. -/
def blockerStatuses : List String := ["blocked", "waiting_blocker"]

def recoveryActions : List String :=
  ["rollback_restore", "rollback_reopen", "rollback_retry", "restore_repair_backup"]

def allowedBlockedReopenActionTokens : List String :=
  ["unblock", "replan", "retry", "resume", "review", "blocker_resolved", "remove_blocker"]

def reviewResolutionKeys : List String :=
  ["review_resolved", "review_approved", "review_resolution", "blocker_resolved",
    "unblock_confirmed", "replan_approved"]

def reviewResolutionValues : List String :=
  ["approved", "resolved", "accepted", "confirmed", "unblocked", "replan_approved"]

/-- `RuntimeTransitionDecision` -/
structure Decision where
  ok : Bool
  reason : String
  currentStatus : String
  nextStatus : String
  runtimeMode : String
  owner : String
  action : String
  details : Entries

/-! ## Reading -/

/-- `str(value or "").strip().lower()` -/
def lowered (value : Val) : String := Text.lower value.text

def normalizeStatus (value : Val) : String :=
  if lowered value = "" then "queued" else lowered value

/-- `payload.get(key)` where that is a mapping. -/
def mappingAt (key : String) (payload : Entries) : Option Entries :=
  match Val.getIn key payload with
  | .dict kvs => some kvs
  | _ => none

def modeText (payload : Entries) : Option String :=
  let value := lowered (Val.getIn "runtime_mode" payload)
  if value = "" then none else some value

def modeOf (payload : Entries) : Option String :=
  (modeText payload).or
    (((mappingAt "runtime_context" payload).bind modeText).or
      ((mappingAt "repair_context" payload).bind modeText))

def runtimeMode (state updates : Entries) : String :=
  ((modeOf updates).or (modeOf state)).getD "execute"

def repairMapping (key : String) (payload : Entries) : Option Entries :=
  (mappingAt key payload).or ((mappingAt "repair_context" payload).bind (mappingAt key))

def rollbackPayload (state updates : Entries) : Option Entries :=
  (repairMapping "rollback" updates).or (repairMapping "rollback" state)

def rollbackResultPayload (state updates : Entries) : Option Entries :=
  (repairMapping "rollback_result" updates).or (repairMapping "rollback_result" state)

/-! ## Resolutions -/

def actionAllowsBlockedReopen (action : String) : Bool :=
  allowedBlockedReopenActionTokens.any (Text.contains (Text.lower (Text.strip action)) ·)

def isResolution : Val → Bool
  | .bool b => b
  | value => lowered value ∈ reviewResolutionValues || lowered value ∈ ["true", "yes", "1"]

def hasResolutionMarker (payload : Entries) : Bool :=
  reviewResolutionKeys.any (fun key => (Val.find key payload).any isResolution) ||
    (mappingAt "resolution" payload).any
      (fun resolution => lowered (Val.getIn "status" resolution) ∈ reviewResolutionValues)

def hasReviewResolution (state updates : Entries) (action : String) : Bool :=
  hasResolutionMarker updates || hasResolutionMarker state ||
    ["approved", "resolved", "confirmed"].any (Text.contains action ·) ||
    lowered ((Val.getIn "review_status" updates).orElse (Val.getIn "review_status" state)) ∈
      reviewResolutionValues ||
    ((mappingAt "review_payload" updates).or (mappingAt "review_payload" state)).any
      hasResolutionMarker

def isActiveBlocker : Val → Bool
  | .dict item =>
    lowered (Val.getIn "status" item) ∉ ["resolved", "approved", "cleared", "removed"]
  | _ => false

/-- `payload.get("blockers")` where that is a list. -/
def blockersOf (payload : Entries) : Option (List Val) :=
  match Val.getIn "blockers" payload with
  | .list items => some items
  | _ => none

section Int

variable (int : Val → Option Int)

def hasBlockerResolution (state updates : Entries) (action : String) : Bool :=
  hasResolutionMarker updates ||
    ["resolved", "unblock", "remove_blocker"].any (Text.contains action ·) ||
    match (blockersOf updates).or (blockersOf state) with
    | some blockers => !blockers.any isActiveBlocker
    | none =>
      let activeCount :=
        (Val.find "active_blocker_count" updates).getD (Val.getIn "active_blocker_count" state)
      int (activeCount.orElse (.int 0)) = some 0

/-! ## The retry budget -/

/-- The mapping that `retry_budget` is. -/
def retryBudget (state updates : Entries) : Option Entries :=
  (mappingAt "retry_budget" updates).or (mappingAt "retry_budget" state)

/-- The retries a budget mapping says remain. -/
def remainingIn (budget : Entries) : Option Int :=
  match Val.find "remaining" budget with
  | some remaining => int remaining
  | none => (Val.find "retry_budget_remaining" budget).bind int

/-- The retries that remain, when they can be read. -/
def remaining (state updates : Entries) : Option Int :=
  ((retryBudget state updates).bind (remainingIn int)).or
    (match Val.find "retry_budget_remaining" updates with
      | some value => int value
      | none => (Val.find "retry_budget_remaining" state).bind int)

def exhausted (state updates : Entries) : Bool :=
  (retryBudget state updates).any fun budget => (Val.getIn "exhausted" budget).truthy

/-! ## The rules -/

/-- What is read off a change before the rules are asked. -/
structure Change where
  state : Entries
  updates : Entries
  currentStatus : String
  nextStatus : String
  runtimeMode : String
  owner : String
  action : String

def readChange (state updates : Entries) (owner action : Val) : Change :=
  let currentStatus := normalizeStatus (Val.getIn "status" state)
  { state := state, updates := updates, currentStatus := currentStatus
    nextStatus := normalizeStatus ((Val.find "status" updates).getD (.str currentStatus))
    runtimeMode := runtimeMode state updates, owner := lowered owner, action := lowered action }

namespace Change

variable (c : Change)

/-- `_deny`, under a rule. -/
def deny (reason rule : String) (details : Entries) : Decision :=
  { ok := false, reason := reason, currentStatus := c.currentStatus, nextStatus := c.nextStatus
    runtimeMode := c.runtimeMode, owner := c.owner, action := c.action
    details := ("rule", .str rule) :: details }

def allow (reason rule : String) : Decision :=
  { ok := true, reason := reason, currentStatus := c.currentStatus, nextStatus := c.nextStatus
    runtimeMode := c.runtimeMode, owner := c.owner, action := c.action
    details := [("rule", .str rule)] }

/-- A denial if the condition holds. -/
def denyIf (condition : Bool) (reason rule : String) : Option Decision :=
  if condition then some (c.deny reason rule []) else none

def checkRecoveryTransition : Decision :=
  let rollback := rollbackPayload c.state c.updates
  let result := rollbackResultPayload c.state c.updates
  let restores := c.action ∈ ["rollback_restore", "restore_repair_backup", ""]
  let reopens := c.action ∈ ["rollback_reopen", "rollback_retry"]
  let denial :=
    (c.denyIf (c.runtimeMode ∈ readonlyRuntimeModes)
      (c.runtimeMode ++ " runtime cannot perform rollback recovery transition")
      "readonly_runtime_no_rollback_recovery").or
    ((c.denyIf (restores && rollback.isNone) "rollback recovery requires rollback metadata"
      "rollback_requires_metadata").or
    ((c.denyIf (restores && !rollback.any fun r => (Val.getIn "restore_available" r).truthy)
      "rollback recovery requires restore_available rollback metadata"
      "rollback_requires_restore_available").or
    ((c.denyIf (reopens && !result.any fun r => Val.getIn "ok" r matches .bool true)
      "rollback reopen/retry requires successful rollback_result"
      "rollback_reopen_requires_successful_result").or
    (c.denyIf (reopens && c.currentStatus ∈ terminalStatuses && !Text.contains c.action "rollback")
      ("terminal runtime status " ++ c.currentStatus ++
        " requires explicit rollback recovery action before " ++ c.nextStatus)
      "terminal_reopen_requires_rollback_action"))))
  denial.getD (c.allow "recovery transition allowed" "recovery_allowed")

/-- `str(updates.get("recovery_action") or "").strip().lower()` -/
def recoveryAction : String := lowered (Val.getIn "recovery_action" c.updates)

/-- The change is a rollback: by its action, or by what the updates name. -/
def isRollback : Bool := c.action ∈ recoveryActions || c.recoveryAction ∈ recoveryActions

def recovery : Change := if c.action = "" then { c with action := c.recoveryAction } else c

def checkRecovery : Option Decision :=
  if c.isRollback && !c.recovery.checkRecoveryTransition.ok then
    some c.recovery.checkRecoveryTransition
  else none

def checkReadonly : Option Decision :=
  c.denyIf (c.runtimeMode ∈ readonlyRuntimeModes && c.nextStatus ∈ runningStatuses)
    (c.runtimeMode ++ " runtime cannot transition to execution status " ++ c.nextStatus)
    "readonly_runtime_no_execution"

/-- `_is_explicit_rollback_recovery_reopen`, which asks the recovery rules as the task runtime. -/
def isExplicitRollbackRecoveryReopen : Bool :=
  c.recovery.action ∈ ["rollback_reopen", "rollback_retry"] &&
    ({ c.recovery with owner := "task_runtime" } : Change).checkRecoveryTransition.ok

def checkTerminal : Option Decision :=
  c.denyIf (c.currentStatus ∈ terminalStatuses && c.nextStatus ∈ runningStatuses &&
      !c.isExplicitRollbackRecoveryReopen)
    ("terminal runtime status " ++ c.currentStatus ++ " cannot transition to " ++ c.nextStatus)
    "terminal_no_reopen"

def checkRetryLegality : Option Decision :=
  let exhausted := exhausted c.state c.updates
  let remaining := remaining int c.state c.updates
  if exhausted || remaining = some 0 then
    some (c.deny "retry transition requires available retry budget" "retry_requires_budget"
      [("retry_budget_exhausted", .bool exhausted),
        ("retry_budget_remaining", (remaining.map Val.int).getD .none)])
  else none

def checkRetry : Option Decision :=
  if c.nextStatus = "retrying" then c.checkRetryLegality int else none

def checkReview : Option Decision :=
  if c.currentStatus ∈ reviewStatuses ∧ c.nextStatus ∈ runningStatuses then
    (c.denyIf (!actionAllowsBlockedReopen c.action)
      ("review runtime status " ++ c.currentStatus ++
        " requires explicit review resolution action before " ++ c.nextStatus)
      "review_reopen_requires_action").or
    (c.denyIf (!hasReviewResolution c.state c.updates c.action)
      ("review runtime status " ++ c.currentStatus ++ " requires resolved/approved review before " ++
        c.nextStatus)
      "review_reopen_requires_resolution")
  else none

def checkBlocked : Option Decision :=
  if c.currentStatus ∈ blockedStatuses ∧ c.nextStatus ∈ runningStatuses then
    (c.denyIf (!actionAllowsBlockedReopen c.action)
      ("blocked runtime status " ++ c.currentStatus ++
        " requires explicit unblock/replan action before " ++ c.nextStatus)
      "blocked_reopen_requires_action").or
    (c.denyIf (c.currentStatus ∈ blockerStatuses &&
        !hasBlockerResolution int c.state c.updates c.action)
      ("blocked runtime status " ++ c.currentStatus ++ " requires blocker resolution before " ++
        c.nextStatus)
      "blocked_reopen_requires_resolution")
  else none

/-- The first rule that denies, or leave. -/
def check : Decision :=
  (c.checkRecovery.or (c.checkReadonly.or (c.checkTerminal.or ((c.checkRetry int).or
    (c.checkReview.or (c.checkBlocked int)))))).getD (c.allow "transition allowed" "allowed")

end Change

def checkTransition (state updates : Entries) (owner action : Val) : Decision :=
  (readChange state updates owner action).check int

end Int

end Policy
end ZeroRuntime
