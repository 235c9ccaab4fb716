import ZeroRuntime.Journal.Wal
import ZeroRuntime.Reviews.Model

/-!
# ZeroRuntime.RuntimeGate.Model

What holds a task back, in its stored runtime state: the writer that settles a review
(`core/repo_sandbox/review.py`) and the two gates that read it
(`core/tasks/scheduler_core/runtime_dispatch_gate.py`, `core/tasks/scheduler_core/runtime_resume_gate.py`).

* `clearReviewRuntimeFields` resolves the blockers of a review and rewrites the fields that mirror
  the blockers. The writer and the gates differ in what they count as active.
* `settleReview`: a review is applied or rejected, and the state is written. The state is a file of
  its own; `{}` is the one that is missing or cannot be read.
* `applyRuntimeResumeGate`, `runtimeDispatchGateDecision`: the gates. `truncate` is `int(x)` of a
  number that is no integer, `ofItems` is `dict(x)` of what is no mapping.
-/

namespace ZeroRuntime
namespace RuntimeGate

open Lib

abbrev Entries := List (String × Val)

/-- `str(x.get(key) or "").strip().lower()` -/
def lowered (key : String) (record : Entries) : String := Text.lower (Val.getIn key record).text

/-- `str(x.get(key) or "")` -/
def textOr (key : String) (record : Entries) : String :=
  ((Val.getIn key record).orElse (.str "")).toText

def blockersOf (blockers : Val) : List Entries :=
  match blockers with
  | .list items => items.filterMap fun item =>
    match item with
    | .dict blocker => some blocker
    | _ => none
  | _ => []

/-! ## The writer -/

def pendingBlockerStatuses : List String := ["pending", "pending_review", "active", "waiting"]

def writerResolvedStatuses : List String :=
  ["resolved", "applied", "rejected", "cancelled", "done", "cleared"]

def waitingStatuses : List String := ["waiting_review", "waiting_blocker", "blocked", "waiting"]

/-- The id by which the writer knows a blocker. -/
def blockerId (blocker : Entries) : String :=
  ((Val.getIn "id" blocker).orElse
    ((Val.getIn "blocker_id" blocker).orElse (Val.getIn "review_id" blocker))).text

def isPendingReviewBlocker (reviewId : String) (blocker : Entries) : Bool :=
  lowered "type" blocker = "review" && lowered "status" blocker ∈ pendingBlockerStatuses &&
    (blockerId blocker = "" || blockerId blocker = reviewId)

def resolveBlocker (reviewId resolutionStatus now : String) (blocker : Entries) : Entries :=
  if isPendingReviewBlocker reviewId blocker then
    Val.put "resolution_review_id" (.str reviewId)
      (Val.put "resolved_at" (.str now) (Val.put "status" (.str resolutionStatus) blocker))
  else blocker

def writerActive (blocker : Entries) : Bool := lowered "status" blocker ∉ writerResolvedStatuses

/-- `dict(blocker.get("payload") or {})` -/
def payloadOf (ofItems : Val → Except Err Entries) (blocker : Entries) : Except Err Entries :=
  match (Val.getIn "payload" blocker).orElse (.dict []) with
  | .dict payload => .ok payload
  | items => ofItems items

def mirrorReview (ofItems : Val → Except Err Entries) (reviewBlocker : Option Entries)
    (state : Entries) : Except Err Entries :=
  match reviewBlocker with
  | some blocker => do
    let payload ← payloadOf ofItems blocker
    .ok (Val.put "review_payload" (.dict payload) (Val.put "review_id" (.str (textOr "id" blocker))
      (Val.put "review_status" (.str "pending_review")
        (Val.put "requires_review" (.bool true) state))))
  | none =>
    .ok (Val.put "review_payload" (.dict []) (Val.put "review_id" (.str "")
      (Val.put "review_status" (.str "") (Val.put "requires_review" (.bool false) state))))

/-- The status and what follows from it. -/
def mirrorStatus (active : List Entries) (reviewBlocker : Option Entries) (state : Entries) :
    Entries :=
  match active with
  | first :: _ =>
    let status := if reviewBlocker.isSome then "waiting_review" else "waiting_blocker"
    Val.put "next_action" (.str "wait_for_external_event")
      (Val.put "waiting_reason" (.str (textOr "reason" first)) (Val.put "status" (.str status) state))
  | [] =>
    let released := Val.put "next_action" (.str "run_next_tick")
      (Val.put "waiting_reason" (.str "") state)
    if lowered "status" released ∈ waitingStatuses then
      Val.put "status" (.str "running") released
    else released

def clearReviewRuntimeFields (ofItems : Val → Except Err Entries) (reviewId resolutionStatus now : String)
    (state : Entries) : Except Err Entries :=
  if state = [] then .ok state
  else do
    let updated := (blockersOf (Val.getIn "blockers" state)).map
      (resolveBlocker reviewId resolutionStatus now)
    let active := updated.filter writerActive
    let reviewBlocker := active.find? fun blocker => lowered "type" blocker = "review"
    let mirrored ← mirrorReview ofItems reviewBlocker
      (Val.put "active_blocker_count" (.int active.length)
        (Val.put "blockers" (.list (updated.map .dict)) state))
    .ok (Val.put "updated_at" (.str now) (Val.put "agent_action" (.str "")
      (mirrorStatus active reviewBlocker mirrored)))

inductive Settlement where
  | apply (line : String) (failing : Option String)
  | reject (reason line : String)

def Settlement.call (host : Reviews.Host) (w : Reviews.World) (reviewId : String) :
    Settlement → Reviews.Answer × Reviews.World
  | apply line failing => Reviews.applyReview host w reviewId line failing
  | reject reason line => Reviews.rejectReview host w reviewId reason line

def Settlement.resolutionStatus : Settlement → String
  | apply _ _ => "applied"
  | reject _ _ => "rejected"

/-- `apply_review` or `reject_review`, for a payload that names the runtime state. -/
def settleReview (ofItems : Val → Except Err Entries) (host : Reviews.Host) (w : Reviews.World)
    (state : Entries) (reviewId now : String) (settlement : Settlement) :
    Reviews.Answer × Reviews.World × Entries :=
  let called := settlement.call host w reviewId
  if called.1 = .applied ∨ called.1 = .rejected then
    match clearReviewRuntimeFields ofItems reviewId settlement.resolutionStatus now state with
    | .ok state' => (called.1, called.2, state')
    | .error e => (.raised e, called.2, state)
  else (called.1, called.2, state)

/-! ## The gates -/

def gateResolvedStatuses : List String :=
  ["resolved", "applied", "rejected", "cancelled", "canceled", "done", "cleared"]

def gateActive (blocker : Entries) : Bool :=
  Text.lower ((Val.getIn "status" blocker).orElse (.str "pending")).text ∉ gateResolvedStatuses

def activeRuntimeGateBlockers (blockers : Val) : List Entries := (blockersOf blockers).filter gateActive

def safeInt (truncate : String → Except Err ℤ) (value : Val) : ℤ :=
  match Journal.intOf truncate value with
  | .ok n => n
  | .error _ => 0

def approvedReviewStatuses : List String := ["approved", "accepted", "allowed", "cleared", "resolved"]

def rejectedReviewStatuses : List String :=
  ["rejected", "denied", "declined", "cancelled", "canceled"]

def pendingReviewStatuses : List String :=
  ["", "pending", "required", "requested", "waiting", "waiting_review", "review_required"]

def statusReviewRequired : String := "review_required"

/-- `TERMINAL_STATUSES` of the scheduler. -/
def terminalStatuses : List String :=
  ["finished", "done", "success", "completed", "failed", "error", "cancelled"]

def resumableStatuses : List String :=
  ["running", "queued", "ready", "retry", "waiting", "waiting_blocker", "waiting_review", "blocked",
   "failed", statusReviewRequired]

/-- `review_pending` of the resume gate. -/
def resumeReviewPending (task : Entries) : Bool :=
  let reviewStatus := lowered "review_status" task
  if reviewStatus ∈ rejectedReviewStatuses then true
  else if reviewStatus ∈ approvedReviewStatuses then false
  else (Val.getIn "requires_review" task).truthy || (Val.getIn "review_id" task).truthy ||
    (Val.getIn "review_payload" task).truthy || lowered "status" task = statusReviewRequired

def applyRuntimeResumeGate (truncate : String → Except Err ℤ) (task : Entries) : Entries :=
  if lowered "next_action" task = "run_next_tick" ∧ lowered "status" task ∈ resumableStatuses ∧
      activeRuntimeGateBlockers (Val.getIn "blockers" task) = [] ∧
      safeInt truncate (Val.getIn "active_blocker_count" task) ≤ 0 ∧
      resumeReviewPending task = false then
    Val.put "agent_action"
      (.str ((Val.getIn "agent_action" task).orElse (.str "resume_execution")).toText)
      (Val.put "active_blocker_count" (.int 0) (Val.put "waiting_reason" (.str "")
        (Val.put "blocked_reason" (.str "") (Val.put "status" (.str "running") task))))
  else task

structure Decision where
  allow : Bool
  reason : String
  status : String
  nextAction : String
  activeBlockerCount : ℤ

/-- `a or b` on texts. -/
def orText (a b : String) : String := if a = "" then b else a

def heldStatuses : List String :=
  ["waiting", "waiting_review", "waiting_blocker", "blocked", "paused", statusReviewRequired]

/-- Something of a review is there. -/
def reviewPresent (task : Entries) : Bool :=
  let hasReviewPayload := (Val.getIn "review_payload" task).isDict &&
    (Val.getIn "review_payload" task).truthy
  (Val.getIn "requires_review" task).truthy || (Val.getIn "review_id" task).text ≠ "" ||
    hasReviewPayload || lowered "status" task = statusReviewRequired

/-- The decision, once the fields are read. -/
def decisionOf (status nextAction waitingReason reviewStatus : String) (present : Bool)
    (activeBlockerCount : ℤ) (activeBlockers : List Entries) : Decision :=
  let reviewApproved := reviewStatus ∈ approvedReviewStatuses
  let reviewRejected := reviewStatus ∈ rejectedReviewStatuses
  let reviewPending := (present = true ∧ ¬reviewApproved ∧ ¬reviewRejected) ∨
    (reviewStatus ∈ pendingReviewStatuses ∧ present = true)
  if status ∈ terminalStatuses then
    ⟨false, "terminal_status", status, nextAction, activeBlockerCount⟩
  else if reviewRejected then
    ⟨false, "review_rejected", orText status statusReviewRequired, orText nextAction "finish",
      activeBlockerCount⟩
  else if reviewPending then
    ⟨false, orText waitingReason "review_required", statusReviewRequired, "wait_for_external_event",
      max 1 activeBlockerCount⟩
  else if status ∈ heldStatuses ∧
      (nextAction ≠ "run_next_tick" ∨ 0 < activeBlockerCount ∨ activeBlockers ≠ []) then
    ⟨false, orText waitingReason "waiting_for_external_event", status,
      orText nextAction "wait_for_external_event", activeBlockerCount⟩
  else if nextAction = "wait_for_external_event" then
    ⟨false, orText waitingReason "next_action_wait_for_external_event", status, nextAction,
      activeBlockerCount⟩
  else if 0 < activeBlockerCount ∨ activeBlockers ≠ [] then
    ⟨false, orText waitingReason "active_blockers_present", status, nextAction, activeBlockerCount⟩
  else ⟨true, "dispatch_allowed", status, nextAction, 0⟩

def runtimeDispatchGateDecision (truncate : String → Except Err ℤ) (task : Entries) : Decision :=
  let count := safeInt truncate (Val.getIn "active_blocker_count" task)
  let activeBlockers := activeRuntimeGateBlockers (Val.getIn "blockers" task)
  let present := reviewPresent task
  let reviewStatus := lowered "review_status" task
  decisionOf (lowered "status" task) (lowered "next_action" task)
    ((Val.getIn "waiting_reason" task).orElse (Val.getIn "blocked_reason" task)).text
    (if reviewStatus = "" ∧ present = true then "pending" else reviewStatus) present
    (if activeBlockers ≠ [] ∧ count ≤ 0 then activeBlockers.length else count) activeBlockers

end RuntimeGate
end ZeroRuntime
