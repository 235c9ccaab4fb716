import ZeroRuntime.Journal.Wal
import ZeroRuntime.Queue.Contract

/-!
# ZeroRuntime.Packages.Record

The record of a work package, as the runtime queue keeps it in a file
(`core/runtime/work_package_queue.py`), and what each operation of the queue makes of it.

* A package is driven by two fields: `transition` moves its `status`, `runtimeTransition` its
  `runtime_lifecycle_state`.
* `RecordCall` is an operation on one record and `RecordCall.change` what it writes, if it writes
  at all.
* `Host` is what the interpreter computes of characters, floats and hashes.
-/

namespace ZeroRuntime
namespace Packages

open Lib Goals Queue
open Journal (intOf)

structure Host where
  isalnum : Char → Bool
  /-- `int(x)` of a number that is no integer. -/
  truncate : String → Except Err ℤ
  /-- `round((done / total) * 100, 2)` -/
  percent : ℤ → ℤ → Val
  digest : Val → String

/-- A host for samples without floats. -/
def plainHost : Host where
  isalnum := Char.isAlphanum
  truncate _ := .error .typeError
  percent _ _ := .int 0
  digest _ := "digest"

/-- `RuntimePackageQueueError` -/
def queueError (message : String) : Err := .raised message

/-! ## Fields -/

def isText (s : String) : Val → Bool
  | .str t => t = s
  | _ => false

/-- `str(record.get(key) or "")` -/
def textAt (key : String) (record : Entries) : String :=
  ((Val.getIn key record).orElse (.str "")).toText

def putAll (fields record : Entries) : Entries :=
  fields.foldl (fun r e => Val.put e.1 e.2 r) record

/-- `{**(v or {})}` -/
def spread (v : Val) : Except Err Entries :=
  match v.orElse (.dict []) with
  | .dict kvs => .ok kvs
  | _ => .error .typeError

/-- `len(v or [])` -/
def lengthOf (v : Val) : Except Err ℤ :=
  match v.orElse (.list []) with
  | .list xs => .ok xs.length
  | .dict kvs => .ok kvs.length
  | .str s => .ok s.length
  | _ => .error .typeError

/-- `record.setdefault(key, []).append(item)` -/
def appendTo (key : String) (item : Val) (record : Entries) : Except Err Entries :=
  match Val.getIn key record with
  | .none => .ok (Val.put key (.list [item]) record)
  | .list xs => .ok (Val.put key (.list (xs ++ [item])) record)
  | _ => .error .attributeError

/-- `record.get(key) or []`, as what is iterated over. -/
def itemsOf (v : Val) : Except Err (List Val) := Val.iterate (v.orElse (.list []))

/-! ## The two transitions -/

/-- `WORK_PACKAGE_TERMINAL_STATUSES` -/
def terminalStatuses : List String := ["completed", "failed", "cancelled"]

def schedulerRuntimeTransitions : String → List String
  | "queued" => ["planned", "claimed", "paused", "blocked", "failed"]
  | "planned" => ["claimed", "paused", "blocked", "failed"]
  | "claimed" => ["executing", "paused", "blocked", "failed"]
  | "executing" => ["executing", "paused", "blocked", "failed", "completed"]
  | "paused" => ["planned", "claimed", "blocked", "failed"]
  | "blocked" => ["planned", "failed"]
  | _ => []

def status (record : Entries) : String := textAt "status" record

def lifecycle (record : Entries) : String := textAt "runtime_lifecycle_state" record

/-- `_transition`; without a `runtime_state` of its own the old one gets the status too. -/
def transition (record : Entries) (toStatus : String) (runtimeState : Option Entries) :
    Except Err Entries :=
  if status record ∈ terminalStatuses then
    .error (queueError ("terminal_package_cannot_transition:" ++ status record))
  else
    let state := runtimeState.getD
      (Val.put "status" (.str toStatus) (Val.getIn "runtime_state" record).entries)
    .ok (Val.put "runtime_state" (.dict state) (Val.put "status" (.str toStatus) record))

def runtimeTransition (record : Entries) (toState : String) : Except Err Entries :=
  if toState ∈ schedulerRuntimeTransitions (lifecycle record) then
    .ok (Val.put "runtime_lifecycle_state" (.str toState) record)
  else .error (queueError
    ("invalid_runtime_lifecycle_transition:" ++ lifecycle record ++ ":" ++ toState))

/-! ## Failures -/

def blockedMarkers : List String :=
  ["blocked", "policy_denied", "policy denied", "authority_denied", "authority denied",
    "permission_denied", "permission denied", "forbidden"]

def recoverableMarkers : List String :=
  ["recoverable", "repairable", "retryable", "missing_artifact", "missing artifact",
    "missing_output", "missing output", "verification_failed", "verification failed",
    "validation_failed", "validation failed", "artifact_not_found", "output_not_found",
    "request_replan", "retry_with_replan", "manual_or_planner_replan", " replan "]

inductive FailureClass where
  | blocked | replan | failed
deriving DecidableEq, Repr

def classifyQueueFailure (values : List Val) : FailureClass :=
  let text := " " ++ String.intercalate " " (values.map fun v => Text.lower v.text) ++ " "
  if blockedMarkers.any (Text.contains text) then .blocked
  else if recoverableMarkers.any (Text.contains text) then .replan
  else .failed

/-! ## Operations -/

/-- What an operation makes of a record: it answers with the record as it is, or writes it. -/
inductive Outcome where
  | kept (record : Entries)
  | written (record : Entries)

def workPackageExecutionPath : Val :=
  .dict [("direct_execution", .bool false), ("runtime_owns_execution", .bool true),
    ("taskrunner_required", .bool true), ("step_executor_endpoint_only", .bool true),
    ("authority_path", .str ("WorkPackageIntake -> RuntimePackageQueue -> " ++
      "RuntimeDispatcher -> TaskRunner -> StepExecutor")),
    ("runtime_endpoint", .str "RuntimeDispatcher.dispatch")]

def claim (record : Entries) : Except Err Outcome :=
  if !isText "planned" (Val.getIn "planning_status" record) then
    .error (queueError "package_not_planned")
  else
    match Val.getIn "runtime_queue_item" record with
    | .dict item =>
      if isText "claimed" (Val.getIn "runtime_lifecycle_state" record) then .ok (.kept record)
      else do
        let record ← runtimeTransition record "claimed"
        let record ← transition record "running"
          (some [("status", .str "claimed"), ("task", .dict item),
            ("steps", (Val.getIn "steps" item).orElse (.list [])),
            ("execution_path", workPackageExecutionPath)])
        .ok (.written record)
    | _ => .error (queueError "planned_package_missing_runtime_queue_item")

def pause (record : Entries) : Except Err Outcome :=
  if status record ∉ ["queued", "running", "blocked"] then
    .error (queueError ("package_cannot_pause:" ++ status record))
  else do
    let record ←
      (if lifecycle record ∈ ["planned", "claimed", "executing"] then
        runtimeTransition record "paused"
      else .ok record)
    let record ← transition record "paused" none
    .ok (.written record)

def resume (record : Entries) : Except Err Outcome :=
  if status record ∈ terminalStatuses then
    .error (queueError ("terminal_package_cannot_resume:" ++ status record))
  else if status record ∉ ["paused", "blocked"] then .ok (.kept record)
  else if status record = "blocked" ∧
      classifyQueueFailure [Val.getIn "blocked_reason" record, Val.getIn "root_cause" record] =
        .blocked then
    .ok (.written (Val.put "queue_resume_result"
      (.dict [("result", .str "blocked_terminal_policy_preserved"), ("requeued", .bool false)])
      record))
  else do
    let record ←
      (if lifecycle record ∈ ["paused", "blocked"] then runtimeTransition record "planned"
      else .ok record)
    let record ← transition record "queued" none
    .ok (.written record)

def cancel (record : Entries) : Except Err Outcome :=
  if status record ∈ terminalStatuses then .ok (.kept record)
  else do
    let record ← transition record "cancelled" none
    .ok (.written record)

/-- `str(reason or default)` -/
def reasonOr (reason : Val) (default : String) : String := (reason.orElse (.str default)).toText

def block (record : Entries) (reason : Val) : Except Err Outcome := do
  let record ← transition
    (Val.put "blocked_reason" (.str (reasonOr reason "runtime_blocked")) record) "blocked" none
  .ok (.written record)

def fail (record : Entries) (reason : Val) : Except Err Outcome := do
  let record ← transition
    (Val.put "blocked_reason" (.str (reasonOr reason "runtime_failed")) record) "failed" none
  .ok (.written record)

/-- A `WorkPackageCompletionAuthority` that was issued. -/
structure CompletionAuthority where
  packageId : String
  sessionId : String

def isWorkPackageCompletionAuthority (authority : Option CompletionAuthority)
    (packageId sessionId : String) : Bool :=
  match authority with
  | none => false
  | some a => a.packageId = packageId && (a.sessionId = "" || a.sessionId = sessionId)

def completionPath : String → Option (List String)
  | "queued" => some ["planned", "claimed", "executing"]
  | "planned" => some ["claimed", "executing"]
  | "claimed" => some ["executing"]
  | "executing" => some []
  | _ => none

def complete (packageId : String) (record : Entries) (validationSummary : Val)
    (authority : Option CompletionAuthority) : Except Err Outcome :=
  if isWorkPackageCompletionAuthority authority packageId (textAt "session_id" record) = false then
    .error (.permissionError "work_package_completion_authority_required")
  else
    -- a package that was never planned is admitted to the runtime here
    let admitted := if (Val.getIn "runtime_lifecycle_state" record).truthy then record
      else Val.put "runtime_lifecycle_state" (.str "queued") record
    match completionPath (lifecycle admitted) with
    | none => .error (queueError
        ("runtime_completion_requires_executable_path:" ++ lifecycle admitted))
    | some states => do
      let record ← states.foldlM runtimeTransition admitted
      let progress ← spread (Val.getIn "progress" record)
      let record := Val.put "progress" (.dict (putAll
        [("completion_percent", .int 100), ("validation_summary", validationSummary)] progress))
        record
      let record ← runtimeTransition record "completed"
      let record ← transition record "completed" none
      .ok (.written record)

/-- Lineage of several sources, filled in one after the other. -/
def mergeSources (target : Entries) (sources : List Val) (preserve : Bool) : Except Err Entries :=
  sources.foldlM (fun merged source => (mergeQueueLineage merged source preserve).map Prod.fst)
    target

def plannedItem (record snapshot : Entries) : Except Err Val :=
  match Val.getIn "runtime_queue_item" snapshot with
  | .dict incoming =>
    let sources := [.dict record, .dict snapshot, .dict incoming]
    match Val.getIn "runtime_queue_item" record with
    | .dict existing => do
      let merged ← mergeSources existing sources true
      .ok (.dict (incoming.foldl (fun item e =>
        if present (Val.getIn e.1 item) then item else Val.put e.1 e.2 item) merged))
    | _ => do
      let merged ← mergeSources incoming sources false
      .ok (.dict merged)
  | _ => .ok .none

def recordPlanning (record snapshot : Entries) : Except Err Outcome :=
  if status record ∈ terminalStatuses then
    .error (queueError ("terminal_package_cannot_plan:" ++ status record))
  else do
    let planningStatus := reasonOr (Val.getIn "planning_status" snapshot) "failed"
    let record := Val.put "planning_status" (.str planningStatus) record
    let item ← plannedItem record snapshot
    let record := Val.put "runtime_queue_item" item record
    if planningStatus ≠ "planned" then
      let reason := match Val.getIn "errors" snapshot with
        | .list (e :: _) => e.toText
        | _ => "work_package_planning_failed"
      let record ← transition (Val.put "blocked_reason" (.str reason) record) "blocked" none
      .ok (.written record)
    else if (Val.getIn "runtime_lifecycle_state" record).truthy then .ok (.written record)
    else .ok (.written (Val.put "runtime_lifecycle_state" (.str "planned") record))

def startedRecord (record task : Entries) : Except Err Entries := do
  let record ← runtimeTransition record "executing"
  let state ← spread (Val.getIn "runtime_state" record)
  let progress ← spread (Val.getIn "progress" record)
  let steps ← lengthOf (Val.getIn "steps" task)
  let record := Val.put "runtime_state" (.dict (putAll
    [("status", .str "executing"), ("task", .dict task)] state)) record
  .ok (Val.put "progress" (.dict (putAll
    [("current_step", .int 0), ("step_count", .int steps), ("completed_steps", .int 0),
      ("failed_steps", .int 0), ("completion_percent", .int 0), ("remaining_steps", .int steps)]
    progress)) record)

def startExecutionSession (record task : Entries) : Except Err Outcome := do
  let record ← startedRecord record task
  .ok (.written record)

section Feedback

variable (host : Host)

/-- `int(progress.get(key) or 0)` -/
def countAt (key : String) (progress : Entries) : Except Err ℤ :=
  intOf host.truncate ((Val.getIn key progress).orElse (.int 0))

/-- `int(progress.get("step_count") or len(runtime_queue_item.get("steps") or []))` -/
def stepCount (record progress : Entries) : Except Err ℤ :=
  let count := Val.getIn "step_count" progress
  if count.truthy then intOf host.truncate count
  else do
    let steps ← ((Val.find "runtime_queue_item" record).getD (.dict [])).attr "steps"
    lengthOf steps

def stepProgress (record item : Entries) : Except Err (Entries × ℤ) := do
  let progress ← spread (Val.getIn "progress" record)
  let total ← stepCount host record progress
  let ok := (Val.getIn "ok" item).truthy
  let completedBefore ← countAt host "completed_steps" progress
  let failedBefore ← countAt host "failed_steps" progress
  let completed := completedBefore + if ok then 1 else 0
  let failed := failedBefore + if ok then 0 else 1
  let reached ← countAt host "current_step" progress
  let step ← intOf host.truncate ((Val.getIn "current_step" item).orElse (.int (completed + failed)))
  let current := max reached step
  .ok (putAll
    [("current_step", .int current), ("step_count", .int total),
      ("completed_steps", .int completed), ("failed_steps", .int failed),
      ("remaining_steps", .int (max 0 (total - completed - failed))),
      ("completion_percent",
        if total = 0 then .int 0 else host.percent (completed + failed) total)] progress, current)

def stepState (record item : Entries) (current : ℤ) : Except Err Entries := do
  let state ← spread (Val.getIn "runtime_state" record)
  let state := putAll
    [("status",
        if (Val.getIn "ok" item).truthy then .str "executing"
        else (Val.getIn "runtime_status" item).orElse (.str "failed")),
      ("last_step_feedback", .dict item)] state
  let task ← spread (Val.getIn "task" state)
  let queued ← ((Val.getIn "runtime_queue_item" record).orElse (.dict [])).attr "steps"
  let steps := queued.orElse ((Val.getIn "steps" task).orElse (.list []))
  let task := putAll
    [("steps", steps), ("current_step_index", .int current), ("status", .str "running")] task
  .ok (putAll
    [("task", .dict task), ("steps", steps), ("current_step_index", .int current)] state)

/-- What a step leaves in `execution_evidence`. -/
def stepEvidence (item : Entries) (now : String) : Val :=
  let get := fun key => Val.getIn key item
  .dict [("step_index", get "step_index"), ("step_id", get "step_id"),
    ("step_type", get "step_type"), ("ok", .bool (get "ok").truthy),
    ("failed", .bool (get "failed").truthy), ("blocked", .bool (get "blocked").truthy),
    ("root_cause", get "root_cause"), ("output_summary", get "output_summary"),
    ("next_action", get "next_action"), ("timestamp", (get "timestamp").orElse (.str now)),
    ("evidence", get "evidence"), ("authority", get "authority")]

def fedRecord (record item : Entries) (now : String) : Except Err Entries := do
  let record ← appendTo "step_feedback" (.dict item) record
  let record ← appendTo "execution_evidence" (stepEvidence item now) record
  let (progress, current) ← stepProgress host record item
  let record := Val.put "current_step" (.int current) (Val.put "progress" (.dict progress) record)
  let state ← stepState record item current
  runtimeTransition (Val.put "runtime_state" (.dict state) record) "executing"

def recordStepFeedback (record item : Entries) (now : String) : Except Err Outcome :=
  if !isText "executing" (Val.getIn "runtime_lifecycle_state" record) then
    .error (queueError "step_feedback_requires_executing_package")
  else do
    let record ← fedRecord host record item now
    .ok (.written record)

/-! ### Replanning -/

/-- An item of a list names the request. -/
def namesRequest (requestId : String) : Val → Bool
  | .dict kvs => (Val.getIn "request_id" kvs).text = requestId
  | _ => false

def recordReplanRequest (record item : Entries) : Except Err Outcome :=
  if !isText "executing" (Val.getIn "runtime_lifecycle_state" record) then
    .error (queueError "replan_request_requires_executing_package")
  else
    let requestId := (Val.getIn "request_id" item).text
    let failureClass := classifyQueueFailure
      [Val.getIn "failure_class" item, Val.getIn "root_cause" item, Val.getIn "reason" item,
        Val.getIn "next_action" item]
    if requestId = "" then .error (queueError "replan_request_id_required")
    else if failureClass ≠ .replan then do
      let record ← appendTo "replan_rejections"
        (.dict [("request_id", .str requestId), ("result", .str "replan_rejected"),
          ("reason", .str "blocked_or_nonrecoverable_failure"),
          ("failure_class", .str (if failureClass = .blocked then "blocked" else "failed"))]) record
      .ok (.written (Val.put "active_replan_request" .none record))
    else do
      let existing ← itemsOf (Val.getIn "replan_requests" record)
      if existing.any (namesRequest requestId) then
        .ok (.written (Val.put "duplicate_replan_request_rejected" (.str requestId) record))
      else do
        let record ← appendTo "replan_requests" (.dict item) record
        .ok (.written (Val.put "active_replan_request" (.dict item) record))

/-- The mappings among the steps, under new ids. -/
def replannedSteps (replanNumber : ℕ) (requestId : Val) : ℕ → List Val → List Entries
  | _, [] => []
  | offset, .dict step :: steps =>
    let originalId := ((Val.getIn "id" step).orElse ((Val.getIn "step_id" step).orElse
      (.str ("step-" ++ toString offset)))).toText
    putAll [("id", .str ("replan-" ++ toString replanNumber ++ ":" ++ originalId)),
        ("replan_origin_id", .str originalId), ("replan_request_id", requestId)] step ::
      replannedSteps replanNumber requestId (offset + 1) steps
  | offset, _ :: steps => replannedSteps replanNumber requestId (offset + 1) steps

def replannedRecord (record request : Entries) (steps : List Val) : Except Err Entries := do
  let item ← spread (Val.getIn "runtime_queue_item" record)
  let original ← itemsOf (Val.getIn "steps" item)
  let history ← lengthOf (Val.getIn "replan_history" record)
  let appended := replannedSteps (history.toNat + 1) (Val.getIn "request_id" request) 1 steps
  if appended = [] then .error (queueError "replan_append_requires_steps")
  else do
    let merged := original ++ appended.map Val.dict
    let record := Val.put "runtime_queue_item" (.dict (Val.put "steps" (.list merged) item)) record
    let record ← appendTo "replan_history"
      (.dict [("request_id", Val.getIn "request_id" request),
        ("root_cause", Val.getIn "root_cause" request),
        ("original_step_count", .int original.length),
        ("appended_step_count", .int appended.length),
        ("appended_step_ids", .list (appended.map (Val.getIn "id"))),
        ("previous_evidence_preserved", .bool true),
        ("lifecycle_history_preserved", .bool true)]) record
    let progress ← spread (Val.getIn "progress" record)
    let completed ← countAt host "completed_steps" progress
    let failed ← countAt host "failed_steps" progress
    let record := Val.put "progress" (.dict (putAll
      [("step_count", .int merged.length),
        ("remaining_steps", .int (max 0 (merged.length - completed - failed)))] progress)) record
    let state ← spread (Val.getIn "runtime_state" record)
    let task ← spread (Val.getIn "task" state)
    .ok (Val.put "runtime_state" (.dict (putAll
      [("task", .dict (Val.put "steps" (.list merged) task)), ("steps", .list merged),
        ("status", .str "executing")] state)) record)

def appendReplanSteps (record request : Entries) (steps : List Val) : Except Err Outcome :=
  if !isText "executing" (Val.getIn "runtime_lifecycle_state" record) then
    .error (queueError "replan_append_requires_executing_package")
  else
    let requestId := (Val.getIn "request_id" request).text
    if requestId = "" then .error (queueError "replan_request_id_required")
    else do
      let admitted ← itemsOf (Val.getIn "replan_requests" record)
      if !admitted.any (namesRequest requestId) then
        .error (queueError "replan_append_requires_admitted_request")
      else do
        let history ← itemsOf (Val.getIn "replan_history" record)
        if history.any (namesRequest requestId) then
          .ok (.written (Val.put "last_replan_appended_steps" (.list [])
            (Val.put "duplicate_replan_append_rejected" (.str requestId) record)))
        else do
          let record ← replannedRecord host record request steps
          .ok (.written record)

/-! ### The end of a session -/

/-- The last step fed back, an empty one without any. -/
def lastFeedback (record : Entries) : Val :=
  match Val.getIn "step_feedback" record with
  | .list feedback => feedback.getLast?.getD (.dict [])
  | _ => .dict []

/-- The evidence is that of the last step fed back. -/
def alreadyRecorded (record evidence : Entries) : Bool :=
  match lastFeedback record with
  | .dict last =>
    (Val.getIn "step_index" evidence).eq (Val.getIn "step_index" last) &&
      (Val.getIn "timestamp" evidence).eq (Val.getIn "timestamp" last)
  | _ => false

def recordRuntimeFailure (record : Entries) (rootCause : Val) (evidence : Entries)
    (blocked : Bool) : Except Err Outcome := do
  let target := if blocked then "blocked" else "failed"
  let cause := reasonOr rootCause "runtime_failure"
  let record := putAll [("root_cause", .str cause), ("blocked_reason", .str cause)] record
  let record ←
    (if alreadyRecorded record evidence then .ok record
    else appendTo "execution_evidence" (.dict evidence) record)
  let record ← runtimeTransition record target
  let record ← transition record target none
  .ok (.written record)

def recordRuntimeCompleted (packageId : String) (record : Entries)
    (authority : Option CompletionAuthority) : Except Err Outcome :=
  if isWorkPackageCompletionAuthority authority packageId (textAt "session_id" record) = false then
    .error (.permissionError "work_package_completion_authority_required")
  else do
    let record ← runtimeTransition record "completed"
    let progress ← spread (Val.getIn "progress" record)
    let total ← countAt host "step_count" progress
    let failed ← countAt host "failed_steps" progress
    let completed ← countAt host "completed_steps" progress
    let record := Val.put "progress" (.dict (putAll
      [("current_step", .int total), ("completed_steps", .int (max completed (total - failed))),
        ("failed_steps", .int failed), ("remaining_steps", .int 0),
        ("completion_percent", .int 100)] progress)) record
    let state ← spread (Val.getIn "runtime_state" record)
    let record := Val.put "runtime_state" (.dict (Val.put "status" (.str "completed") state)) record
    let record ← transition record "completed" none
    .ok (.written record)

end Feedback

/-! ## Calls -/

/-- What the other operations of the queue note on a record: proposals, approvals, progress, the
resumption of a session. -/
inductive NoteField where
  | progress | currentStep | executionProposal | executionProposalSummary | proposalApproval
  | approvalStatus | executionPackage | executionPackageSummary | runtimeDispatchRequest
  | runtimeDispatchRequestSummary | sessionResumeReason | sessionResumeCount
deriving DecidableEq, Repr

def NoteField.key : NoteField → String
  | progress => "progress"
  | currentStep => "current_step"
  | executionProposal => "execution_proposal"
  | executionProposalSummary => "execution_proposal_summary"
  | proposalApproval => "proposal_approval"
  | approvalStatus => "approval_status"
  | executionPackage => "execution_package"
  | executionPackageSummary => "execution_package_summary"
  | runtimeDispatchRequest => "runtime_dispatch_request"
  | runtimeDispatchRequestSummary => "runtime_dispatch_request_summary"
  | sessionResumeReason => "session_resume_reason"
  | sessionResumeCount => "session_resume_count"

/-- An operation on one record. -/
inductive RecordCall where
  | recordPlanning (planningSnapshot : Entries)
  | claim
  | pause
  | resume
  | cancel
  | block (reason : Val)
  | fail (reason : Val)
  | complete (validationSummary : Val) (authority : Option CompletionAuthority)
  | startExecutionSession (task : Entries)
  | recordStepFeedback (feedback : Entries) (now : String)
  | recordReplanRequest (request : Entries)
  | appendReplanSteps (request : Entries) (steps : List Val)
  | recordRuntimeFailure (rootCause : Val) (evidence : Entries) (blocked : Bool)
  | recordRuntimeCompleted (authority : Option CompletionAuthority)
  | note (fields : List (NoteField × Val))

def RecordCall.change (host : Host) (packageId : String) (record : Entries) :
    RecordCall → Except Err Outcome
  | recordPlanning planningSnapshot => Packages.recordPlanning record planningSnapshot
  | claim => Packages.claim record
  | pause => Packages.pause record
  | resume => Packages.resume record
  | cancel => Packages.cancel record
  | block reason => Packages.block record reason
  | fail reason => Packages.fail record reason
  | complete validationSummary authority =>
    Packages.complete packageId record validationSummary authority
  | startExecutionSession task => Packages.startExecutionSession record task
  | recordStepFeedback feedback now => Packages.recordStepFeedback host record feedback now
  | recordReplanRequest request => Packages.recordReplanRequest record request
  | appendReplanSteps request steps => Packages.appendReplanSteps host record request steps
  | recordRuntimeFailure rootCause evidence blocked =>
    Packages.recordRuntimeFailure record rootCause evidence blocked
  | recordRuntimeCompleted authority =>
    Packages.recordRuntimeCompleted host packageId record authority
  | note fields => .ok (.written (putAll (fields.map fun e => (e.1.key, e.2)) record))

end Packages
end ZeroRuntime
