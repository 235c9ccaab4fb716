import ZeroRuntime.Packages.Filed

/-!
# ZeroRuntime.Packages.Session

The session of an executing package: what the queue notes for a session that resumes it, and the
graph of its steps.

* `sessionResumeContract` is made of the record whenever one of the calls of a session writes it.
* `graphedRecord` draws the chain of the steps anew when a replan has added to them.
* `SessionCall` is a call on the record of a package, with both. `RecordCall` says the same of the
  other fields.
-/

namespace ZeroRuntime
namespace Packages

open Lib Goals Queue
open Journal (intOf)

/-! ## The resume contract -/

/-- `record.get("step_feedback")`, when it is a list. -/
def feedbackOf (record : Entries) : List Val := listItems (Val.getIn "step_feedback" record)

/-- The ids of the steps fed back as done, or as failed. -/
def stepIds (ok : Bool) (feedback : List Val) : List String :=
  feedback.filterMap fun
    | .dict item =>
      if (Val.getIn "ok" item).truthy = ok ∧ textAt "step_id" item ≠ "" then
        some (textAt "step_id" item)
      else none
    | _ => none

/-- `record.get(key)`, when it is a mapping. -/
def mappingAt (key : String) (record : Entries) : Entries := (Val.getIn key record).entries

/-- How many steps there are, and which. -/
def countedSteps (count : ℤ) (ids : List String) : Val :=
  .dict [("count", .int count), ("step_ids", .list (ids.map .str))]

def sessionResumeSchema : String := "zero.runtime.work_package_session_resume.v1"

def resumePolicy : Val :=
  .dict [("queue_is_session_owner", .bool true), ("do_not_replan", .bool true),
    ("do_not_recreate_package", .bool true), ("do_not_repeat_completed_steps", .bool true),
    ("preserve_evidence", .bool true)]

section Host

variable (host : Host)

def sessionResumeContract (now : String) (record : Entries) : Except Err Entries := do
  let progress := mappingAt "progress" record
  let runtimeState := mappingAt "runtime_state" record
  let activeSteps := (Val.getIn "steps" (mappingAt "runtime_queue_item" record)).orElse
    ((Val.getIn "steps" runtimeState).orElse (.list []))
  let lineage ← extractQueueLineage (.dict record)
  let cursor ← intOf host.truncate ((Val.getIn "current_step" progress).orElse
    ((Val.getIn "current_step" record).orElse (.int 0)))
  let completed ← countAt host "completed_steps" progress
  let failed ← countAt host "failed_steps" progress
  let evidence ← lengthOf (Val.getIn "execution_evidence" record)
  let replans ← lengthOf (Val.getIn "replan_history" record)
  .ok (putAll
    [("active_graph", .dict [("task_graph", (Val.getIn "task_graph" record).orElse (.dict [])),
        ("steps", activeSteps), ("cursor", .int cursor)]),
      ("completed_steps", countedSteps completed (stepIds true (feedbackOf record))),
      ("failed_steps", countedSteps failed (stepIds false (feedbackOf record))),
      ("replan_history", (Val.getIn "replan_history" record).orElse (.list [])),
      ("memory_summary", .dict
        [("status", (Val.getIn "memory_status" record).orElse (.str "pending")),
          ("memory_record_id", Val.getIn "memory_record_id" record),
          ("evidence_count", .int evidence), ("replan_count", .int replans)]),
      ("last_runtime_state", .dict runtimeState), ("captured_at", .str now),
      ("resume_policy", resumePolicy)]
    (putAll lineage
      [("schema", .str sessionResumeSchema), ("session_id", Val.getIn "session_id" record),
        ("task_id", Val.getIn "task_id" record), ("package_id", Val.getIn "package_id" record),
        ("lineage", .dict lineage)]))

/-- `_checkpoint_session` -/
def checkpointed (now : String) (record : Entries) : Except Err Entries :=
  (sessionResumeContract host now record).map fun contract =>
    Val.put "session_resume_contract" (.dict contract) record

end Host

/-! ## The graph of the steps -/

/-- The steps of the queue item, as they are iterated over. -/
def stepItems (record : Entries) : Except Err (List Val) :=
  itemsOf (Val.getIn "steps" (mappingAt "runtime_queue_item" record))

/-- Attributes are read of mappings only. -/
def asMapping : Val → Except Err Entries
  | .dict kvs => .ok kvs
  | _ => .error .attributeError

def nodeId (index : ℕ) (step : Entries) : String :=
  ((Val.getIn "id" step).orElse ((Val.getIn "step_id" step).orElse
    (.str ("step-" ++ toString index)))).toText

/-- The nodes of the steps from this index on, after the node `previous`. -/
def graphNodes (taskId : Val) : ℕ → String → List Entries → List Val
  | _, _, [] => []
  | index, previous, step :: steps =>
    .dict [("node_id", .str (nodeId index step)), ("task_id", taskId), ("step_index", .int index),
        ("step_type", .str ((Val.getIn "type" step).orElse
          ((Val.getIn "action" step).orElse (.str ""))).toText),
        ("depends_on", .list (if previous = "" then [] else [.str previous]))] ::
      graphNodes taskId (index + 1) (nodeId index step) steps

def graphEdges : ℕ → String → List Entries → List Val
  | _, _, [] => []
  | index, previous, step :: steps =>
    (if previous = "" then []
      else [.dict [("from", .str previous), ("to", .str (nodeId index step))]]) ++
      graphEdges (index + 1) (nodeId index step) steps

def taskGraph (taskId : Val) (steps : List Entries) : Val :=
  .dict [("nodes", .list (graphNodes taskId 0 "" steps)), ("edges", .list (graphEdges 0 "" steps))]

def graphedRecord (record : Entries) : Except Err Entries := do
  let items ← stepItems record
  let steps ← items.mapM asMapping
  let summary ← spread (Val.getIn "task_graph_summary" record)
  let summary := putAll
    [("node_count", .int steps.length), ("edge_count", .int (max 0 (steps.length - 1))),
      ("step_types", .list (steps.map fun step => .str (textAt "type" step)))] summary
  .ok (Val.put "task_graph" (taskGraph (Val.getIn "task_id" record) steps)
    (Val.put "task_graph_summary" (.dict summary) record))

/-! ## Calls -/

inductive ReplanCall where
  | recordReplanRequest (request : Entries)
  | appendReplanSteps (request : Entries) (steps : List Val)

inductive SessionCall where
  | claim
  | pause
  | resume
  | startExecutionSession (task : Entries)
  | recordStepFeedback (feedback : Entries)
  | replan (call : ReplanCall)
  | captureSessionResume (reason : Val)
  | markSessionResumed

section Host

variable (host : Host)

/-- `int(record.get("session_resume_count") or 0)` -/
def resumeCount (record : Entries) : Except Err ℤ := countAt host "session_resume_count" record

def captureSessionResume (record : Entries) (reason : Val) : Except Err Outcome :=
  if !isText "executing" (Val.getIn "runtime_lifecycle_state" record) then
    .error (queueError "session_resume_capture_requires_executing_package")
  else do
    let count ← resumeCount host record
    .ok (.written (putAll [("session_resume_reason", .str (reasonOr reason "runtime_interrupted")),
      ("session_resume_count", .int count)] record))

def markSessionResumed (now : String) (record : Entries) : Except Err Outcome :=
  if !isText "executing" (Val.getIn "runtime_lifecycle_state" record) ||
      !isText "running" (Val.getIn "status" record) then
    .error (queueError "work_package_session_not_resumable")
  else do
    let count ← resumeCount host record
    .ok (.written (putAll [("session_resume_count", .int (count + 1)),
      ("last_session_resumed_at", .str now)] record))

def appendedBefore (record request : Entries) : Except Err Bool := do
  let history ← itemsOf (Val.getIn "replan_history" record)
  .ok (history.any (namesRequest (Val.getIn "request_id" request).text))

/-- What a call on requests for a replan writes; the graph is drawn anew when steps are appended. -/
def ReplanCall.written (record : Entries) : ReplanCall → Except Err Outcome
  | .recordReplanRequest request => Packages.recordReplanRequest record request
  | .appendReplanSteps request steps => do
    let outcome ← Packages.appendReplanSteps host record request steps
    match outcome with
    | .kept r => .ok (.kept r)
    | .written r => do
      let again ← appendedBefore record request
      if again then .ok (.written r) else (graphedRecord r).map .written

/-- What a record becomes is checkpointed. -/
def Outcome.checkpointed (now : String) : Outcome → Except Err Outcome
  | .kept r => .ok (.kept r)
  | .written r => (Packages.checkpointed host now r).map .written

def SessionCall.change (now : String) (record : Entries) : SessionCall → Except Err Outcome
  | .claim => Packages.claim record
  | .pause => Packages.pause record
  | .resume => Packages.resume record
  | .startExecutionSession task =>
    (Packages.startExecutionSession record task).bind (Outcome.checkpointed host now)
  | .recordStepFeedback feedback =>
    (Packages.recordStepFeedback host record feedback now).bind (Outcome.checkpointed host now)
  | .replan call => (call.written host record).bind (Outcome.checkpointed host now)
  | .captureSessionResume reason =>
    (Packages.captureSessionResume host record reason).bind (Outcome.checkpointed host now)
  | .markSessionResumed =>
    (Packages.markSessionResumed host now record).bind (Outcome.checkpointed host now)

/-- A call, at a time; `trouble` is what it meets where it writes. -/
structure Timed (α : Type) where
  call : α
  now : String
  trouble : Option Err := none

/-- The record after an operation on it, with the answer. -/
def answered (record : Entries) (outcome : Except Err Outcome) (trouble : Option Err) :
    Except Err Entries × Entries :=
  match outcome with
  | .error e => (.error e, record)
  | .ok (.kept r) => (.ok r, record)
  | .ok (.written r) =>
    match trouble with
    | some e => (.error e, record)
    | none => (.ok r, r)

/-- The record of a package, one call of its session after the other. -/
def session : Machine Entries (Timed SessionCall) (Except Err Entries) where
  step record c := answered record (c.call.change host c.now record) c.trouble

end Host

end Packages
end ZeroRuntime
