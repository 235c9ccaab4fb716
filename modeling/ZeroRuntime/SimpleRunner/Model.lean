import ZeroRuntime.Lib.Machine
import ZeroRuntime.Lib.Value

/-!
# ZeroRuntime.SimpleRunner.Model

The runner that takes a task one step further with every tick
(`core/tasks/scheduler_core/simple_runner_tick.py` and the handlers beside it).

* `extractSimpleStepFailureSignal`: what the result of a step says of itself, searched through the
  containers that a result is wrapped in, to a depth of five.
* `runSimpleTaskTick`: one call. A terminal task is skipped, one whose dependencies are not done
  goes to the blocked handler, and else the step at the index is handed to the executor. A `Call`
  carries what the call meets: the dependency it waits for, what the executor does, what the
  replanner answers. Hydration, tracing and persistence are identities.
* `ticks`: the runner as a machine. It answers with the step it executed, if any, and with the
  payload or the exception.
-/

namespace ZeroRuntime
namespace SimpleRunner

open Lib

abbrev Entries := List (String × Val)

/-! ## The signal of a result -/

structure Signal where
  failed : Bool
  blocked : Bool
  message : String
  errorType : String

def Signal.found (signal : Signal) : Bool := signal.failed || signal.blocked

def noSignal : Signal := ⟨false, false, "", ""⟩

def blockedStatuses : List String :=
  ["blocked", "review_required", "waiting", "waiting_review", "waiting_blocker"]

def failedStatuses : List String := ["failed", "error", "cancelled", "canceled"]

def failedActions : List String := ["step_failed", "simple_step_failed", "execution_failed"]

def deniedTypes : List String :=
  ["execution_authority_denied", "authority_denied", "permission_denied", "unsafe_action_blocked",
    "repo_scope_confirmation_required"]

/-- The keys under which a result carries the one it wraps. -/
def containers : List String := ["runtime_execution_result", "result", "adapter_payload", "raw"]

/-- The first of the fields that says something. -/
def firstOf (fields : List Val) : Val := fields.foldr Val.orElse (.str "")

/-- `x is False` -/
def isFalse : Val → Bool
  | .bool b => !b
  | _ => false

/-- What one level of a payload says of itself. -/
def levelSignal (payload : Entries) : Signal :=
  let errorPayload := (Val.getIn "error" payload).entries
  let errorType := (firstOf [Val.getIn "error_type" payload, Val.getIn "failure_type" payload,
    Val.getIn "type" errorPayload]).text
  let message := (firstOf [Val.getIn "message" payload, Val.getIn "final_answer" payload,
    Val.getIn "last_error" payload, Val.getIn "failure_message" payload,
    Val.getIn "message" errorPayload, Val.getIn "error" payload]).text
  let status := Text.lower (Val.getIn "status" payload).text
  let action := Text.lower (Val.getIn "action" payload).text
  let denied : Bool := errorType ∈ deniedTypes
  { failed := isFalse (Val.getIn "ok" payload) || (Val.getIn "failed" payload).truthy ||
      status ∈ failedStatuses || action ∈ failedActions || denied
    blocked := (Val.getIn "blocked" payload).truthy || status ∈ blockedStatuses || denied
    message := (firstOf [.str message, .str errorType, .str status, .str action,
      .str "step execution blocked"]).toText
    errorType }

/-- `_extract_simple_step_failure_signal`, with the depth that is left. -/
def extractSimpleStepFailureSignal : Nat → Val → Signal
  | depth + 1, .dict payload =>
    if (levelSignal payload).found then levelSignal payload
    else ((containers.map fun key =>
      extractSimpleStepFailureSignal depth (Val.getIn key payload)).find? Signal.found).getD noSignal
  | _, _ => noSignal

def maxDepth : Nat := 5

/-! ## The task -/

/-- The fields of a task that the runner reads or writes. -/
structure SimpleTask where
  taskId : String
  taskName : String := ""
  status : String
  steps : List Val
  currentStepIndex : Nat := 0
  executionLog : List Val := []
  results : List Val := []
  stepResults : List Val := []
  lastStepResult : Val := .none
  history : List String := []
  finalAnswer : String := ""
  blockedReason : String := ""
  nextAction : String := ""
  stateDetail : String := ""
  lastError : String := ""
  failureMessage : String := ""
  failureType : String := ""
  replanDecision : String := ""
  replanSummary : String := ""
  replanFailedStepType : String := ""
  replanRepairable : Val := .none
  replanReason : String := ""
  lastRunTick : Int := 0
  lastFailureTick : Int := 0
  finishedTick : Int := 0

/-- What the executor does with a step. -/
inductive Outcome where
  | returned (result : Val)
  | raised (message : String)

/-- What the replanner answers to a step that raised. The steps are those that an accepted plan
leaves in the task. -/
structure Replan where
  result : Entries := []
  steps : List Val := []

structure Call where
  tick : Option Int := none
  waiting : Option String := none
  outcome : Outcome
  replan : Replan := {}

structure Scheduler where
  currentTick : Int := 0
  task : SimpleTask

/-- The step that was executed, and what the call returned. -/
structure Ticked where
  executed : Option (Nat × Val)
  answer : Except Err Entries

def terminalStatuses : List String :=
  ["finished", "done", "success", "completed", "failed", "error", "cancelled"]

def statusBlocked : String := "blocked"

def SimpleTask.terminal (task : SimpleTask) : Bool :=
  Text.lower (Text.strip task.status) ∈ terminalStatuses

def SimpleTask.name (task : SimpleTask) : String :=
  (firstOf [.str task.taskName, .str task.taskId, .str "unknown_task"]).toText

/-- The status is appended unless it is the last one already. -/
def appendHistory (history : List String) (status : String) : List String :=
  if history.getLast? = some status then history else history ++ [status]

/-- The status is written, and remembered. -/
def SimpleTask.withStatus (task : SimpleTask) (status : String) : SimpleTask :=
  { task with status, history := appendHistory task.history status }

def payloadOf (task : SimpleTask) (tick : Int) (ok : Bool) (action status : String)
    (fields : Entries) : Entries :=
  [("ok", .bool ok), ("action", .str action), ("tick", .int tick), ("task_id", .str task.taskId),
    ("task_name", .str task.name), ("status", .str status)] ++ fields

/-- The collections of the task, as a payload carries them. -/
def collections (task : SimpleTask) : Entries :=
  [("execution_log", .list task.executionLog), ("results", .list task.results),
    ("step_results", .list task.stepResults), ("last_step_result", task.lastStepResult),
    ("current_step_index", .int task.currentStepIndex), ("step_count", .int task.steps.length),
    ("steps_total", .int task.steps.length)]

/-! ## The handlers -/

section Handlers

variable (tick : Int) (task : SimpleTask)

def handleSimpleTerminalTask : Except Err Entries × SimpleTask :=
  (.ok (payloadOf task tick true "terminal_skip" (Text.lower (Text.strip task.status))
    [("message", .str "task already terminal"), ("final_answer", .str task.finalAnswer)]), task)

/-- The handler calls `project_runtime_status`, which its module does not import: the call ends
before the first assignment. -/
def handleSimpleBlockedTask (_blockedReason : String) : Except Err Entries × SimpleTask :=
  (.error (.raised "name 'project_runtime_status' is not defined"), task)

def handleSimpleFinishedTask (buildFinalAnswer : List Val → String) :
    Except Err Entries × SimpleTask :=
  let finalAnswer :=
    if task.finalAnswer = "" then buildFinalAnswer task.results else task.finalAnswer
  let task' := { task.withStatus "finished" with finalAnswer, finishedTick := tick, lastRunTick := tick }
  (.ok (payloadOf task tick true "simple_task_finished" "finished"
    ([("message", .str "task finished"), ("final_answer", .str finalAnswer)] ++ collections task' ++
      [("last_run_tick", .int tick), ("finished_tick", .int tick)])), task')

def handleSimpleInvalidStep : Except Err Entries × SimpleTask :=
  let task' := { task.withStatus "failed" with
    lastError := "invalid step type", failureMessage := "invalid step type"
    lastFailureTick := tick, lastRunTick := tick }
  (.ok (payloadOf task tick false "simple_invalid_step" "failed"
    [("message", .str "invalid step type"), ("error", .str "invalid step type")]), task')

def SimpleTask.record (entry result : Val) : SimpleTask :=
  { task with
    executionLog := task.executionLog ++ [entry], results := task.results ++ [result]
    stepResults := task.results ++ [result], lastStepResult := result }

/-- The record of a step in the execution log. -/
def logEntry (step : Val) (ok : Bool) (fields : Entries) : Val :=
  .dict ([("tick", .int tick), ("step_index", .int task.currentStepIndex), ("step", step),
    ("ok", .bool ok)] ++ fields)

/-- The result of a step, as the collections keep it. -/
def stepResult (step : Val) (ok : Bool) (fields : Entries) : Val :=
  .dict ([("ok", .bool ok), ("step_index", .int task.currentStepIndex), ("step", step)] ++ fields)

def textOf (key : String) (result : Entries) : String :=
  ((Val.getIn key result).orElse (.str "")).toText

def failStep (step : Val) (error : String) (replan : Replan) : SimpleTask :=
  { task.record (logEntry tick task step false [("error", .str error)])
      (stepResult task step false [("error", .str error)]) with
    lastError := error, failureMessage := error, lastFailureTick := tick, lastRunTick := tick
    replanDecision := textOf "decision" replan.result
    replanSummary := textOf "summary" replan.result
    replanFailedStepType := textOf "failed_step_type" replan.result
    replanRepairable := Val.getIn "repairable" replan.result }

/-- The fields of a payload that mirror the replanner's answer. -/
def replanFields (replan : Replan) : Entries :=
  [("replan_decision", .str task.replanDecision), ("replan_summary", .str task.replanSummary),
    ("replan_failed_step_type", .str task.replanFailedStepType),
    ("replan_repairable", task.replanRepairable), ("replan_result", .dict replan.result)]

def handleSimpleStepException (step : Val) (error : String) (replan : Replan) :
    Except Err Entries × SimpleTask :=
  let failed := failStep tick task step error replan
  if (Val.getIn "replanned" replan.result).truthy then
    let task' := { (failed.withStatus "replanned").withStatus "queued" with
      steps := replan.steps, currentStepIndex := 0, replanReason := failed.lastError }
    (.ok (payloadOf task tick true "simple_step_replanned" "queued"
      ([("message", (Val.find "summary" replan.result).getD (.str "task replanned"))] ++
        collections task' ++ [("last_run_tick", .int tick), ("last_failure_tick", .int tick),
          ("replan_reason", .str task'.replanReason)] ++ replanFields task' replan)), task')
  else
    let task' := failed.withStatus "failed"
    (.ok (payloadOf task tick false "simple_step_failed" "failed"
      ([("message", .str "step execution failed"), ("error", .str error)] ++ collections task' ++
        [("last_run_tick", .int tick), ("last_failure_tick", .int tick)] ++
        replanFields task' replan)), task')

/-- The kind of a step, as its result names it. -/
def stepType (step : Val) : String :=
  Text.lower (firstOf [Val.getIn "type" step.entries, Val.getIn "action" step.entries]).text

def handleSimpleStepBlockedOrFailedResult (step result : Val) (signal : Signal) :
    Except Err Entries × SimpleTask :=
  let blocked := signal.blocked
  let errorType := (firstOf [.str signal.errorType, .str "step_execution_failed"]).toText
  let message := (firstOf [.str signal.message, .str errorType]).toText
  let status := if blocked then statusBlocked else "failed"
  let action := if blocked then "simple_step_blocked" else "simple_step_failed"
  let error : Val := .dict [("type", .str errorType), ("message", .str message),
    ("retryable", .bool false)]
  let verdict : Entries := [("blocked", .bool blocked), ("failed", .bool !blocked),
    ("error_type", .str errorType), ("message", .str message)]
  let recorded := task.record
    (logEntry tick task step false (verdict ++ [("result", result)]))
    (stepResult task step false ([("step_type", .str (stepType step)), ("result", result)] ++ verdict ++
      [("final_answer", .str message), ("error", error)]))
  let task' := { recorded.withStatus status with
    lastError := message, failureMessage := message, failureType := errorType
    stateDetail := message, lastRunTick := tick
    blockedReason := if blocked then message else task.blockedReason
    nextAction := if blocked then "wait_for_external_event" else task.nextAction
    lastFailureTick := if blocked then task.lastFailureTick else tick }
  (.ok (payloadOf task tick false action status
    ([("message", .str message), ("final_answer", .str ""), ("error", error),
      ("blocked", .bool blocked), ("failed", .bool !blocked), ("error_type", .str errorType)] ++
      collections task' ++ [("last_run_tick", .int tick),
        ("last_failure_tick", if blocked then .none else .int tick)])), task')

/-- `x.get("result", x)` of what the collections keep. -/
def innerResult : Val → Val
  | .dict result => (Val.find "result" result).getD (.dict result)
  | result => result

/-- A result without a failure signal moves the index on. -/
def advanceStep (buildFinalAnswer : List Val → String) (step result : Val) :
    Except Err Entries × SimpleTask :=
  let recorded := task.record (logEntry tick task step true [("result", result)])
    (stepResult task step true [("result", result)])
  let advanced := { recorded with currentStepIndex := task.currentStepIndex + 1, lastRunTick := tick }
  if task.steps.length ≤ advanced.currentStepIndex then
    let finalAnswer := buildFinalAnswer (advanced.results.map innerResult)
    let task' := { advanced.withStatus "finished" with finalAnswer, finishedTick := tick }
    (.ok (payloadOf task tick true "simple_task_finished" "finished"
      ([("message", .str "task finished"), ("final_answer", .str finalAnswer)] ++
        collections task' ++ [("last_run_tick", .int tick), ("finished_tick", .int tick)])), task')
  else
    let task' := advanced.withStatus "queued"
    (.ok (payloadOf task tick true "simple_step_executed" "queued"
      ([("message", .str "step executed, waiting next tick"), ("final_answer", .str "")] ++
        collections task' ++ [("last_run_tick", .int tick)])), task')

def handleSimpleStepSuccess (buildFinalAnswer : List Val → String) (step result : Val) :
    Except Err Entries × SimpleTask :=
  let failureSignal := extractSimpleStepFailureSignal maxDepth result
  if failureSignal.found then
    handleSimpleStepBlockedOrFailedResult tick task step result failureSignal
  else advanceStep tick task buildFinalAnswer step result

end Handlers

/-! ## The tick -/

def executeStep (buildFinalAnswer : List Val → String) (tick : Int) (task : SimpleTask) (step : Val)
    (call : Call) : Except Err Entries × SimpleTask :=
  match call.outcome with
  | .raised error => handleSimpleStepException tick task step error call.replan
  | .returned result => handleSimpleStepSuccess tick task buildFinalAnswer step result

/-- `_run_simple_task_tick`, on the task alone. -/
def runSimpleTask (buildFinalAnswer : List Val → String) (tick : Int) (task : SimpleTask)
    (call : Call) : Option (Nat × Val) × Except Err Entries × SimpleTask :=
  if task.terminal then (none, handleSimpleTerminalTask tick task)
  else match call.waiting with
    | some reason => (none, handleSimpleBlockedTask task reason)
    | none => match task.steps[task.currentStepIndex]? with
      | none => (none, handleSimpleFinishedTask tick task buildFinalAnswer)
      | some step =>
        if step.isDict then
          (some (task.currentStepIndex, step), executeStep buildFinalAnswer tick task step call)
        else (none, handleSimpleInvalidStep tick task)

def runSimpleTaskTick (buildFinalAnswer : List Val → String) (scheduler : Scheduler) (call : Call) :
    Ticked × Scheduler :=
  let currentTick := call.tick.getD scheduler.currentTick
  let (executed, answer, task) := runSimpleTask buildFinalAnswer currentTick scheduler.task call
  (⟨executed, answer⟩, { currentTick, task })

/-- The runner, one call after the other on the task that the call before left. -/
def ticks (buildFinalAnswer : List Val → String) : Machine Scheduler Call Ticked where
  step := runSimpleTaskTick buildFinalAnswer

end SimpleRunner
end ZeroRuntime
