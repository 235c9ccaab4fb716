import ZeroRuntime.Lib.Canonical
import ZeroRuntime.SimpleRunner.Model

/-!
# ZeroRuntime.Replan.Model

How the scheduler decides on a new plan for a failed task (`core/tasks/scheduler.py`).

* `tryReplanTask` evaluates the failure and asks the replanner, which may answer anything. What is
  proposed is only suggested, or applied where `apply` says so.
* The budget is read from the task. The plans that failed are read from its trace, to which every
  evaluation adds one or two events, and which keeps the last 25.
* `evaluations`: failed runs, each followed by an evaluation. A failed run leaves plan, budget and
  trace alone.
-/

namespace ZeroRuntime
namespace Replan

open Lib SimpleRunner

/-- The scheduler's default budget, and the digest of a plan: a text in hexadecimal digits. -/
structure Host where
  defaultMaxReplans : ℤ
  one_le : 1 ≤ defaultMaxReplans
  digest : Val → String
  strip_digest : ∀ v, Text.strip (digest v) = digest v
  digest_ne : ∀ v, digest v ≠ ""

structure TraceEvent where
  event : String
  outcome : String
  planFingerprint : String
  detail : String := ""
  failedStepType : String
  replanCount : ℤ
  maxReplans : ℤ
deriving DecidableEq

/-- What a failed run leaves in the task. -/
structure Failure where
  status : String
  currentStepIndex : ℕ := 0
  lastStepResult : Val := .none
  lastError : String := ""
  failureMessage : String := ""

structure Task where
  failure : Failure
  steps : List Val
  maxReplans : Option ℤ := none
  replanCount : ℤ := 0
  replanTrace : List TraceEvent := []
  replanned : Bool := false
  replanReason : String := ""
  plannerResult : Val := .none
  history : List String := []

/-- What the replanner does. A count that it leaves out is that of the task. -/
inductive Proposal where
  | unavailable
  | raised (message : String)
  | invalid
  | result (replanned : Bool) (summary plan : Val) (replanCount : Option ℤ)

structure Answer where
  ok : Bool
  replanned : Bool := false
  decision : String
  summary : String
  planFingerprint : Option String := none
deriving DecidableEq

/-! ## Plans -/

/-- A step without the blanks around its texts, in the order of its keys. -/
def canonicalStep : Val → Val
  | .dict item => .dict ((item.map fun e => (e.1, match e.2 with
      | .str s => .str (Text.strip s)
      | value => value)).foldr Val.insertEntry [])
  | item => .dict [("type", .str item.toText)]

def canonicalizeStepsForCompare (steps : List Val) : Val := .list (steps.map canonicalStep)

def fingerprintSteps (host : Host) (steps : List Val) : String :=
  host.digest (canonicalizeStepsForCompare steps)

def isMeaningfulReplan (oldSteps newSteps : List Val) : Bool :=
  !(canonicalizeStepsForCompare oldSteps).eq (canonicalizeStepsForCompare newSteps)

/-- The steps of a plan. What is no list counts as one without steps, and has its fingerprint. -/
def planSteps (plan : Val) : List Val :=
  match Val.getIn "steps" plan.entries with
  | .list steps => steps
  | _ => []

/-! ## The trace and the budget -/

def traceLimit : ℕ := 25

def appendReplanTrace (task : Task) (event : TraceEvent) : Task :=
  let trace := task.replanTrace ++ [event]
  { task with replanTrace := trace.drop (trace.length - traceLimit) }

def failedOutcomes : List String := ["failed", "rejected", "skipped"]

def failedReplanFingerprints (task : Task) : List String :=
  ((task.replanTrace.filter fun event =>
    Text.lower (Text.strip event.outcome) ∈ failedOutcomes).map fun event =>
      Text.strip event.planFingerprint).filter (· ≠ "")

/-- `int(task.get("max_replans", default) or default)` -/
def maxReplans (host : Host) (task : Task) : ℤ :=
  match task.maxReplans with
  | some n => if n = 0 then host.defaultMaxReplans else n
  | none => host.defaultMaxReplans

/-! ## Failures -/

def getFailedStepPayload (task : Task) : Val :=
  let step := Val.getIn "step" task.failure.lastStepResult.entries
  if step.isDict then step
  else match task.steps[task.failure.currentStepIndex]? with
    | some (.dict step) => .dict step
    | _ => .dict []

def getFailedStepType (task : Task) : String :=
  Text.lower (Val.getIn "type" (getFailedStepPayload task).entries).text

def errorText (task : Task) : String :=
  if task.failure.lastError = "" then task.failure.failureMessage else task.failure.lastError

def allowedTypes : List String :=
  ["verify", "read_file", "run_python", "command", "write_file", "llm", "llm_generate",
    "code_chain_analyze", "code_chain_repair", "code_chain_verify"]

def hardFailSignals : List String :=
  ["unsupported step type", "invalid step type", "depends_on task not found", "self dependency",
    "task already terminal", "file not found", "no such file", "path not found"]

def notRepairableSignals : List String :=
  ["file not found", "path is empty", "requires path", "requires contains", "requires equals",
    "requires exists", "invalid verify"]

def repairableSignals : List String := ["contains failed", "equals failed", "verify failed"]

/-- `_verify_step_failure_repairable`, of a step that verifies. -/
def verifyStepFailureRepairable (error : String) : Bool :=
  !notRepairableSignals.any (Text.contains error) && repairableSignals.any (Text.contains error)

def orUnknown (s : String) : String := if s = "" then "unknown" else s

/-- `_is_repairable_failure`: the reason why the failure is none, if so. -/
def notRepairable (host : Host) (task : Task) : Option String :=
  let status := Text.lower (Text.strip task.failure.status)
  let failedStepType := getFailedStepType task
  let error := Text.lower (Text.strip (errorText task))
  if status ∉ ["failed", "error", "queued"] then
    some ("status not repairable: " ++ orUnknown status)
  else if maxReplans host task ≤ task.replanCount then
    some ("replan limit reached: " ++ toString task.replanCount ++ "/" ++
      toString (maxReplans host task))
  else if failedStepType ∉ allowedTypes then
    some ("step type not repairable: " ++ orUnknown failedStepType)
  else match hardFailSignals.find? (Text.contains error) with
    | some signal => some ("hard failure: " ++ signal)
    | none =>
      if failedStepType = "verify" && !verifyStepFailureRepairable error then
        some "verify failure not repairable"
      else none

/-! ## The evaluation -/

section Evaluation

variable (host : Host) (task : Task)

def currentFingerprint : String := fingerprintSteps host task.steps

/-- An event of the evaluation, with the budget that the task has. -/
def traceEvent (event outcome planFingerprint detail : String) : TraceEvent where
  event
  outcome
  planFingerprint
  detail
  failedStepType := getFailedStepType task
  replanCount := task.replanCount
  maxReplans := maxReplans host task

/-- The task once the failure of its plan is in the trace. -/
def evaluatedTask : Task :=
  appendReplanTrace task
    (traceEvent host task "replan_evaluate" "failed" (currentFingerprint host task) (errorText task))

/-- Why proposed steps are rejected. -/
def rejected (newSteps : List Val) : Option String :=
  if newSteps = [] then some "replanner returned empty steps"
  else if !isMeaningfulReplan task.steps newSteps then
    some "replanner returned equivalent steps"
  else if fingerprintSteps host newSteps ∈
      currentFingerprint host task :: failedReplanFingerprints task then
    some "replanner returned a previously failed plan"
  else none

def summaryOr (summary : Val) (default : String) : String :=
  (summary.orElse (.str default)).toText

def acceptedTask (plan : Val) (replanCount : Option ℤ) : Task :=
  let newSteps := planSteps plan
  let task' := { evaluatedTask host task with
    steps := newSteps
    failure := { task.failure with status := "queued", currentStepIndex := 0 }
    replanCount := replanCount.getD task.replanCount
    replanned := true
    replanReason := errorText task
    plannerResult := plan
    history := appendHistory (appendHistory task.history "replanned") "queued" }
  appendReplanTrace task' { traceEvent host task' "replan_accept" "accepted"
    (fingerprintSteps host newSteps) (currentFingerprint host task) with
      failedStepType := getFailedStepType task }

def answerProposal (summary plan : Val) (replanCount : Option ℤ) (apply : Bool) : Answer × Task :=
  let newSteps := planSteps plan
  let newFingerprint := fingerprintSteps host newSteps
  match rejected host task newSteps with
  | some reason =>
    ({ ok := newSteps ≠ [], decision := if newSteps = [] then "error" else "skipped"
       summary := reason },
      appendReplanTrace (evaluatedTask host task)
        (traceEvent host task "replan_reject" "rejected" newFingerprint reason))
  | none =>
    if apply then
      ({ ok := true, replanned := true, decision := "accepted"
         summary := summaryOr summary "task replanned", planFingerprint := some newFingerprint },
        acceptedTask host task plan replanCount)
    else
      ({ ok := true, decision := "suggested", planFingerprint := some newFingerprint
         summary :=
           summaryOr summary "replan candidate generated; manual approval required" },
        appendReplanTrace (evaluatedTask host task)
          (traceEvent host task "replan_suggest" "suggested" newFingerprint
            (currentFingerprint host task)))

def tryReplanTask (proposal : Proposal) (apply : Bool) : Answer × Task :=
  match notRepairable host task with
  | some reason =>
    ({ ok := true, decision := "skipped", summary := reason },
      appendReplanTrace (evaluatedTask host task)
        (traceEvent host task "replan_skip" "skipped" (currentFingerprint host task) reason))
  | none => match proposal with
    | .unavailable =>
      ({ ok := false, decision := "error", summary := "replanner not available" },
        evaluatedTask host task)
    | .raised message =>
      ({ ok := false, decision := "error", summary := "replanner exception: " ++ message },
        evaluatedTask host task)
    | .invalid =>
      ({ ok := false, decision := "error", summary := "invalid replanner result" },
        evaluatedTask host task)
    | .result replanned summary plan replanCount =>
      if replanned then answerProposal host task summary plan replanCount apply
      else
        ({ ok := true, decision := "skipped", summary := summaryOr summary "replan not applied" },
          evaluatedTask host task)

end Evaluation

/-- A failed run, and the evaluation after it. -/
structure Evaluation where
  failure : Failure
  proposal : Proposal
  apply : Bool

def evaluations (host : Host) : Machine Task Evaluation Answer where
  step task e := tryReplanTask host { task with failure := e.failure } e.proposal e.apply

end Replan
end ZeroRuntime
