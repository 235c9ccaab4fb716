import ZeroRuntime.Goals.Repository
import ZeroRuntime.Journal.Wal
import ZeroRuntime.Lib.Written

/-!
# ZeroRuntime.GoalLog.Repository

The repository of passive goals (`core/goals/goal_repository.py`): goals, their subgoals and their
progress are appended to a log by five calls, and every read replays the log.

* `RequiredText`: a text as `clean_required_text` leaves it; cleaning it again changes nothing, so
  what is read back from a line of the log is the record that was written.
* `Numbers`: `float(x)` with the check that it is between 0 and 1, and `int(x)` of such a number.
* `result` is the record that a call appends; the machine `goalLog` takes one call at a time.
-/

namespace ZeroRuntime
namespace GoalLog

open Lib Goals
open Journal (intOf)

/-! ## Cleaning -/

structure RequiredText where
  text : String
  stripped : Text.strip text = text
  nonempty : text ≠ ""
deriving DecidableEq

/-- `clean_required_text` -/
def RequiredText.read (value : Val) (fieldName : String) : Except Err RequiredText :=
  if h : value.text = "" then .error (.valueError ("goal_requires_" ++ fieldName))
  else .ok ⟨value.text, Val.strip_text value, h⟩

inductive GoalStatus where
  | created | planned | pending | active | paused | blocked | resumable | completed | failed
deriving DecidableEq, Repr

def GoalStatus.value : GoalStatus → String
  | created => "created"
  | planned => "planned"
  | pending => "pending"
  | active => "active"
  | paused => "paused"
  | blocked => "blocked"
  | resumable => "resumable"
  | completed => "completed"
  | failed => "failed"

def allStatuses : List GoalStatus :=
  [.created, .planned, .pending, .active, .paused, .blocked, .resumable, .completed, .failed]

/-- `TERMINAL_GOAL_STATUSES` -/
def GoalStatus.terminal : GoalStatus → Bool
  | completed | failed => true
  | _ => false

def cleanStatus (value : Val) : Except Err GoalStatus :=
  match allStatuses.find? fun status => status.value = lowered value with
  | some status => .ok status
  | none => .error (.valueError "goal_requires_valid_status")

def copyEvidenceRefs : Val → Except Err (List Val)
  | .none => .ok []
  | .list refs => .ok refs
  | _ => .error .typeError

def copyTextList (value : Val) (fieldName : String) : Except Err (List String) :=
  match value with
  | .none => .ok []
  | .list items =>
    items.foldlM (fun result item => do
      let cleaned ← RequiredText.read item fieldName
      pure (if cleaned.text ∈ result then result else result ++ [cleaned.text])) []
  | _ => .error .typeError

def union (first second : List String) : List String :=
  (first ++ second).foldl (fun result value =>
    let cleaned := Text.strip value
    if cleaned = "" ∨ cleaned ∈ result then result else result ++ [cleaned]) []

structure Numbers where
  ratio : Val → Except Err Val
  truncate : String → Except Err ℤ

/-! ## Records -/

structure PersistentGoal where
  goalId : RequiredText
  title : RequiredText
  description : String
  status : GoalStatus
  createdAt : RequiredText
  updatedAt : RequiredText
  evidenceRefs : List Val

structure PersistentSubgoal where
  subgoalId : RequiredText
  goalId : RequiredText
  title : RequiredText
  status : GoalStatus
  order : ℤ
  progress : Val
  blockedReason : Option String
  resumePoint : Val
  evidenceRefs : List Val
  createdAt : RequiredText
  updatedAt : RequiredText

structure GoalResumePoint where
  goalId : RequiredText
  subgoalId : Option String
  taskId : Option String
  stepId : Option String
  reason : Option String
  evidenceRefs : List Val

structure GoalProgress where
  goalId : RequiredText
  completedSubgoals : List String
  activeSubgoalId : Option String
  blockedSubgoals : List String
  progressRatio : Val
  resumePoint : Option GoalResumePoint
  updatedAt : RequiredText
  evidenceRefs : List Val

/-- The arguments of `PersistentGoal`. -/
structure GoalFields where
  goalId : Val
  title : Val
  description : Val := .str ""
  status : Val := .str "pending"
  createdAt : Val
  updatedAt : Val
  evidenceRefs : Val := .list []

/-- `PersistentGoal.__post_init__` -/
def PersistentGoal.make (f : GoalFields) : Except Err PersistentGoal := do
  let goalId ← RequiredText.read f.goalId "goal_id"
  let title ← RequiredText.read f.title "title"
  let status ← cleanStatus f.status
  let createdAt ← RequiredText.read f.createdAt "created_at"
  let updatedAt ← RequiredText.read f.updatedAt "updated_at"
  let evidenceRefs ← copyEvidenceRefs f.evidenceRefs
  .ok { goalId, title, description := f.description.text, status, createdAt, updatedAt, evidenceRefs }

/-- `value.get(key) or default` -/
def getOr (value : Entries) (key : String) (default : Val) : Val :=
  (Val.getIn key value).orElse default

/-- `PersistentGoal.from_mapping`, at a time. -/
def PersistentGoal.fromMapping (now : RequiredText) (value : Entries) : Except Err PersistentGoal :=
  PersistentGoal.make
    { goalId := Val.getIn "goal_id" value, title := Val.getIn "title" value,
      description := getOr value "description" (.str ""),
      status := getOr value "status" (.str "pending"),
      createdAt := getOr value "created_at" (.str now.text),
      updatedAt := getOr value "updated_at" (getOr value "created_at" (.str now.text)),
      evidenceRefs := getOr value "evidence_refs" (.list []) }

/-- The arguments of `PersistentSubgoal`. -/
structure SubgoalFields where
  subgoalId : Val
  goalId : Val
  title : Val
  status : Val := .str "pending"
  order : Val := .int 0
  progress : Val := .int 0
  blockedReason : Val := .none
  resumePoint : Val := .none
  evidenceRefs : Val := .list []
  createdAt : Val
  updatedAt : Val

/-- `PersistentSubgoal.__post_init__` -/
def PersistentSubgoal.make (N : Numbers) (f : SubgoalFields) : Except Err PersistentSubgoal := do
  let progress ← N.ratio f.progress
  let subgoalId ← RequiredText.read f.subgoalId "subgoal_id"
  let goalId ← RequiredText.read f.goalId "goal_id"
  let title ← RequiredText.read f.title "title"
  let status ← cleanStatus f.status
  let order ← intOf N.truncate f.order
  let evidenceRefs ← copyEvidenceRefs f.evidenceRefs
  let createdAt ← RequiredText.read f.createdAt "created_at"
  let updatedAt ← RequiredText.read f.updatedAt "updated_at"
  .ok
    { subgoalId, goalId, title, status, order, progress,
      blockedReason := cleanOptionalText f.blockedReason, resumePoint := f.resumePoint, evidenceRefs,
      createdAt, updatedAt }

def PersistentSubgoal.fromMapping (N : Numbers) (now : RequiredText) (value : Entries) :
    Except Err PersistentSubgoal :=
  PersistentSubgoal.make N
    { subgoalId := Val.getIn "subgoal_id" value, goalId := Val.getIn "goal_id" value,
      title := Val.getIn "title" value, status := getOr value "status" (.str "pending"),
      order := getOr value "order" (.int 0), progress := getOr value "progress" (.int 0),
      blockedReason := Val.getIn "blocked_reason" value,
      resumePoint := Val.getIn "resume_point" value,
      evidenceRefs := getOr value "evidence_refs" (.list []),
      createdAt := getOr value "created_at" (.str now.text),
      updatedAt := getOr value "updated_at" (getOr value "created_at" (.str now.text)) }

def GoalResumePoint.fromMapping (value : Entries) : Except Err GoalResumePoint := do
  let goalId ← RequiredText.read (Val.getIn "goal_id" value) "goal_id"
  let evidenceRefs ← copyEvidenceRefs (getOr value "evidence_refs" (.list []))
  .ok
    { goalId, subgoalId := cleanOptionalText (Val.getIn "subgoal_id" value),
      taskId := cleanOptionalText (Val.getIn "task_id" value),
      stepId := cleanOptionalText (Val.getIn "step_id" value),
      reason := cleanOptionalText (Val.getIn "reason" value), evidenceRefs }

/-- The resume point of a progress record. -/
def readResumePoint : Val → Except Err (Option GoalResumePoint)
  | .none => .ok none
  | .dict value => do
    let point ← GoalResumePoint.fromMapping value
    pure (some point)
  | _ => .error .typeError

/-- The arguments of `GoalProgress`. -/
structure ProgressFields where
  goalId : Val
  completedSubgoals : Val := .list []
  activeSubgoalId : Val := .none
  blockedSubgoals : Val := .list []
  progressRatio : Val := .int 0
  resumePoint : Val := .none
  updatedAt : Val
  evidenceRefs : Val := .list []

/-- `GoalProgress.__post_init__` -/
def GoalProgress.make (N : Numbers) (f : ProgressFields) : Except Err GoalProgress := do
  let progressRatio ← N.ratio f.progressRatio
  let resumePoint ← readResumePoint f.resumePoint
  let goalId ← RequiredText.read f.goalId "goal_id"
  let completedSubgoals ← copyTextList f.completedSubgoals "completed_subgoals"
  let blockedSubgoals ← copyTextList f.blockedSubgoals "blocked_subgoals"
  let updatedAt ← RequiredText.read f.updatedAt "updated_at"
  let evidenceRefs ← copyEvidenceRefs f.evidenceRefs
  .ok
    { goalId, completedSubgoals, activeSubgoalId := cleanOptionalText f.activeSubgoalId,
      blockedSubgoals, progressRatio, resumePoint, updatedAt, evidenceRefs }

def GoalProgress.fromMapping (N : Numbers) (now : RequiredText) (value : Entries) :
    Except Err GoalProgress :=
  GoalProgress.make N
    { goalId := Val.getIn "goal_id" value,
      completedSubgoals := getOr value "completed_subgoals" (.list []),
      activeSubgoalId := Val.getIn "active_subgoal_id" value,
      blockedSubgoals := getOr value "blocked_subgoals" (.list []),
      progressRatio := getOr value "progress_ratio" (.int 0),
      resumePoint := Val.getIn "resume_point" value,
      updatedAt := getOr value "updated_at" (.str now.text),
      evidenceRefs := getOr value "evidence_refs" (.list []) }

/-- What a record is given as: an object, or a mapping or anything else. -/
inductive Input (Fields : Type) where
  | object (f : Fields)
  | value (x : Val)

def Input.read {Fields α : Type} (make : Fields → Except Err α)
    (fromMapping : Entries → Except Err α) : Input Fields → Except Err α
  | object f => make f
  | value (.dict entries) => fromMapping entries
  | value _ => .error .attributeError

/-! ## The log -/

inductive LogRecord where
  | goal (g : PersistentGoal)
  | subgoal (sub : PersistentSubgoal)
  | progress (p : GoalProgress)

/-- `json.dumps` can write the record: texts and numbers always, the rest by what it holds. -/
def LogRecord.writable : LogRecord → Bool
  | goal g => Val.writableItems g.evidenceRefs
  | subgoal sub => Val.writableItems sub.evidenceRefs && sub.resumePoint.writable
  | progress p => Val.writableItems p.evidenceRefs &&
    p.resumePoint.all fun point => Val.writableItems point.evidenceRefs

structure GoalState where
  goals : Dict RequiredText PersistentGoal := .empty
  subgoals : Dict RequiredText PersistentSubgoal := .empty
  progress : Dict RequiredText GoalProgress := .empty

def GoalState.add (s : GoalState) : LogRecord → GoalState
  | .goal g => { s with goals := s.goals.set g.goalId g }
  | .subgoal sub => { s with subgoals := s.subgoals.set sub.subgoalId sub }
  | .progress p => { s with progress := s.progress.set p.goalId p }

def replay (log : List LogRecord) : GoalState := log.foldl GoalState.add {}

def append (record : LogRecord) : Except Err LogRecord :=
  if record.writable then .ok record
  else .error (.valueError "goal_record_must_be_json_serializable")

/-! ## Calls -/

variable (N : Numbers) (s : GoalState)

def appendGoal (goal : Input GoalFields) (now : RequiredText) : Except Err LogRecord := do
  let g ← goal.read PersistentGoal.make (PersistentGoal.fromMapping now)
  match s.goals.get? g.goalId with
  | some _ => .error (.valueError ("goal_already_exists:" ++ g.goalId.text))
  | none => append (.goal g)

def appendSubgoal (subgoal : Input SubgoalFields) (now : RequiredText) : Except Err LogRecord := do
  let sub ← subgoal.read (PersistentSubgoal.make N) (PersistentSubgoal.fromMapping N now)
  match s.goals.get? sub.goalId with
  | none => .error .keyError
  | some _ =>
    match s.subgoals.get? sub.subgoalId with
    | some _ => .error (.valueError ("subgoal_already_exists:" ++ sub.subgoalId.text))
    | none => append (.subgoal sub)

def inferAction : GoalStatus → String
  | .planned => "plan"
  | .active => "start"
  | .blocked => "block"
  | .resumable => "resume_ready"
  | .completed => "complete"
  | .failed => "fail"
  | status => status.value

def allSubgoalsCompleted (goalId : RequiredText) : Bool :=
  s.subgoals.values.all fun sub => !(sub.goalId == goalId) || sub.status == .completed

/-- `is_accepted_goal_completion_result`, for a goal. -/
def acceptedFor (value : Option GoalCompletionResult) (goalId : Val) : Bool :=
  match value with
  | none => false
  | some r =>
    r.issued && r.schema == goalCompletionResultSchema &&
      r.authorityOwner == goalCompletionAuthorityOwner && r.accepted && r.completed &&
      r.toState == "completed" && !r.evidenceRefs.isEmpty && (Val.str r.goalId).eq goalId

def validateTransition (targetType : TargetType) (targetId : Val) (fromStatus toStatus : GoalStatus)
    (action reason resumePoint evidenceRefs : Val) (subgoals : Option Bool) : Except Err Unit := do
  let t ← GoalTransition.make targetType targetId (.str fromStatus.value) (.str toStatus.value)
    (action.orElse (.str (inferAction toStatus))) reason resumePoint []
  let refs ← copyEvidenceRefs evidenceRefs
  let decision := transition { t with evidenceRefs := refs.map .value } subgoals false
  if decision.accepted then .ok ()
  else .error (.valueError (decision.reason ++ ":" ++ decision.blockedReason.getD "None"))

def given (value stored : Val) : Val := if isAbsent value then stored else value

/-- The evidence of an updated record: what is given, if anything is. -/
def newEvidence (value : Val) (stored : List Val) : Except Err (List Val) :=
  if isAbsent value then .ok stored else copyEvidenceRefs (value.orElse (.list []))

/-- The arguments of `update_goal_status`. -/
structure GoalUpdate where
  goalId : Val
  status : Val
  evidenceRefs : Val := .none
  reason : Val := .none
  resumePoint : Val := .none
  action : Val := .none
  completionAttestation : Option GoalCompletionResult := none

def updateGoalStatus (u : GoalUpdate) (now : RequiredText) : Except Err LogRecord := do
  let goalId ← RequiredText.read u.goalId "goal_id"
  match s.goals.get? goalId with
  | none => .error .keyError
  | some existing => do
    let target ← cleanStatus u.status
    if target = .completed then
      if acceptedFor u.completionAttestation u.goalId then do
        let evidenceRefs ← newEvidence u.evidenceRefs existing.evidenceRefs
        append (.goal { existing with status := .completed, updatedAt := now, evidenceRefs })
      else .error (.valueError "canonical_completion_attestation_required")
    else do
      validateTransition .goal u.goalId existing.status target u.action u.reason u.resumePoint
        (given u.evidenceRefs (.list existing.evidenceRefs)) (some (allSubgoalsCompleted s goalId))
      let evidenceRefs ← newEvidence u.evidenceRefs existing.evidenceRefs
      append (.goal { existing with status := target, updatedAt := now, evidenceRefs })

/-- The arguments of `update_subgoal_status`. -/
structure SubgoalUpdate where
  subgoalId : Val
  status : Val
  progress : Val := .none
  blockedReason : Val := .none
  resumePoint : Val := .none
  evidenceRefs : Val := .none
  reason : Val := .none
  action : Val := .none

def updateSubgoalStatus (u : SubgoalUpdate) (now : RequiredText) : Except Err LogRecord := do
  let subgoalId ← RequiredText.read u.subgoalId "subgoal_id"
  match s.subgoals.get? subgoalId with
  | none => .error .keyError
  | some existing => do
    let target ← cleanStatus u.status
    validateTransition .subgoal u.subgoalId existing.status target u.action
      (u.reason.orElse u.blockedReason) (given u.resumePoint existing.resumePoint)
      (given u.evidenceRefs (.list existing.evidenceRefs)) none
    let progress ← (if isAbsent u.progress then .ok existing.progress
      else N.ratio (u.progress.orElse (.int 0)))
    let evidenceRefs ← newEvidence u.evidenceRefs existing.evidenceRefs
    append (.subgoal
      { existing with
        status := target
        updatedAt := now
        progress := progress
        blockedReason := if isAbsent u.blockedReason then existing.blockedReason
          else cleanOptionalText u.blockedReason
        resumePoint := given u.resumePoint existing.resumePoint
        evidenceRefs := evidenceRefs })

def recordProgress (progress : Input ProgressFields) (now : RequiredText) :
    Except Err LogRecord := do
  let incoming ← progress.read (GoalProgress.make N) (GoalProgress.fromMapping N now)
  match s.goals.get? incoming.goalId with
  | none => .error .keyError
  | some _ =>
    match s.progress.get? incoming.goalId with
    | none => append (.progress { incoming with updatedAt := now })
    | some previous =>
      append (.progress
        { incoming with
          completedSubgoals := union previous.completedSubgoals incoming.completedSubgoals
          blockedSubgoals := union previous.blockedSubgoals incoming.blockedSubgoals
          resumePoint := incoming.resumePoint.or previous.resumePoint
          updatedAt := now })

inductive Call where
  | appendGoal (goal : Input GoalFields) (now : RequiredText)
  | appendSubgoal (subgoal : Input SubgoalFields) (now : RequiredText)
  | updateGoalStatus (u : GoalUpdate) (now : RequiredText)
  | updateSubgoalStatus (u : SubgoalUpdate) (now : RequiredText)
  | recordProgress (progress : Input ProgressFields) (now : RequiredText)

def result : Call → Except Err LogRecord
  | .appendGoal goal now => appendGoal s goal now
  | .appendSubgoal subgoal now => appendSubgoal N s subgoal now
  | .updateGoalStatus u now => updateGoalStatus s u now
  | .updateSubgoalStatus u now => updateSubgoalStatus N s u now
  | .recordProgress progress now => recordProgress N s progress now

/-- The repository; a call that raises appends nothing. -/
def goalLog : Machine (List LogRecord) Call (Except Err LogRecord) where
  step log c :=
    match result N (replay log) c with
    | .error e => (.error e, log)
    | .ok record => (.ok record, log ++ [record])

end GoalLog
end ZeroRuntime
