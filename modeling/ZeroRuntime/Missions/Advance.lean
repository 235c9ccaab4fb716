import ZeroRuntime.Lib.Logged
import ZeroRuntime.Lib.PathText
import ZeroRuntime.Missions.Model
import ZeroRuntime.Sessions.Queue

/-!
# ZeroRuntime.Missions.Advance

Advancing a mission (`core/runtime/runtime_mission_orchestrator.py`): every goal's status is taken
from its session, goals that are ready get one, and the mission's status follows from the goals.

* A `Disk` holds the session, scheduler and mission files by path. Saving one is one `Write`, as the
  file is replaced at once.
* `loadSession` reads a session back and validates it at the time of the call.
* `advanceMission` logs its writes: sessions as they are created, then the scheduler, then the
  mission.
* The result summaries, checkpoints and evidence of a mission are left out, as nothing reads them.
-/

namespace ZeroRuntime
namespace Missions

open Lib Sessions

structure OrchestratorDigest extends MissionDigest, QueueDigest

structure RuntimeConfig where
  targetRoot : Option Root
  workspaceRoot : Option Root
  sessionDirectory : Option String := none
  sessionExpiresAt : Option ℕ := none
  proposal : Entries → Entries

/-! ## Files -/

structure Disk where
  sessions : Dict String Session := Dict.empty
  schedulers : Dict String SchedulerState := Dict.empty
  missions : Dict String Mission := Dict.empty

inductive Write where
  | session (path : String) (s : Session)
  | scheduler (path : String) (s : SchedulerState)
  | mission (path : String) (m : Mission)

namespace Disk

def write (d : Disk) : Write → Disk
  | .session path s => { d with sessions := d.sessions.set path s }
  | .scheduler path s => { d with schedulers := d.schedulers.set path s }
  | .mission path m => { d with missions := d.missions.set path m }

def after (d : Disk) (ws : List Write) : Disk := ws.foldl write d

end Disk

/-- `Path(p).parent` of an absolute path. -/
def parentOf (path : String) : String :=
  String.ofList (path.toList.reverse.dropWhile fun c => c ≠ '/').tail.reverse

/-- `Path(p).name` -/
def nameOf (path : String) : String :=
  String.ofList (path.toList.reverse.takeWhile fun c => c ≠ '/').reverse

/-- `Path(p).stem`: a dot at the start or the end of the name is no suffix. -/
def stemOf (path : String) : String :=
  let name := (nameOf path).toList
  let suffix := name.reverse.takeWhile fun c => c ≠ '.'
  let stem := (name.reverse.drop (suffix.length + 1)).reverse
  if suffix.isEmpty || stem.isEmpty then nameOf path else String.ofList stem

/-- `str((directory / name).resolve())` -/
def filePath (directory name : String) : String :=
  let path := if PathText.isAbsolute name then name else directory ++ "/" ++ name
  "/" ++ "/".intercalate (PathText.resolve path)

def sessionDir (missionPath : Option String) (config : RuntimeConfig) : Except Err String :=
  match config.sessionDirectory, missionPath with
  | some directory, none => if directory = "" then .error .typeError else .ok directory
  | some directory, some path =>
    if directory = "" then .ok (parentOf path ++ "/" ++ stemOf path ++ ".sessions")
    else .ok directory
  | none, some path => .ok (parentOf path ++ "/" ++ stemOf path ++ ".sessions")
  | none, none => .error .typeError

def attemptName (goalId : String) (attempt : ℕ) : String :=
  goalId ++ ".attempt-" ++ toString attempt ++ ".json"

section Digest

variable (F : OrchestratorDigest)

def checkedSession (s : Session) (targetRoot workspaceRoot : Root) (now : Instant) :
    Except Err Session :=
  let reasons := validateSession F.toSessionDigest s targetRoot workspaceRoot now
  if reasons ≠ [] then .error (.valueError (joined reasons)) else .ok s

/-- `load_runtime_session` -/
def loadSession (disk : Disk) (path : String) (targetRoot workspaceRoot : Root) (now : Instant) :
    Except Err Session :=
  match disk.sessions.get? path with
  | none => .error (.valueError "invalid_session_json")
  | some s => checkedSession F s targetRoot workspaceRoot now

/-! ## What a session makes of its goal -/

/-- `x in texts` for a set of texts. -/
def inTexts (x : Val) (texts : List String) : Except Err Bool :=
  if x.hashable then .ok (texts.any fun t => Val.eq x (.str t)) else .error .typeError

def isTrue : Val → Bool
  | .bool b => b
  | _ => false

def isFalse : Val → Bool
  | .bool b => !b
  | _ => false

def transactionOf (s : Session) : Entries := (Val.getIn "transaction_result" s.artifacts).entries

def validationStatus (tx : Entries) : Val :=
  (Val.getIn "validation_status" tx).orElse <| .str <|
    if isTrue (Val.getIn "validation_passed" tx) then "passed"
    else if isFalse (Val.getIn "validation_passed" tx) then "failed" else "not_run"

def rollbackStatus (tx : Entries) : Val :=
  (Val.getIn "rollback_status" tx).orElse <| .str <|
    if isTrue (Val.getIn "rollback_verified" tx) then "verified"
    else if (Val.getIn "rollback_executed" tx).truthy &&
      isFalse (Val.getIn "rollback_verified" tx) then "failed" else "not_required"

def evidenceValid (s : Session) : Bool :=
  let evidence := (Val.getIn "final_evidence" s.artifacts).entries
  let unsigned := evidence.filter fun e => e.1 ≠ "final_evidence_fingerprint"
  !evidence.isEmpty &&
    Val.eq (Val.getIn "contract" evidence) (.str finalEvidenceContract) &&
    Val.eq (Val.getIn "session_id" evidence) (.str s.sessionId) &&
    Val.eq (Val.getIn "final_evidence_fingerprint" evidence)
      (.str (fingerprint F.toSessionDigest (.dict unsigned)))

/-- What speaks against a completed session: its goal has failed if anything does. -/
def completionReasons (s : Session) : Except Err (List String) := do
  let tx := transactionOf s
  let transaction := Val.getIn "transaction_status" tx
  let validation := validationStatus tx
  let rollback := rollbackStatus tx
  let validationOk ← inTexts validation ["passed", "not_required"]
  let rollbackBad ← inTexts rollback ["failed", "rollback_failed"]
  let rollbackOk := !rollbackBad &&
    !(isTrue (Val.getIn "rollback_executed" tx) && isFalse (Val.getIn "rollback_verified" tx))
  .ok <|
    reasonIf (Val.eq transaction (.str "committed") = false)
      ("transaction_" ++ if transaction.truthy then transaction.toText else "missing") ++
    reasonIf (validationOk = false) ("validation_" ++ validation.toText) ++
    reasonIf (rollbackOk = false) ("rollback_" ++ rollback.toText) ++
    reasonIf (evidenceValid F s = false) "completion_evidence_invalid"

/-- The failure that a goal takes from its session, if it has none yet. -/
def sessionFailure (g : Goal) (s : Session) : Failure :=
  g.failure.getD (s.failure.getD { reasons := ["session_" ++ s.sessionStatus.text] })

def projectGoal (g : Goal) (s : Session) : Except Err Goal :=
  match s.sessionStatus with
  | .waitingForOperatorApproval | .waitingForPlanReview | .waitingForActiveAuthorization
  | .waitingForCandidateBundle | .waitingForTransactionInvocation =>
    .ok { g with goalStatus := .waitingForOperator }
  | .created | .running | .transactionRunning => .ok { g with goalStatus := .running }
  | .completed => do
    let reasons ← completionReasons F s
    if reasons = [] then .ok { g with goalStatus := .completed }
    else .ok { g with goalStatus := .failed, failure := some { reasons } }
  | .blocked => .ok { g with goalStatus := .blocked, failure := some (sessionFailure g s) }
  | .failed | .expired =>
    .ok { g with goalStatus := .failed, failure := some (sessionFailure g s) }
  | .cancelled => .ok { g with goalStatus := .cancelled }

def blockedFor (g : Goal) (reason : String) : Goal :=
  { g with goalStatus := .blocked, failure := some { reasons := [reason] } }

def refreshGoal (disk : Disk) (target workspace : Root) (now : Instant) (g : Goal) :
    Except Err Goal :=
  match g.sessionPath with
  | none => .ok g
  | some path =>
    match loadSession F disk path target workspace now with
    | .error (.valueError reason) => .ok (blockedFor g reason)
    | .error e => .error e
    | .ok s =>
      if g.sessionId ≠ some s.sessionId then .ok (blockedFor g "session_identity_mismatch")
      else do
        let g ← projectGoal F g s
        .ok { g with sessionFingerprint := some s.sessionFingerprint }

/-- The loop over the goals in their order. -/
def refreshGoals (disk : Disk) (target workspace : Root) (now : Instant) :
    List String → Goals → Except Err Goals
  | [], goals => .ok goals
  | id :: ids, goals =>
    match goals.get? id with
    | none => .error .keyError
    | some g => do
      let g ← refreshGoal F disk target workspace now g
      refreshGoals disk target workspace now ids (goals.set id g)

/-! ## Sessions for goals that are ready -/

/-- The task that a goal makes for its session. -/
def naturalTask (m : Mission) (goalId : String) (g : Goal) (attempt : ℕ) : Entries :=
  let texts (xs : List String) : Val := .list (xs.map .str)
  [("task_id", .str (m.missionId ++ ":" ++ goalId ++ ":attempt-" ++ toString attempt)),
    ("text", .str g.goalDescription), ("mission_id", .str m.missionId),
    ("goal_id", .str goalId), ("goal_title", .str g.goalTitle),
    ("approved_target_scope", texts g.targetScope), ("target_files", texts g.targetScope),
    ("acceptance_criteria", texts g.acceptanceCriteria),
    ("validation_requirements", texts g.validationRequirements)]

def attemptSession (m : Mission) (goalId : String) (g : Goal) (target workspace : Root)
    (config : RuntimeConfig) (now : Instant) : Except Err Session :=
  let natural := naturalTask m goalId g (g.attemptCount + 1)
  createRuntimeSession F.toSessionDigest natural target workspace
    { sessionExpiresAt := config.sessionExpiresAt, proposal := config.proposal natural } now

def addReference (refs : Dict String (List SessionReference)) (r : SessionReference) :
    Dict String (List SessionReference) :=
  refs.set r.goalId ((refs.get? r.goalId).getD [] ++ [r])

def sessionGoal (g : Goal) (path : String) (s : Session) : Goal :=
  { g with
    sessionId := some s.sessionId, sessionPath := some path
    sessionFingerprint := some s.sessionFingerprint, attemptCount := g.attemptCount + 1
    goalStatus := .waitingForOperator }

def withSession (m : Mission) (goalId : String) (g : Goal) (path : String) (s : Session) :
    Mission :=
  { m with
    sessionReferences := addReference m.sessionReferences
      { sessionId := s.sessionId, sessionPath := path
        sessionFingerprint := s.sessionFingerprint, goalId, attempt := g.attemptCount + 1
        archived := false }
    goals := m.goals.set goalId (sessionGoal g path s) }

def createGoalSession (target workspace : Root) (config : RuntimeConfig) (now : Instant)
    (goalId : String) (m : Mission) (scheduler : SchedulerState) :
    Logged Write (Mission × SchedulerState) :=
  match m.goals.get? goalId with
  | none => .raise .keyError
  | some g =>
    if g.sessionId.isSome then pure (m, scheduler)
    else do
      let directory ← .ofExcept (sessionDir m.missionPath config)
      let path := filePath directory (attemptName goalId (g.attemptCount + 1))
      let session ← .ofExcept (attemptSession F m goalId g target workspace config now)
      .write (.session path session)
      let scheduler ← .ofExcept (enqueueSession F.toQueueDigest scheduler path
        (checkedSession F session target workspace now) g.priority now)
      pure (withSession m goalId g path session, scheduler)

/-- The loop over the goals that are ready, in their order. -/
def createSessions (target workspace : Root) (config : RuntimeConfig) (now : Instant) :
    List String → Mission → SchedulerState → Logged Write (Mission × SchedulerState)
  | [], m, scheduler => pure (m, scheduler)
  | id :: ids, m, scheduler =>
    match m.goals.get? id with
    | none => .raise .keyError
    | some g =>
      if g.goalStatus = .ready then do
        let (m, scheduler) ← createGoalSession F target workspace config now id m scheduler
        createSessions target workspace config now ids m scheduler
      else createSessions target workspace config now ids m scheduler

def markReady (ids : List String) (goals : Goals) : Goals :=
  ids.foldl (fun goals id => goals.modify id fun g => { g with goalStatus := .ready }) goals

/-! ## The status of the mission -/

/-- The mission with the lists that the statuses of its goals make. -/
def relisted (m : Mission) : Mission :=
  { m with
    readyGoalIds := idsWith m .ready
    runningGoalIds := idsWith m .running
    waitingGoalIds := idsWith m .waitingForOperator
    completedGoalIds := idsWith m .completed
    failedGoalIds := idsWith m .failed
    blockedGoalIds := idsWith m .blocked
    cancelledGoalIds := idsWith m .cancelled }

def rebuildLists (m : Mission) : Except Err Mission :=
  if m.goalOrder.all m.goals.contains then .ok (relisted m) else .error .keyError

def nextStatus (statuses : List GoalStatus) : MissionStatus :=
  let has (s : GoalStatus) : Bool := statuses.contains s
  let active := has .running || has .waitingForOperator || has .ready || has .pending
  if !statuses.isEmpty && statuses.all (· = .completed) then .completed
  else if has .failed && !active then if has .completed then .partiallyCompleted else .failed
  else if has .blocked && !active then if has .completed then .partiallyCompleted else .blocked
  else if has .waitingForOperator then .waitingForOperator
  else .running

/-! ## Advancing -/

/-- `scheduler_state` of a call: a state, a path, or what the mission names. -/
inductive SchedulerSource where
  | given (s : SchedulerState)
  | path (path : String)
  | fromMission

def SchedulerSource.savePath (m : Mission) : SchedulerSource → Option String
  | .path p => if p = "" then none else some p
  | _ => m.schedulerStatePath

/-- The scheduler that a call works on. -/
def openScheduler (m : Mission) (source : SchedulerSource) (disk : Disk) :
    Except Err SchedulerState :=
  match source with
  | .given s => .ok s
  | _ =>
    match (source.savePath m).bind disk.schedulers.get? with
    | none => .error (.valueError "missing_scheduler_state")
    | some s =>
      let reasons := validateSchedulerState F.toQueueDigest s
      if reasons ≠ [] then .error (.valueError (joined reasons)) else .ok s

/-- `save_mission` when there is a path, else `seal_mission`. -/
def saveIf (m : Mission) : Logged Write Mission :=
  let m := sealMission F.toMissionDigest m
  match m.missionPath with
  | some path => do
    .write (.mission path m)
    pure m
  | none => pure m

def settleStatus (m : Mission) (now : Instant) : Except Err Mission :=
  let status := nextStatus (m.goals.values.map Goal.goalStatus)
  if status ≠ m.missionStatus then transitionMission F.toMissionDigest m status now else .ok m

/-- The goals before any of them gets a session. -/
def refreshedGoals (m : Mission) (disk : Disk) (target workspace : Root) (now : Instant) :
    Except Err Goals := do
  let goals ← refreshGoals F disk target workspace now m.goalOrder m.goals
  let goals ← propagateDependencyStates goals m.missionPolicy
  let ready ← readyGoalIds goals
  .ok (markReady ready goals)

def finishAdvance (source : SchedulerSource) (now : Instant) (m : Mission)
    (scheduler : SchedulerState) : Logged Write Mission := do
  let m ← .ofExcept (rebuildLists m)
  let m ← .ofExcept (settleStatus F m now)
  match source.savePath m with
  | some path => .write (.scheduler path (sealSchedulerState F.toQueueDigest scheduler))
  | none => pure ()
  saveIf F m

def Mission.withGoals (m : Mission) (goals : Goals) : Mission := { m with goals }

def advanceGoals (m : Mission) (source : SchedulerSource) (config : RuntimeConfig) (now : Instant)
    (disk : Disk) (target workspace : Root) (scheduler : SchedulerState) :
    Logged Write Mission := do
  let goals ← .ofExcept (refreshedGoals F m disk target workspace now)
  let (m, scheduler) ←
    createSessions F target workspace config now m.goalOrder (m.withGoals goals) scheduler
  finishAdvance F source now m scheduler

def advanceMission (m : Mission) (source : SchedulerSource) (config : RuntimeConfig)
    (now : Instant) (disk : Disk) : Logged Write Mission :=
  let reasons := validateMissionAt F.toMissionDigest m now
  if reasons ≠ [] then .raise (.valueError (joined reasons))
  else if m.missionStatus.terminal then pure m
  else if m.missionStatus = .waitingForPlanConfirmation then pure m
  else do
    let scheduler ← .ofExcept (openScheduler F m source disk)
    if validateSchedulerState F.toQueueDigest scheduler ≠ [] then
      .raise (.valueError "invalid_scheduler_state")
    else
      match config.targetRoot, config.workspaceRoot with
      | some target, some workspace =>
        advanceGoals F m source config now disk target workspace scheduler
      | _, _ => .raise (.valueError "runtime_roots_required")

end Digest

end Missions
end ZeroRuntime
