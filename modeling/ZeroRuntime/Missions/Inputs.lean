import ZeroRuntime.Missions.Advance
import ZeroRuntime.Missions.Replanner

/-!
# ZeroRuntime.Missions.Inputs

Creating a mission, and the inputs of its operator
(`core/runtime/runtime_mission_orchestrator.py`).

* `InputType` has the types an input may name; any other text is `other`.
* A `MissionInput` carries the keys of all payloads, `none` for one that is absent.
* `submitMissionInput` is given the time of the call, if any, and the reading of the clock.
-/

namespace ZeroRuntime
namespace Missions

open Lib Sessions

inductive InputType where
  | confirmGoalPlan | rejectGoalPlan | cancelMission | requestReplan | confirmReplan
  | rejectReplan | providePlanningClarification | reprioritizeGoal | retryGoal | unblockGoal
  | other (text : String)
deriving DecidableEq, Repr

structure InputPayload extends ReplanConfirmation where
  goalId : Option String := none
  /-- `none` for anything that is not an integer. -/
  priority : Option ℤ := none
  operatorInstruction : String := ""
  allowedRevisionScope : List String := []
  graphFingerprint : Option String := none
  goalIds : Option (List String) := none
  goalOrder : Option (List String) := none
  totalGoalCount : Option ℕ := none
deriving DecidableEq, Repr

structure MissionInput where
  contract : String
  missionId : String
  inputId : String
  operatorId : String
  inputType : InputType
  payload : InputPayload := {}
deriving DecidableEq, Repr

/-- `_validate_input`: whether the input was taken before. -/
def validateInput (m : Mission) (input : MissionInput) : Except Err Bool :=
  if input.contract ≠ missionInputContract then
    .error (.valueError "invalid_mission_input_contract")
  else if input.missionId ≠ m.missionId then .error (.valueError "mission_input_mismatch")
  else if isBlank input.inputId ∨ isBlank input.operatorId then
    .error (.valueError "operator_identity_required")
  else .ok (m.processedInputIds.contains input.inputId)

def recordInput (m : Mission) (input : MissionInput) : Mission :=
  { m with processedInputIds := m.processedInputIds ++ [input.inputId] }

section Digest

variable (F : OrchestratorDigest)

/-! ## Creating a mission -/

/-- `create_mission`; the target root is also given as the path it resolves to. -/
def createMission (input : String) (plan : Option (List GoalItem)) (targetRoot workspaceRoot : Root)
    (targetPath : String) (config : MissionConfig) (now : Instant) (disk : Disk) :
    Logged Write Mission :=
  match plan with
  | none => .raise (.valueError "goal_plan_required")
  | some plan =>
    if config.missionPath.any fun p => PathText.LiesIn p targetPath then
      .raise (.valueError "mission_path_inside_target_root")
    else do
      let m ← .ofExcept
        (createMissionContract F.toMissionDigest input plan targetRoot workspaceRoot config now)
      let m := { m with
        missionPath := config.missionPath
        schedulerStatePath := config.schedulerStatePath }
      match config.schedulerStatePath with
      | some path =>
        if disk.schedulers.contains path then pure ()
        else .write (.scheduler path (createSchedulerState F.toQueueDigest now))
      | none => pure ()
      saveIf F m

/-! ## The inputs for a plan -/

/-- The first key of the payload that is not as the graph has it. -/
def planMismatch (m : Mission) (p : InputPayload) : Option String :=
  if p.graphFingerprint ≠ some m.goalGraph.graphFingerprint then some "graph_fingerprint"
  else if p.goalIds ≠ some m.goalGraph.goalIds then some "goal_ids"
  else if p.goalOrder ≠ some m.goalGraph.goalOrder then some "goal_order"
  else if p.totalGoalCount ≠ some m.goals.entries.length then some "total_goal_count"
  else none

def confirmedGraph (g : GoalGraph) : GoalGraph :=
  sealGraph F.toGoalDigest { g with confirmed := true }

def confirmMissionPlan (m : Mission) (input : MissionInput) (now : Instant) :
    Logged Write Mission :=
  let reasons := validateMissionAt F.toMissionDigest m now
  if reasons ≠ [] then .raise (.valueError (joined reasons))
  else do
    let duplicate ← .ofExcept (validateInput m input)
    if duplicate then pure m
    else if m.missionStatus ≠ .waitingForPlanConfirmation then
      .raise (.valueError "wrong_mission_phase_input")
    else
      match input.inputType with
      | .rejectGoalPlan => do
        let m ← .ofExcept (transitionMission F.toMissionDigest m .blocked now)
        let m := { m with failure := some { reasons := ["goal_plan_rejected"] } }
        saveIf F (recordInput m input)
      | .confirmGoalPlan =>
        match planMismatch m input.payload with
        | some key => .raise (.valueError ("plan_confirmation_mismatch:" ++ key))
        | none =>
          if input.payload.operatorAcknowledgment = false then
            .raise (.valueError "operator_acknowledgment_required")
          else do
            let m := { m with goalGraph := confirmedGraph F m.goalGraph }
            let m ← .ofExcept (transitionMission F.toMissionDigest m .ready now)
            saveIf F (recordInput { m with planningStatus := "confirmed" } input)
      | _ => .raise (.valueError "wrong_mission_input_type")

/-! ## The inputs for a mission -/

def cancelGoal (g : Goal) : Goal :=
  if g.goalStatus = .pending ∨ g.goalStatus = .ready then { g with goalStatus := .cancelled }
  else g

def cancelMission (m : Mission) (operatorId : String) (now : Instant) : Logged Write Mission :=
  if isBlank operatorId then .raise (.valueError "operator_id_required")
  else if m.missionStatus.terminal then pure m
  else do
    let m := { m with goals := mapGoals cancelGoal m.goals }
    let m ← .ofExcept (transitionMission F.toMissionDigest m .cancelled now)
    let m ← .ofExcept (rebuildLists m)
    saveIf F m

/-- The replan that an operator asks for, staged. -/
def requestReplan (m : Mission) (p : InputPayload) (now : Option Instant) (clock : Instant) :
    Except Err Mission := do
  let request ← createReplanningRequest F.toMissionDigest m p.operatorInstruction
    p.allowedRevisionScope (now.getD clock)
  let output ← deterministicReplanner F.toMissionDigest request m
  stageReplan F.toMissionDigest m request output now clock

/-- The handling of `reject_replan`. -/
def rejectReplan (m : Mission) (now : Instant) : Except Err Mission :=
  if m.missionStatus ≠ .waitingForReplanConfirmation then
    .error (.valueError "wrong_replan_confirmation_phase")
  else if m.replanningHistory.isEmpty then .error .keyError
  else
    transitionMission F.toMissionDigest
      { m with
        replanRequired := false
        replanningStatus := "rejected"
        replanningHistory := markLast "rejected" m.replanningHistory }
      .blocked now

/-- The handling of `provide_planning_clarification`. -/
def clarify (m : Mission) (input : MissionInput) : Mission :=
  { m with
    clarificationHistory := m.clarificationHistory ++
      [{ inputId := input.inputId, operatorId := input.operatorId }]
    planningRevision := m.planningRevision + 1
    clarificationRequired := false
    planningStatus := "clarification_received" }

/-- The handling of `reprioritize_goal`. -/
def reprioritize (m : Mission) (goalId : String) (g : Goal) (p : InputPayload) :
    Except Err Mission :=
  match p.priority with
  | none => .error (.valueError "invalid_priority")
  | some priority =>
    if priority < -100 ∨ 100 < priority then .error (.valueError "invalid_priority")
    else if g.sessionId.isSome then .error (.valueError "active_goal_not_reprioritizable")
    else .ok { m with goals := m.goals.set goalId { g with priority } }

def archiveLast (refs : List SessionReference) : List SessionReference :=
  match refs.getLast? with
  | some last => refs.dropLast ++ [{ last with archived := true }]
  | none => []

def retriedGoal (g : Goal) : Goal :=
  { g with
    goalStatus := .pending, sessionId := none, sessionPath := none, sessionFingerprint := none
    failure := none }

/-- The handling of `retry_goal` and `unblock_goal`. -/
def retryGoal (m : Mission) (goalId : String) (g : Goal) (now : Instant) : Except Err Mission :=
  if g.goalStatus ≠ .failed ∧ g.goalStatus ≠ .blocked then
    .error (.valueError "goal_not_retryable")
  else if isCritical g then .error (.valueError "critical_goal_not_retryable")
  else if g.maxAttempts ≤ g.attemptCount then .error (.valueError "goal_max_attempts_exceeded")
  else
    let m := { m with
      sessionReferences := m.sessionReferences.modify goalId archiveLast
      goals := m.goals.set goalId (retriedGoal g) }
    if m.missionStatus = .blocked then transitionMission F.toMissionDigest m .running now true
    else .ok m

def namedGoal (m : Mission) (p : InputPayload) : Option (String × Goal) :=
  p.goalId.bind fun id => (m.goals.get? id).map fun g => (id, g)

def handleGoalInput (m : Mission) (input : MissionInput) (now : Instant) : Except Err Mission :=
  match namedGoal m input.payload with
  | none => .error (.valueError "unknown_goal_id")
  | some (id, g) =>
    match input.inputType with
    | .reprioritizeGoal => reprioritize m id g input.payload
    | .retryGoal | .unblockGoal => retryGoal F m id g now
    | _ => .error (.valueError "unsupported_mission_input_type")

/-- What an input makes of the mission, before it is recorded. -/
def handleInput (m : Mission) (input : MissionInput) (now : Option Instant) (clock : Instant) :
    Except Err Mission :=
  match input.inputType with
  | .requestReplan => requestReplan F m input.payload now clock
  | .confirmReplan =>
    confirmReplan F.toMissionDigest m input.payload.toReplanConfirmation (now.getD clock)
  | .rejectReplan => rejectReplan F m (now.getD clock)
  | .providePlanningClarification => .ok (clarify m input)
  | _ => handleGoalInput F m input (now.getD clock)

def submitMissionInput (m : Mission) (input : MissionInput) (now : Option Instant)
    (clock : Instant) : Logged Write Mission :=
  match input.inputType with
  | .confirmGoalPlan | .rejectGoalPlan => confirmMissionPlan F m input (now.getD clock)
  | _ => do
    let duplicate ← .ofExcept (validateInput m input)
    if duplicate then pure m
    else if input.inputType = .cancelMission then
      cancelMission F m input.operatorId (now.getD clock)
    else do
      let m ← .ofExcept (handleInput F m input now clock)
      saveIf F (recordInput m input)

end Digest

end Missions
end ZeroRuntime
