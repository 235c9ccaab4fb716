import ZeroRuntime.Missions.Goals

/-!
# ZeroRuntime.Missions.Model

The mission (`core/runtime/runtime_mission_model.py`): its record, the transitions of its status,
its seal, creating it from a plan, and validating it.

* The documents of a replanning are part of the record, as its history keeps them.
* `MissionDigest` stands for `fingerprint`.
* What is only written and never read back (evidence, checkpoints, audit) is left out.
-/

namespace ZeroRuntime
namespace Missions

open Lib Sessions

/-! ## The documents of a replanning -/

structure ReplanningRequest where
  contract : String
  replanningRequestId : String
  missionId : String
  currentMissionFingerprint : String
  currentGraphFingerprint : String
  failedGoalIds : List String
  blockedGoalIds : List String
  completedGoalIds : List String
  immutableCompletedGoals : List (String × Goal)
  operatorInstruction : String
  allowedRevisionScope : List String
  submittedAt : ℕ
  expiresAt : ℕ
  revisionNumber : ℕ
  requestFingerprint : String
deriving DecidableEq, Repr

/-- A goal of a replanner's output, under `replacement_goals` or `added_goals`. -/
structure RevisedGoal where
  replacesGoalId : String := ""
  provisionalGoalId : String
  title : String
  description : String
  goalType : String
  priority : ℤ := 0
  dependsOn : List String := []
  targetScope : List String := []
  requiredCapabilities : List String := []
  acceptanceCriteria : List String := []
  validationRequirements : List String := []
  maxAttempts : ℤ := 3
  extraFields : List String := []
deriving DecidableEq, Repr

structure ScopeDelta where
  added : List String
  removed : List String
deriving DecidableEq, Repr

structure ReplannerOutput where
  contract : String
  replannerOutputId : String
  replanningRequestId : String
  missionId : String
  revisionNumber : ℕ
  unchangedGoalIds : List String
  removedGoalIds : List String
  replacementGoals : List RevisedGoal
  addedGoals : List RevisedGoal
  revisedDependencies : List (String × List String)
  revisedGoalOrder : List String
  preservedCompletedGoals : List String
  scopeDelta : ScopeDelta
  riskDelta : List String
  generatedAt : ℕ
  expiresAt : ℕ
  outputFingerprint : String
deriving DecidableEq, Repr

structure ReplanRecord where
  revisionNumber : ℕ
  oldGraphFingerprint : String
  request : ReplanningRequest
  output : ReplannerOutput
  status : String
deriving DecidableEq, Repr

/-! ## The mission -/

inductive MissionStatus where
  | created | planning | waitingForPlanConfirmation | ready | running | waitingForOperator
  | partiallyCompleted | waitingForReplanConfirmation | completed | blocked | failed | expired
  | cancelled
deriving DecidableEq, Repr

namespace MissionStatus

def text : MissionStatus → String
  | created => "created"
  | planning => "planning"
  | waitingForPlanConfirmation => "waiting_for_plan_confirmation"
  | ready => "ready"
  | running => "running"
  | waitingForOperator => "waiting_for_operator"
  | partiallyCompleted => "partially_completed"
  | waitingForReplanConfirmation => "waiting_for_replan_confirmation"
  | completed => "completed"
  | blocked => "blocked"
  | failed => "failed"
  | expired => "expired"
  | cancelled => "cancelled"

def terminal : MissionStatus → Bool
  | completed | blocked | failed | expired | cancelled => true
  | _ => false

def transitions : MissionStatus → List MissionStatus
  | created => [planning, cancelled, expired]
  | planning => [waitingForPlanConfirmation, blocked, cancelled, expired]
  | waitingForPlanConfirmation => [ready, blocked, cancelled, expired]
  | ready => [running, waitingForOperator, completed, blocked, cancelled, expired]
  | running =>
    [waitingForOperator, partiallyCompleted, completed, blocked, failed, cancelled, expired]
  | waitingForOperator =>
    [running, partiallyCompleted, completed, blocked, failed, cancelled, expired]
  | partiallyCompleted =>
    [running, waitingForOperator, waitingForReplanConfirmation, completed, blocked, failed,
      cancelled, expired]
  | waitingForReplanConfirmation => [running, blocked, cancelled, expired]
  | completed => []
  | blocked => [waitingForReplanConfirmation]
  | failed => [waitingForReplanConfirmation]
  | expired => []
  | cancelled => []

end MissionStatus

/-- A reference to a session that was created for a goal. -/
structure SessionReference where
  sessionId : String
  sessionPath : String
  sessionFingerprint : String
  goalId : String
  attempt : ℕ
  archived : Bool
deriving DecidableEq, Repr

structure Clarification where
  inputId : String
  operatorId : String
deriving DecidableEq, Repr

structure Mission where
  contract : String
  missionId : String
  missionStatus : MissionStatus
  createdAt : ℕ
  updatedAt : ℕ
  expiresAt : ℕ
  missionPolicy : String
  goalGraph : GoalGraph
  goalOrder : List String
  goals : Goals
  readyGoalIds : List String := []
  runningGoalIds : List String := []
  waitingGoalIds : List String := []
  completedGoalIds : List String := []
  failedGoalIds : List String := []
  blockedGoalIds : List String := []
  cancelledGoalIds : List String := []
  sessionReferences : Dict String (List SessionReference) := Dict.empty
  processedInputIds : List String := []
  failure : Option Failure := none
  completed : Bool := false
  completedAt : Option ℕ := none
  planningRevision : ℕ := 0
  planningStatus : String := "not_started"
  clarificationRequired : Bool := false
  clarificationHistory : List Clarification := []
  plannerOutputScope : List String := []
  replanRequired : Bool := false
  replanningStatus : String := "not_started"
  replanningRevision : ℕ := 0
  replanningHistory : List ReplanRecord := []
  immutableCompletedGoalIds : List String := []
  missionPath : Option String := none
  schedulerStatePath : Option String := none
  missionFingerprint : String := ""

def idsWith (m : Mission) (status : GoalStatus) : List String :=
  m.goalOrder.filter fun id => statusIn m.goals id = some status

structure MissionDigest extends GoalDigest where
  mission : Mission → String
  missionSeed : String × String × String → String
  request : ReplanningRequest → String
  output : ReplannerOutput → String

/-- Names in the place of fingerprints, for samples. -/
def sampleDigest : MissionDigest where
  semantic s := s.goalTitle.getD ""
  goalSeed s := s.1
  graph g := "graph:" ++ g.missionId
  mission m := "mission:" ++ m.missionId
  missionSeed s := s.1
  request r := "request:" ++ r.missionId
  output o := "output:" ++ o.missionId

/-- `CONTRACT` -/
def missionContract : String := "zero.runtime.mission.v1"

/-- `INPUT_CONTRACT` -/
def missionInputContract : String := "zero.runtime.mission_input.v1"

section Digest

variable (F : MissionDigest)

def unsigned (m : Mission) : Mission := { m with missionFingerprint := "" }

def sealMission (m : Mission) : Mission := { m with missionFingerprint := F.mission (unsigned m) }

/-- `deterministic_mission_id`, of the text of the input and the two roots. -/
def deterministicMissionId (input target workspace : String) : String :=
  "mission-" ++ Text.take 20 (F.missionSeed (input, target, workspace))

/-- The mission in another status, which the transition table allows. -/
def moved (m : Mission) (status : MissionStatus) (now : Instant) : Mission :=
  let value := { m with
    missionStatus := status
    updatedAt := timeText now
    completed := status == .completed }
  if status = .completed then
    { value with completedAt := some (m.completedAt.getD (timeText now)), failure := none }
  else value

def transitionMission (m : Mission) (status : MissionStatus) (now : Instant)
    (recovery : Bool := false) : Except Err Mission :=
  if status ∈ m.missionStatus.transitions ∨
      recovery = true ∧ m.missionStatus = .blocked ∧ status = .running then
    .ok (sealMission F (moved m status now))
  else
    .error (.valueError
      ("invalid_mission_transition:" ++ m.missionStatus.text ++ ":" ++ status.text))

/-! ## Creating a mission -/

structure MissionConfig where
  missionExpiresAt : Option ℕ := none
  dependencyPolicy : Option String := none
  missionPath : Option String := none
  schedulerStatePath : Option String := none
deriving DecidableEq, Repr

/-- Thirty days. -/
def missionLifetime : ℕ := 30 * 24 * 3600

/-- What creating a mission overwrites in a goal of the plan. -/
def freshGoal (g : Goal) : Goal :=
  { g with
    sessionId := none, sessionPath := none, sessionFingerprint := none, attemptCount := 0
    failure := none }

/-- `{key: f(goal)}` -/
def mapGoals (f : Goal → Goal) (goals : Goals) : Goals where
  entries := goals.entries.map fun e => (e.1, f e.2)
  nodup := by
    have hkeys : (goals.entries.map fun e => (e.1, f e.2)).map Prod.fst =
        goals.entries.map Prod.fst := by
      rw [List.map_map]
      rfl
    rw [hkeys]
    exact goals.nodup

/-- The mission made of a graph, in its first status. -/
def newMission (missionId : String) (built : BuiltGraph) (config : MissionConfig)
    (now : Instant) : Mission where
  contract := missionContract
  missionId := missionId
  missionStatus := .created
  createdAt := timeText now
  updatedAt := timeText now
  expiresAt := config.missionExpiresAt.getD (timeText now + missionLifetime)
  missionPolicy := match config.dependencyPolicy with
    | some p => if p = "" then "block_dependents" else p
    | none => "block_dependents"
  goalGraph := built.graph
  goalOrder := built.goalOrder
  goals := mapGoals freshGoal built.goals

def createMissionContract (input : String) (plan : List GoalItem) (targetRoot workspaceRoot : Root)
    (config : MissionConfig) (now : Instant) : Except Err Mission :=
  match targetRoot, workspaceRoot with
  | some target, some workspace => do
    let missionId := deterministicMissionId F input target workspace
    let built ← buildGoalGraph F.toGoalDigest plan missionId false
    let m := sealMission F (newMission missionId built config now)
    let m ← transitionMission F m .planning now
    transitionMission F m .waitingForPlanConfirmation now
  | _, _ => .error .osError

/-- `validate_mission`, without roots. -/
def validateMission (m : Mission) : List String :=
  reasonIf (m.contract ≠ missionContract) "mission_migration_required" ++
  reasonIf (m.missionFingerprint ≠ F.mission (unsigned m)) "mission_fingerprint_mismatch" ++
  validateGoalGraph F.toGoalDigest m.goalGraph m.goals m.missionId

/-- `validate_mission` at a time. -/
def validateMissionAt (m : Mission) (now : Instant) : List String :=
  validateMission F m ++ reasonIf (reached now m.expiresAt) "mission_expired"

end Digest

end Missions
end ZeroRuntime
