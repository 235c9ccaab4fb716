import ZeroRuntime.Missions.Model

/-!
# ZeroRuntime.Missions.Replanner

Replanning a mission (`core/runtime/runtime_mission_replanner.py`): the request, the deterministic
replanner, the check of its output, staging it, and confirming it.

The memory and feedback of a request and its summaries of failure evidence are handed on and read
by nothing here.
-/

namespace ZeroRuntime
namespace Missions

open Lib Sessions

/-- `REQUEST_CONTRACT` -/
def replanningRequestContract : String := "zero.runtime.mission_replanning_request.v1"

/-- `OUTPUT_CONTRACT` -/
def replannerOutputContract : String := "zero.runtime.mission_replanner_output.v1"

/-- `FORBIDDEN` -/
def forbiddenRevisionFields : List String :=
  ["candidate_content", "patch_text", "diff", "shell_command", "command", "argv", "script",
    "callable", "executable_payload"]

/-- `value["goals"][key]` for every key, in order. -/
def goalsNamed (goals : Goals) : List String → Except Err (List (String × Goal))
  | [] => .ok []
  | id :: ids =>
    match goals.get? id with
    | none => .error .keyError
    | some g => do
      let rest ← goalsNamed goals ids
      .ok ((id, g) :: rest)

def isCritical (g : Goal) : Bool := (g.failure.map Failure.critical).getD false

/-- `x or y` -/
def orScope (xs ys : List String) : List String := if xs.isEmpty then ys else xs

/-- Seven days. -/
def replanningLifetime : ℕ := 7 * 24 * 3600

section Digest

variable (F : MissionDigest)

def sealRequest (r : ReplanningRequest) : ReplanningRequest :=
  { r with requestFingerprint := F.request { r with requestFingerprint := "" } }

def createReplanningRequest (m : Mission) (operatorInstruction : String)
    (allowedRevisionScope : List String) (now : Instant) : Except Err ReplanningRequest :=
  if m.missionStatus = .completed ∨ m.missionStatus = .cancelled ∨ m.missionStatus = .expired then
    .error (.valueError "mission_not_replannable")
  else if m.goals.values.any isCritical then .error (.valueError "critical_goal_replan_blocked")
  else if m.failedGoalIds.isEmpty && m.blockedGoalIds.isEmpty && isBlank operatorInstruction then
    .error (.valueError "replanning_trigger_required")
  else do
    let _ ← goalsNamed m.goals (m.failedGoalIds ++ m.blockedGoalIds)
    let completed ← goalsNamed m.goals m.completedGoalIds
    let submittedAt := timeText now
    let request : ReplanningRequest :=
      { contract := replanningRequestContract
        replanningRequestId := ""
        missionId := m.missionId
        currentMissionFingerprint := m.missionFingerprint
        currentGraphFingerprint := m.goalGraph.graphFingerprint
        failedGoalIds := m.failedGoalIds
        blockedGoalIds := m.blockedGoalIds
        completedGoalIds := m.completedGoalIds
        immutableCompletedGoals := completed
        operatorInstruction
        allowedRevisionScope := orScope allowedRevisionScope m.plannerOutputScope
        submittedAt
        expiresAt := submittedAt + replanningLifetime
        revisionNumber := m.replanningRevision + 1
        requestFingerprint := "" }
    let id := "replanning-request-" ++ Text.take 20 (F.request request)
    .ok (sealRequest F { request with replanningRequestId := id })

/-! ## The deterministic replanner -/

/-- The goals a request gives up. -/
def removedIds (r : ReplanningRequest) : List String :=
  sortedSet (r.failedGoalIds ++ r.blockedGoalIds)

def revisionId (id : String) (revision : ℕ) : String := id ++ "-revision-" ++ toString revision

/-- The replacement of a goal that is given up. -/
def replacement (removed : List String) (revision : ℕ) (id : String) (g : Goal) : RevisedGoal where
  replacesGoalId := id
  provisionalGoalId := revisionId id revision
  title := "Revised: " ++ g.goalTitle
  description := "Replan after sealed failure evidence: " ++ g.goalDescription
  goalType := g.goalType
  priority := g.priority
  dependsOn := g.dependsOn.filter fun d => d ∉ removed
  targetScope := g.targetScope
  requiredCapabilities := g.requiredCapabilities
  acceptanceCriteria := g.acceptanceCriteria
  validationRequirements := g.validationRequirements
  maxAttempts := g.maxAttempts

def sealOutput (o : ReplannerOutput) : ReplannerOutput :=
  { o with outputFingerprint := F.output { o with outputFingerprint := "" } }

def deterministicReplanner (r : ReplanningRequest) (m : Mission) : Except Err ReplannerOutput := do
  let removed := removedIds r
  let unchanged := m.goalOrder.filter fun id => id ∉ removed
  let sources ← goalsNamed m.goals removed
  let replacements := sources.map fun e => replacement removed r.revisionNumber e.1 e.2
  let output : ReplannerOutput :=
    { contract := replannerOutputContract
      replannerOutputId := ""
      replanningRequestId := r.replanningRequestId
      missionId := r.missionId
      revisionNumber := r.revisionNumber
      unchangedGoalIds := unchanged
      removedGoalIds := removed
      replacementGoals := replacements
      addedGoals := []
      revisedDependencies := replacements.map fun x => (x.provisionalGoalId, x.dependsOn)
      revisedGoalOrder := unchanged ++ replacements.map RevisedGoal.provisionalGoalId
      preservedCompletedGoals := sortedSet r.completedGoalIds
      scopeDelta := { added := [], removed := [] }
      riskDelta := ["Revised goals require operator confirmation and new Sessions"]
      generatedAt := r.submittedAt
      expiresAt := r.expiresAt
      outputFingerprint := "" }
  let id := "replanner-output-" ++ Text.take 20 (F.output output)
  .ok (sealOutput F { output with replannerOutputId := id })

/-! ## Checking, staging and confirming an output -/

def newGoals (o : ReplannerOutput) : List RevisedGoal := o.replacementGoals ++ o.addedGoals

/-- `s == a or s.startswith(a + "/")` -/
def inScope (s a : String) : Bool := s == a || Text.startsWith s (a ++ "/")

def scopeExpanded (allowed : List String) (g : RevisedGoal) : Bool :=
  !allowed.isEmpty && g.targetScope.any fun s => !allowed.any (inScope s)

/-- `validate_replanner_output`, at the time `now` or when the request was submitted. -/
def validateReplannerOutput (o : ReplannerOutput) (r : ReplanningRequest) (m : Mission)
    (now : Option Instant) : List String :=
  sortedSet <|
    reasonIf (o.contract ≠ replannerOutputContract) "invalid_replanner_output_contract" ++
    reasonIf (o.replanningRequestId ≠ r.replanningRequestId ∨ o.missionId ≠ m.missionId)
      "replanner_identity_mismatch" ++
    reasonIf (o.outputFingerprint ≠ F.output { o with outputFingerprint := "" })
      "replanner_output_fingerprint_mismatch" ++
    reasonIf (o.revisionNumber ≠ r.revisionNumber) "replanning_revision_mismatch" ++
    reasonIf (sortTexts o.preservedCompletedGoals ≠ sortTexts r.completedGoalIds)
      "completed_goals_not_preserved" ++
    reasonIf (∃ id ∈ r.completedGoalIds, id ∈ o.removedGoalIds) "completed_goal_removed" ++
    reasonIf (∃ g ∈ newGoals o, ∃ f ∈ g.extraFields, f ∈ forbiddenRevisionFields)
      "executable_replanner_goal_forbidden" ++
    reasonIf (∃ g ∈ newGoals o, scopeExpanded r.allowedRevisionScope g = true)
      "replan_scope_expansion" ++
    reasonIf (reached (now.getD (r.submittedAt * 1000000)) o.expiresAt) "replanner_output_expired"

def waitingForReplan : String := "waiting_for_replan_confirmation"

def stageReplan (m : Mission) (r : ReplanningRequest) (o : ReplannerOutput)
    (now : Option Instant) (clock : Instant) : Except Err Mission :=
  let reasons := validateReplannerOutput F o r m now
  if reasons ≠ [] then .error (.valueError (joined reasons))
  else
    let staged := { m with
      replanRequired := true
      replanningStatus := waitingForReplan
      replanningRevision := r.revisionNumber
      replanningHistory := m.replanningHistory ++
        [{ revisionNumber := r.revisionNumber
           oldGraphFingerprint := r.currentGraphFingerprint
           request := r, output := o, status := waitingForReplan }] }
    if m.missionStatus = .waitingForReplanConfirmation then .ok (sealMission F staged)
    else do
      let moved ← transitionMission F staged .waitingForReplanConfirmation (now.getD clock)
      .ok (sealMission F moved)

/-- The payload that confirms a replan; `none` for a key that is absent. -/
@[ext]
structure ReplanConfirmation where
  revisionNumber : Option ℕ := none
  oldGraphFingerprint : Option String := none
  unchangedGoalIds : Option (List String) := none
  completedGoalIds : Option (List String) := none
  removedGoalIds : Option (List String) := none
  addedGoalIds : Option (List String) := none
  scopeDelta : Option ScopeDelta := none
  riskDelta : Option (List String) := none
  operatorAcknowledgment : Bool := false
deriving DecidableEq, Repr

def matchingConfirmation (r : ReplanningRequest) (o : ReplannerOutput) : ReplanConfirmation where
  revisionNumber := o.revisionNumber
  oldGraphFingerprint := r.currentGraphFingerprint
  unchangedGoalIds := o.unchangedGoalIds
  completedGoalIds := r.completedGoalIds
  removedGoalIds := o.removedGoalIds
  addedGoalIds := o.addedGoals.map RevisedGoal.provisionalGoalId
  scopeDelta := o.scopeDelta
  riskDelta := o.riskDelta
  operatorAcknowledgment := true

/-- The first key of the payload that is not as expected. -/
def confirmationMismatch (r : ReplanningRequest) (o : ReplannerOutput) (p : ReplanConfirmation) :
    Option String :=
  let expected := matchingConfirmation r o
  if p.revisionNumber ≠ expected.revisionNumber then some "revision_number"
  else if p.oldGraphFingerprint ≠ expected.oldGraphFingerprint then some "old_graph_fingerprint"
  else if p.unchangedGoalIds ≠ expected.unchangedGoalIds then some "unchanged_goal_ids"
  else if p.completedGoalIds ≠ expected.completedGoalIds then some "completed_goal_ids"
  else if p.removedGoalIds ≠ expected.removedGoalIds then some "removed_goal_ids"
  else if p.addedGoalIds ≠ expected.addedGoalIds then some "added_goal_ids"
  else if p.scopeDelta ≠ expected.scopeDelta then some "scope_delta"
  else if p.riskDelta ≠ expected.riskDelta then some "risk_delta"
  else none

/-- The goals of `ids` that are there, as items of the new graph. -/
def keptItems (goals : Goals) (ids : List String) : List GoalItem :=
  ids.filterMap fun id => (goals.get? id).map fun g => g.toItem id

/-- A goal of an output as an item of the new graph. -/
def RevisedGoal.toItem (g : RevisedGoal) : GoalItem where
  goalId := g.provisionalGoalId
  goalTitle := g.title
  goalDescription := g.description
  goalType := g.goalType
  goalStatus := some .pending
  priority := g.priority
  dependsOn := g.dependsOn
  targetScope := g.targetScope
  requiredCapabilities := g.requiredCapabilities
  acceptanceCriteria := g.acceptanceCriteria
  validationRequirements := g.validationRequirements
  maxAttempts := g.maxAttempts

/-- What the new graph is built of. -/
def revisedItems (goals : Goals) (o : ReplannerOutput) : List GoalItem :=
  keptItems goals o.unchangedGoalIds ++ (newGoals o).map RevisedGoal.toItem

/-- `for key, goal in completed.items(): goals[key] = goal` -/
def putBack (completed : List (String × Goal)) (goals : Goals) : Goals :=
  completed.foldl (fun goals e => goals.set e.1 e.2) goals

def markLast (status : String) (history : List ReplanRecord) : List ReplanRecord :=
  match history.getLast? with
  | some last => history.dropLast ++ [{ last with status }]
  | none => []

def confirmReplan (m : Mission) (p : ReplanConfirmation) (now : Instant) : Except Err Mission :=
  if m.missionStatus ≠ .waitingForReplanConfirmation then
    .error (.valueError "wrong_replan_confirmation_phase")
  else
    match m.replanningHistory.getLast? with
    | none => .error .keyError
    | some current =>
      match confirmationMismatch current.request current.output p with
      | some key => .error (.valueError ("replan_confirmation_mismatch:" ++ key))
      | none =>
        if p.operatorAcknowledgment = false then
          .error (.valueError "operator_acknowledgment_required")
        else do
          let completed ← goalsNamed m.goals m.completedGoalIds
          let built ← buildGoalGraph F.toGoalDigest (revisedItems m.goals current.output)
            m.missionId true
          let value := { m with
            goals := putBack completed built.goals
            goalGraph := built.graph
            goalOrder := built.goalOrder
            immutableCompletedGoalIds := sortedSet (completed.map Prod.fst)
            replanRequired := false
            replanningStatus := "confirmed"
            replanningHistory := markLast "confirmed" m.replanningHistory }
          transitionMission F (sealMission F value) .running now

end Digest

end Missions
end ZeroRuntime
