import ZeroRuntime.Goals.Records
import ZeroRuntime.Goals.Transition
import ZeroRuntime.Lib.Dict
import ZeroRuntime.Lib.Machine

/-!
# ZeroRuntime.Goals.Repository

The repository of engineering goals: goals are saved once and updated after that, and every call
reads all records from the file and writes them all back
(`core/tasks/engineering_goal_repository.py`).

* `isAcceptedGoalCompletionResult` says which results of the completion authority count.
* The file lists its records; here each stands under the id of its goal, as it is read back.
* `Call` is one call, with its clock; `repository` takes one call after the other.
-/

namespace ZeroRuntime
namespace Goals

open Lib

/-! ## Attestations -/

def goalCompletionAuthorityOwner : String :=
  "core.goals.goal_completion_authority.GoalCompletionAuthority"

def goalCompletionResultSchema : String := "zero.goal_completion_authority.result.v1"

/-- `issued` says whether the authority keeps the result among those it has issued. -/
structure GoalCompletionResult where
  accepted : Bool
  goalId : String
  toState : String
  evidenceRefs : List EvidenceRef
  sessionId : String
  goalLineage : Val
  authorityOwner : String := goalCompletionAuthorityOwner
  schema : String := goalCompletionResultSchema
  issued : Bool

def GoalCompletionResult.completed (r : GoalCompletionResult) : Bool :=
  r.accepted && r.toState == "completed"

section Digest

variable (digest : Val → String) (textDigest nameDigest : String → String)

def lineageScopeMatches (left right : Val) : Bool :=
  match extractGoalLineage digest false left, extractGoalLineage digest false right with
  | .ok lhs, .ok rhs =>
    lhs.goalLineageId ≠ "" && lhs.goalLineageId == rhs.goalLineageId &&
      lhs.rootGoalId == rhs.rootGoalId && lhs.sessionId == rhs.sessionId &&
      lhs.runtimeSessionId == rhs.runtimeSessionId
  | _, _ => false

def isAcceptedGoalCompletionResult (value : Option GoalCompletionResult) (goalId : String)
    (sessionId goalLineage : Val) : Bool :=
  match value with
  | none => false
  | some r =>
    r.issued && r.schema == goalCompletionResultSchema &&
      r.authorityOwner == goalCompletionAuthorityOwner && r.accepted && r.completed &&
      r.toState == "completed" && !r.evidenceRefs.isEmpty && r.goalId == goalId &&
      r.sessionId == sessionId.toText && lineageScopeMatches digest r.goalLineage goalLineage

/-! ## The file -/

mutual
/-- `_normalize_persistence_value` comes to an end. -/
def persistable : Val → Bool
  | .other text _ _ => isNumeral text
  | .list xs => persistableItems xs
  | .dict kvs => persistableEntries kvs
  | _ => true

def persistableItems : List Val → Bool
  | [] => true
  | x :: xs => persistable x && persistableItems xs

def persistableEntries : List (String × Val) → Bool
  | [] => true
  | (_, x) :: kvs => persistable x && persistableEntries kvs
end

abbrev Records := Dict String Entries

/-- `EngineeringGoal.from_mapping(value).as_dict()`, with the goal. -/
def toRecord (clock : Clock) (value : Entries) : Except Err (EngineeringGoal × Entries) := do
  let g ← fromMapping digest textDigest clock value
  let record ← g.asDict digest
  .ok (g, record)

/-- One record of the file, with its index in the file. -/
def readRecord (clock : Clock) (records : Records) (e : Entries × ℕ) : Except Err Records :=
  match toRecord digest textDigest clock e.1 with
  | .ok (g, record) => .ok (records.set g.goalId record)
  | .error (.valueError message) =>
    .error (.valueError
      ("invalid_engineering_goal_record:" ++ toString e.2 ++ ":" ++ message))
  | .error err => .error err

def readRecords (clock : Clock) (file : Records) : Except Err Records :=
  file.entries.zipIdx.foldlM (fun records e => readRecord digest textDigest clock records (e.1.2, e.2))
    Dict.empty

/-- `_write_records`; the keys of every mapping are sorted. -/
def writeRecords (records : Records) : Except Err Records :=
  if records.values.all persistableEntries then .ok (records.mapValues Val.sortedEntries)
  else .error .typeError

/-! ## Saving -/

def safeGoalId (value : String) : String :=
  let safe := value.toList.filterMap fun c =>
    if c.isAlphanum ∨ c ∈ ['-', '_', '.'] then some c
    else if Text.isSpace c then some '_' else none
  let isEdge (c : Char) : Bool := c ∈ ['.', '_', '-']
  let cleaned := Text.lower (String.ofList ((safe.dropWhile isEdge).rdropWhile isEdge))
  orText (Text.take 80 cleaned) "goal"

def newGoalId (clock : Clock) (summary : String) (records : Records) : String :=
  let digest := Text.take 12 (nameDigest (summary ++ ":" ++ toString clock.nanoseconds))
  let base := "goal_" ++ Text.take 32 (safeGoalId summary) ++ "_" ++ digest
  if base ∉ records.keys then base
  else
    let suffixed := (List.range (records.keys.length + 1)).map fun n =>
      base ++ "_" ++ toString (n + 2)
    (suffixed.find? (· ∉ records.keys)).getD base

def coerceGoalInput (clock : Clock) (goal : Val) (records : Records) (fields : Entries) :
    Entries :=
  let raw :=
    match goal with
    | .dict kvs => kvs
    | _ => [("summary", .str (cleanText goal ""))]
  let raw := fields.foldl (fun raw e => Val.put e.1 e.2 raw) raw
  let get (k : String) : Val := Val.getIn k raw
  let summary := cleanText (firstTruthy [get "summary", get "goal",
    Val.getIn "goal" (asMapping (get "payload"))]) "Untitled engineering goal"
  let given := cleanText (firstTruthy [get "goal_id", get "task_id", get "package_id"]) ""
  let goalId := orText given (newGoalId nameDigest clock summary records)
  let raw := setDefault "goal_id" (.str goalId) raw
  let raw := setDefault "summary" (.str summary) raw
  let raw := setDefault "status" (.str "pending") raw
  let raw := setDefault "priority" (.int 0) raw
  let raw := setDefault "created_at" clock.seconds raw
  let raw := setDefault "updated_at" (Val.getIn "created_at" raw) raw
  Val.put "payload" (.dict (payloadDefaults summary goalId (asMapping (Val.getIn "payload" raw))))
    raw

def isCompleted (status : String) : Bool := status ∈ ["complete", "completed"]

def saveGoal (clock : Clock) (goal : Val) (fields : Entries)
    (attestation : Option GoalCompletionResult) (file : Records) :
    Except Err Records := do
  let records ← readRecords digest textDigest clock file
  let raw := coerceGoalInput nameDigest clock goal records fields
  let (g, record) ← toRecord digest textDigest clock raw
  if isCompleted g.status && !isAcceptedGoalCompletionResult digest attestation g.goalId
      (Val.getIn "session_id" record) (Val.getIn "goal_lineage" record) then
    .error (.valueError "canonical_completion_attestation_required")
  else if records.contains g.goalId then
    .error (.valueError ("engineering_goal_already_exists:" ++ g.goalId))
  else writeRecords (records.set g.goalId record)

/-! ## Updating -/

def updateAction (status : String) : String :=
  if status = "planned" then "plan"
  else if status = "active" then "start"
  else if status = "blocked" then "block"
  else if status = "resumable" then "resume_ready"
  else if status = "failed" then "fail"
  else status

def updateTransition (goalId status target : String) (existing updates : Entries) :
    Except Err GoalTransition := do
  let refs ← Val.iterate (firstTruthy [Val.getIn "evidence_refs" updates,
    Val.getIn "evidence_refs" existing, .list []])
  GoalTransition.make .goal (.str goalId) (.str (if status = "pending" then "active" else status))
    (.str target) (.str (updateAction target))
    (.str (cleanText (firstTruthy [Val.getIn "reason" updates,
      Val.getIn "blocked_reason" updates]) "engineering_goal_status_update"))
    (Val.getIn "resume_point" updates) (refs.map .value)

def checkTransition (goalId status target : String) (existing updates : Entries) :
    Except Err Unit :=
  if target ≠ "" ∧ ¬isCompleted target ∧ target ≠ status then do
    let t ← updateTransition goalId status target existing updates
    let result := transition t none false
    if result.accepted then .ok ()
    else .error (.valueError (result.reason ++ ":" ++ result.blockedReason.getD "None"))
  else .ok ()

/-- One entry of the updates is merged into a record. -/
def mergeEntry (merged : Entries) (e : String × Val) : Entries :=
  if e.1 ∈ ["schema", "goal_id", "created_at"] then merged
  else
    match e.2 with
    | .dict kvs =>
      if e.1 ∈ ["payload", "metadata"] then
        Val.put e.1 (.dict (kvs.foldl (fun old f => Val.put f.1 f.2 old)
          (asMapping (Val.getIn e.1 merged)))) merged
      else Val.put e.1 e.2 merged
    | value => Val.put e.1 value merged

def mergeUpdates (existing updates : Entries) : Entries := updates.foldl mergeEntry existing

/-- The record with the updates, before it is read again. -/
def mergedRecord (clock : Clock) (existing : Entries) (updates : Dict String Val) : Entries :=
  Val.put "updated_at" clock.seconds (mergeUpdates existing updates.entries)

/-- `update_goal`; no updates are given if they are not a mapping. -/
def updateGoal (clock : Clock) (goalId : Val) (updates : Option (Dict String Val))
    (attestation : Option GoalCompletionResult) (file : Records) : Except Err Records := do
  let targetGoalId := cleanText goalId ""
  if targetGoalId = "" then .error (.valueError "engineering_goal_update_requires_goal_id")
  else
    match updates with
    | none => .error (.valueError "engineering_goal_updates_must_be_mapping")
    | some updates =>
      let records ← readRecords digest textDigest clock file
      match records.get? targetGoalId with
      | none => .error .keyError
      | some existing =>
        let targetStatus := lowered (Val.getIn "status" updates.entries)
        let status := (Val.getIn "status" existing).toText
        if isCompleted targetStatus && !isAcceptedGoalCompletionResult digest attestation
            targetGoalId (Val.getIn "session_id" existing)
            (Val.getIn "goal_lineage" existing) then
          .error (.valueError "canonical_completion_attestation_required")
        else
          checkTransition targetGoalId status targetStatus existing updates.entries
          let (_, record) ← toRecord digest textDigest clock (mergedRecord clock existing updates)
          writeRecords (records.set targetGoalId record)

/-! ## Runs -/

inductive Call where
  | save (clock : Clock) (goal : Val) (fields : Entries)
      (attestation : Option GoalCompletionResult)
  | update (clock : Clock) (goalId : Val) (updates : Option (Dict String Val))
      (attestation : Option GoalCompletionResult)

def Call.attestation : Call → Option GoalCompletionResult
  | .save _ _ _ attestation => attestation
  | .update _ _ _ attestation => attestation

def Call.result (file : Records) : Call → Except Err Records
  | .save clock goal fields attestation =>
    saveGoal digest textDigest nameDigest clock goal fields attestation file
  | .update clock goalId updates attestation =>
    updateGoal digest textDigest clock goalId updates attestation file

/-- The repository takes calls; one that raises leaves the file as it is. -/
def repository : Machine Records Call (Except Err Unit) where
  step file c :=
    match c.result digest textDigest nameDigest file with
    | .ok file => (.ok (), file)
    | .error e => (.error e, file)

end Digest

end Goals
end ZeroRuntime
