import ZeroRuntime.Lib.Value

/-!
# ZeroRuntime.Goals.Lineage

Identity of a goal and of the session it runs in, read from a nested record
(`core/goals/goal_lineage_contract.py`).

* `sources`: the record and the mappings nested under the given keys, outermost first. The queue
  contract walks records the same way with a key list of its own.
* `extractRuntimeIdentity`, `extractGoalLineage`: the first non-blank value of each field. A field
  that is absent is the empty string here.
* `canonicalWorkIdentity`: what makes two records the same work.

`digest` stands for the hexadecimal SHA-256 of the canonical JSON text of a value.
-/

namespace ZeroRuntime
namespace Goals

open Lib

abbrev Entries := List (String × Val)

def nestedKeys : List String :=
  ["runtime_identity_graph", "goal_lineage", "runtime_identity", "lineage", "metadata", "payload",
   "task", "runtime_queue_item", "continuation_work_item", "replan_record", "replan_request",
   "next_runtime_request"]

def goalLineageFields : List String :=
  ["root_goal_id", "source_goal_id", "goal_id", "goal_lineage_id", "branch_type", "branch_id",
   "session_id", "runtime_session_id"]

def sessionIdentityFields : List String := ["session_id", "runtime_session_id", "source_session_id"]

mutual
/-- `_sources`: a mapping, then those nested in it under `keys`, depth first. -/
def sources (keys : List String) : Val → List Entries
  | .dict kvs =>
    let nested := entrySources keys kvs
    kvs :: keys.flatMap fun k => ((nested.find? fun e => e.1 == k).map Prod.snd).getD []
  | _ => []

def entrySources (keys : List String) : Entries → List (String × List Entries)
  | [] => []
  | (k, v) :: kvs => (k, sources keys v) :: entrySources keys kvs
end

theorem entrySources_find (keys : List String) (kvs : Entries) (k : String) :
    (((entrySources keys kvs).find? fun e => e.1 == k).map Prod.snd).getD [] =
      sources keys (Val.getIn k kvs) := by
  induction kvs with
  | nil => rfl
  | cons e kvs ih =>
    obtain ⟨k', v⟩ := e
    rw [entrySources, List.find?_cons]
    unfold Val.getIn Val.find
    by_cases hk : k = k'
    · subst hk
      simp
    · rw [if_neg hk, beq_eq_false_iff_ne.mpr (Ne.symm hk)]
      exact ih

/-- A record is read with what is nested in it. -/
theorem sources_eq_cons (keys : List String) (kvs : Entries) :
    sources keys (.dict kvs) = kvs :: keys.flatMap fun k => sources keys (Val.getIn k kvs) := by
  rw [sources, funext (entrySources_find keys kvs)]

def first (srcs : List Entries) (fields : List String) : String :=
  ((srcs.flatMap fun s => fields.map fun f => (Val.getIn f s).text).find? (· ≠ "")).getD ""

structure RuntimeIdentity where
  sessionId : String
  runtimeSessionId : String
  sourceSessionId : String
deriving DecidableEq

/-- The fields that occur with two different non-blank values. -/
def conflictingFields (srcs : List Entries) (fields : List String) : List String :=
  fields.filter fun f =>
    let found := (srcs.map fun s => (Val.getIn f s).text).filter (· ≠ "")
    1 < found.eraseDups.length

def extractRuntimeIdentity (rejectConflicts : Bool) (value : Val) : Except Err RuntimeIdentity :=
  let srcs := sources nestedKeys value
  let conflicts := conflictingFields srcs sessionIdentityFields
  if rejectConflicts && conflicts ≠ [] then
    .error (.valueError ("session_identity_conflicting_fields:" ++ ",".intercalate conflicts))
  else
    .ok { sessionId := first srcs ["session_id", "operator_session_id",
            "persistent_operator_session_id"]
          runtimeSessionId := first srcs ["runtime_session_id"]
          sourceSessionId := first srcs ["source_session_id"] }

structure GoalLineage where
  rootGoalId : String
  sourceGoalId : String
  goalId : String
  goalLineageId : String
  branchType : String
  branchId : String
  sessionId : String
  runtimeSessionId : String
deriving DecidableEq

/-- A record that is no mapping has no lineage. -/
def GoalLineage.blank : GoalLineage := ⟨"", "", "", "", "", "", "", ""⟩

section Digest

variable (digest : Val → String)

def buildGoalLineageId (rootGoalId sessionId runtimeSessionId : String) : String :=
  "goal-lineage-" ++ Text.take 20 (digest (.dict
    [("root_goal_id", .str rootGoalId), ("runtime_session_id", .str runtimeSessionId),
     ("session_id", .str sessionId)]))

/-- `a or b` on texts. -/
def orText (a b : String) : String := if a ≠ "" then a else b

def lineageOf (srcs : List Entries) : GoalLineage :=
  let goalId := first srcs ["goal_id", "child_goal_id"]
  let sourceGoalId := first srcs ["source_goal_id", "continuation_source_goal_id"]
  let rootGoalId := orText (first srcs ["root_goal_id"]) (orText sourceGoalId goalId)
  let sessionId := first srcs ["session_id", "operator_session_id",
    "persistent_operator_session_id"]
  let runtimeSessionId := first srcs ["runtime_session_id"]
  let continuationId := first srcs ["continuation_id", "continuation_task_id",
    "continuation_goal_id"]
  let replanId := first srcs ["replan_id", "replan_request_id"]
  let branchType := orText (first srcs ["branch_type"])
    (if continuationId ≠ "" then "continuation" else if replanId ≠ "" then "replan" else "root")
  let branchId := orText (first srcs ["branch_id"])
    (if branchType = "continuation" then continuationId
     else if branchType = "replan" then replanId else rootGoalId)
  let lineageId := orText (first srcs ["goal_lineage_id"])
    (if rootGoalId ≠ "" then buildGoalLineageId digest rootGoalId sessionId runtimeSessionId
     else "")
  { rootGoalId := rootGoalId
    sourceGoalId := orText sourceGoalId rootGoalId
    goalId := orText goalId (orText sourceGoalId rootGoalId)
    goalLineageId := lineageId
    branchType := branchType
    branchId := branchId
    sessionId := sessionId
    runtimeSessionId := runtimeSessionId }

/-- The mappings whose direct fields are checked for conflicts: the record and its `goal_lineage`. -/
def conflictSources (kvs : Entries) : List Entries :=
  match Val.getIn "goal_lineage" kvs with
  | .dict nested => [kvs, nested]
  | _ => [kvs]

def extractGoalLineage (rejectConflicts : Bool) : Val → Except Err GoalLineage
  | .dict kvs =>
    let conflicts := conflictingFields (conflictSources kvs) goalLineageFields
    if rejectConflicts && conflicts ≠ [] then
      .error (.valueError ("goal_lineage_conflicting_fields:" ++ ",".intercalate conflicts))
    else .ok (lineageOf digest (sources nestedKeys (.dict kvs)))
  | _ => .ok .blank

/-- `none` is the empty tuple: the record does not say which work it is. -/
def canonicalWorkIdentity : Val → Option (String × String × String × String × String)
  | .dict kvs =>
    let l := lineageOf digest (sources nestedKeys (.dict kvs))
    if l.goalLineageId = "" ∨ l.branchId = "" then none
    else some (l.goalLineageId, l.sessionId, l.runtimeSessionId, l.branchType, l.branchId)
  | _ => none

end Digest

end Goals
end ZeroRuntime
