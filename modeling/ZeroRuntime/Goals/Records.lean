import Mathlib.Algebra.GroupWithZero.Nat
import ZeroRuntime.Goals.Lineage
import ZeroRuntime.Lib.Written

/-!
# ZeroRuntime.Goals.Records

Records of engineering goals: how a goal is read from a mapping, and the mapping it is stored as
(`core/tasks/engineering_goal_repository.py`).

* A float is kept as the value it was read from: an integer or a boolean is itself, a text is one
  that Python can read as a float.
* `digest` and `textDigest` stand for the hexadecimal SHA-256 of a value's canonical JSON text, and
  of a text.
-/

namespace ZeroRuntime
namespace Goals

open Lib

/-! ## Numbers -/

def isDigits (cs : List Char) : Bool := !cs.isEmpty && cs.all Char.isDigit

/-- Digits, with single underscores between them. -/
def isDigitGroups (cs : List Char) : Bool := (Text.splitChars '_' cs).all isDigits

def dropSign : List Char → List Char
  | '+' :: cs => cs
  | '-' :: cs => cs
  | cs => cs

/-- `12`, `12.`, `.5` or `12.5` -/
def isDecimal (cs : List Char) : Bool :=
  match Text.splitChars '.' cs with
  | [whole] => isDigitGroups whole
  | [whole, fraction] =>
    (whole ≠ [] || fraction ≠ []) && (whole = [] || isDigitGroups whole) &&
      (fraction = [] || isDigitGroups fraction)
  | _ => false

/-- What `float` can read. -/
def isNumeral (s : String) : Bool :=
  let cs := dropSign ((Text.strip s).toList.map Char.toLower)
  if cs ∈ ["inf".toList, "infinity".toList, "nan".toList] then true
  else
    match Text.splitChars 'e' cs with
    | [mantissa] => isDecimal mantissa
    | [mantissa, exponent] => isDecimal mantissa && isDigitGroups (dropSign exponent)
    | _ => false

/-- Integers from here on are too large for a float: `2 ^ 1024 - 2 ^ 970`. -/
def floatBound : ℕ := (2 ^ 128) ^ 8 - (2 ^ 97) ^ 10

/-- `_as_float`; an integer that is too large is not caught. -/
def asFloat (value default : Val) : Except Err Val :=
  match value with
  | .bool b => .ok (.bool b)
  | .int n => if floatBound ≤ n.natAbs then .error (.raised "int too large to convert to float")
    else .ok (.int n)
  | .str s => .ok (if isNumeral s then .other (Text.strip s) true true else default)
  | .other text truth hashable =>
    .ok (if isNumeral text then .other text truth hashable else default)
  | _ => .ok default

/-- A value that is the same when it is read as a float again. -/
def IsFloat (x : Val) : Prop := ∀ default, asFloat x default = .ok x

/-- A clock reading: `time.time()` and `time.time_ns()`. -/
structure Clock where
  seconds : Val
  isFloat : IsFloat seconds
  nanoseconds : ℕ

/-! ## Lineage -/

def goalLineageSchema : String := "zero.goal_lineage.v1"

def invalidIdentityValues : List String := ["unknown", "default", "legacy", "runtime", "system"]

def GoalLineage.fields (l : GoalLineage) : List (String × String) :=
  [("root_goal_id", l.rootGoalId), ("source_goal_id", l.sourceGoalId), ("goal_id", l.goalId),
    ("goal_lineage_id", l.goalLineageId), ("branch_type", l.branchType), ("branch_id", l.branchId),
    ("session_id", l.sessionId), ("runtime_session_id", l.runtimeSessionId)]

def GoalLineage.mapping (l : GoalLineage) : Entries :=
  ("schema", .str goalLineageSchema) :: l.fields.map fun e => (e.1, .str e.2)

/-- `extract_goal_lineage` with `require_complete`. -/
def requireComplete (l : GoalLineage) : Except Err GoalLineage :=
  let missing := (l.fields.filter fun e => e.2 = "").map Prod.fst
  if missing = [] then .ok l
  else .error (.valueError ("goal_lineage_missing_fields:" ++ ",".intercalate missing))

def requiredIdentity (field : String) (value : Val) : Except Err String :=
  if value.text = "" ∨ Text.lower value.text ∈ invalidIdentityValues then
    .error (.valueError ("invalid_runtime_identity:" ++ field))
  else .ok value.text

section Digest

variable (digest : Val → String) (textDigest : String → String)

def createRootGoalLineage (goalId : String) : Except Err GoalLineage := do
  let goal ← requiredIdentity "goal_id" (.str goalId)
  let seed := Text.take 16 (textDigest goal)
  let session ← requiredIdentity "session_id" (.str ("goal-session:" ++ seed))
  let runtimeSession ← requiredIdentity "runtime_session_id" (.str ("runtime-session:" ++ seed))
  .ok
    { rootGoalId := goal
      sourceGoalId := goal
      goalId := goal
      goalLineageId := buildGoalLineageId digest goal session runtimeSession
      branchType := "root"
      branchId := goal
      sessionId := session
      runtimeSessionId := runtimeSession }

/-- `canonical_runtime_identity_graph` of a complete lineage, which names no execution, capability or
evidence. -/
def canonicalRuntimeIdentityGraph (l : GoalLineage) : Except Err GoalLineage := do
  let graph ← extractGoalLineage digest true (.dict l.mapping)
  let rootGoalId ← requiredIdentity "root_goal_id" (.str graph.rootGoalId)
  let sourceGoalId ← requiredIdentity "source_goal_id" (.str graph.sourceGoalId)
  let goalId ← requiredIdentity "goal_id" (.str graph.goalId)
  let goalLineageId ← requiredIdentity "goal_lineage_id" (.str graph.goalLineageId)
  let branchType ← requiredIdentity "branch_type" (.str graph.branchType)
  let branchId ← requiredIdentity "branch_id" (.str graph.branchId)
  let sessionId ← requiredIdentity "session_id" (.str graph.sessionId)
  let runtimeSessionId ← requiredIdentity "runtime_session_id" (.str graph.runtimeSessionId)
  .ok
    { rootGoalId, sourceGoalId, goalId, goalLineageId, branchType, branchId, sessionId
      runtimeSessionId }

/-- The mappings whose fields must agree with the lineage. -/
def embeddedCandidates (value : Entries) : List Entries :=
  value :: ["goal_lineage", "metadata", "payload"].flatMap fun k =>
    match Val.getIn k value with
    | .dict container =>
      match Val.getIn "goal_lineage" container with
      | .dict nested => [container, nested]
      | _ => [container]
    | _ => []

/-- One field of one mapping against the lineage. -/
def checkEmbedded (candidate : Entries) (e : String × String) : Except Err Unit :=
  match Val.getIn e.1 candidate with
  | .none => .ok ()
  | raw =>
    let text := Text.strip raw.toText
    if text = "" then .ok ()
    else if Text.lower text ∈ invalidIdentityValues then
      .error (.valueError ("invalid_runtime_identity_value:" ++ e.1))
    else if text ≠ e.2 then .error (.valueError ("engineering_goal_lineage_conflict:" ++ e.1))
    else .ok ()

def assertEmbeddedLineageConsistency (value : Entries) (l : GoalLineage) : Except Err Unit :=
  (embeddedCandidates value).forM fun candidate => l.fields.forM (checkEmbedded candidate)

/-- A lineage is given if `goal_lineage` is a mapping, or any field besides the goal's id is set. -/
def explicitLineage (value : Entries) : Bool :=
  (Val.getIn "goal_lineage" value).isDict ||
    (goalLineageFields.filter (· ≠ "goal_id")).any fun f => (Val.getIn f value).truthy

/-- The lineage that `from_mapping` reads. -/
def readLineage (value : Entries) (goalId : String) : Except Err GoalLineage :=
  if explicitLineage value then do
    let l ← extractGoalLineage digest true (.dict value)
    let l ← requireComplete l
    let l ← canonicalRuntimeIdentityGraph digest l
    if l.goalId ≠ goalId then .error (.valueError "engineering_goal_lineage_goal_id_conflict")
    else .ok l
  else createRootGoalLineage digest textDigest goalId

/-! ## Goals -/

def engineeringGoalRecordSchema : String := "zero.engineering_goal_record.v1"

structure EngineeringGoal where
  goalId : String
  summary : String
  status : String
  priority : Val
  createdAt : Val
  updatedAt : Val
  description : String
  payload : Entries
  metadata : Entries
  goalLineage : GoalLineage

def cleanText (value : Val) (default : String) : String := orText value.text default

def asMapping : Val → Entries
  | .dict kvs => kvs
  | _ => []

/-- `a or b or …` -/
def firstTruthy : List Val → Val
  | [] => .none
  | [x] => x
  | x :: xs => x.orElse (firstTruthy xs)

def fromMapping (clock : Clock) (value : Entries) : Except Err EngineeringGoal := do
  let get (k : String) : Val := Val.getIn k value
  let goalId := cleanText (firstTruthy [get "goal_id", get "task_id", get "package_id"]) ""
  let payload := asMapping (get "payload")
  let summary := cleanText (firstTruthy [get "summary", get "goal", Val.getIn "goal" payload,
    Val.getIn "summary" payload]) goalId
  if goalId = "" then .error (.valueError "engineering_goal_requires_goal_id")
  else if summary = "" then .error (.valueError "engineering_goal_requires_summary")
  else
    let goalLineage ← readLineage digest textDigest value goalId
    assertEmbeddedLineageConsistency value goalLineage
    let priority ← asFloat (get "priority") (.int 0)
    let createdAt ← asFloat (get "created_at") clock.seconds
    let updatedAt ← asFloat (get "updated_at") clock.seconds
    .ok
      { goalId
        summary
        status := Text.lower (cleanText (get "status") "pending")
        priority
        createdAt
        updatedAt
        description := cleanText (get "description") ""
        payload
        metadata := asMapping (get "metadata")
        goalLineage }

/-- `d.setdefault(k, v)` -/
def setDefault (k : String) (v : Val) (kvs : Entries) : Entries :=
  if Val.hasKey k kvs then kvs else Val.put k v kvs

def attachGoalLineage (target : Entries) (l : GoalLineage) : Except Err Entries := do
  let canonical ← extractGoalLineage digest false (.dict l.mapping)
  let canonical ← requireComplete canonical
  .ok (canonical.fields.foldl (fun result e => Val.put e.1 (.str e.2) result)
    (Val.put "goal_lineage" (.dict canonical.mapping) target))

def payloadDefaults (summary goalId : String) (payload : Entries) : Entries :=
  setDefault "task_type" (.str "engineering_task")
    (setDefault "package_id" (.str goalId)
      (setDefault "task_id" (.str goalId)
        (setDefault "goal_id" (.str goalId) (setDefault "goal" (.str summary) payload))))

def EngineeringGoal.asDict (g : EngineeringGoal) : Except Err Entries :=
  attachGoalLineage digest
    [("schema", .str engineeringGoalRecordSchema), ("goal_id", .str g.goalId),
      ("summary", .str g.summary), ("status", .str g.status), ("priority", g.priority),
      ("created_at", g.createdAt), ("updated_at", g.updatedAt),
      ("description", .str g.description),
      ("payload", .dict (payloadDefaults g.summary g.goalId g.payload)),
      ("metadata", .dict g.metadata)]
    g.goalLineage

end Digest

end Goals
end ZeroRuntime
