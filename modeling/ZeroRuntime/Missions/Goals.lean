import ZeroRuntime.Lib.Dict
import ZeroRuntime.Lib.Layers
import ZeroRuntime.Lib.Reasons
import ZeroRuntime.Lib.Sorted
import ZeroRuntime.Sessions.Operator

/-!
# ZeroRuntime.Missions.Goals

The goal graph of a mission (`core/runtime/runtime_goal_graph.py`): building it from a plan,
validating it, the goals that are ready, and what a failed goal does to those that depend on it.

* The id of a goal is its key in the mapping of goals, so no goal disagrees with its key.
* A `GoalItem` is a goal as a plan writes it: what is left out is filled in by `normalizeItem`.
* `GoalDigest` stands for `fingerprint` on the values it is taken of here.
-/

namespace ZeroRuntime
namespace Missions

open Lib Sessions

/-! ## Goals -/

/-- `GOAL_STATUSES` -/
inductive GoalStatus where
  | pending | ready | waitingForOperator | running | completed | failed | blocked | cancelled
deriving DecidableEq, Repr

structure Goal where
  missionId : String
  goalTitle : String
  goalDescription : String
  goalType : String
  goalStatus : GoalStatus
  priority : ℤ
  dependsOn : List String
  requiredCapabilities : List String
  targetScope : List String
  acceptanceCriteria : List String
  validationRequirements : List String
  extraFields : List String := []
  sessionId : Option String := none
  sessionPath : Option String := none
  sessionFingerprint : Option String := none
  attemptCount : ℕ := 0
  maxAttempts : ℤ
  failure : Option Failure := none
deriving DecidableEq, Repr

abbrev Goals := Dict String Goal

/-- What `semantic_goal_fingerprint` is taken of; `none` for a field that is absent. -/
structure Semantic where
  goalTitle : Option String
  goalDescription : Option String
  goalType : Option String
  dependsOn : Option (List String)
  requiredCapabilities : Option (List String)
  targetScope : Option (List String)
  acceptanceCriteria : Option (List String)
  validationRequirements : Option (List String)
deriving DecidableEq, Repr

structure GoalGraph where
  contract : String
  missionId : String
  goalIds : List String
  goalOrder : List String
  dependencies : List (String × List String)
  confirmed : Bool
  graphFingerprint : String
deriving DecidableEq, Repr

structure GoalDigest where
  semantic : Semantic → String
  goalSeed : String × ℕ × String → String
  graph : GoalGraph → String

/-- A goal as a plan gives it. -/
structure GoalItem where
  goalId : Option String := none
  missionId : Option String := none
  goalTitle : Option String := none
  title : Option String := none
  goalDescription : Option String := none
  description : Option String := none
  goalType : Option String := none
  goalStatus : Option GoalStatus := none
  priority : Option ℤ := none
  dependsOn : Option (List String) := none
  requiredCapabilities : Option (List String) := none
  targetScope : Option (List String) := none
  acceptanceCriteria : Option (List String) := none
  validationRequirements : Option (List String) := none
  extraFields : List String := []
  sessionId : Option String := none
  sessionPath : Option String := none
  sessionFingerprint : Option String := none
  attemptCount : ℕ := 0
  maxAttempts : Option ℤ := none
  failure : Option Failure := none
deriving DecidableEq, Repr

/-- A goal that is in a graph already, as an item of another plan. -/
def Goal.toItem (id : String) (g : Goal) : GoalItem where
  goalId := id
  missionId := g.missionId
  goalTitle := g.goalTitle
  goalDescription := g.goalDescription
  goalType := g.goalType
  goalStatus := g.goalStatus
  priority := g.priority
  dependsOn := g.dependsOn
  requiredCapabilities := g.requiredCapabilities
  targetScope := g.targetScope
  acceptanceCriteria := g.acceptanceCriteria
  validationRequirements := g.validationRequirements
  extraFields := g.extraFields
  sessionId := g.sessionId
  sessionPath := g.sessionPath
  sessionFingerprint := g.sessionFingerprint
  attemptCount := g.attemptCount
  maxAttempts := g.maxAttempts
  failure := g.failure

/-! ## Validation -/

/-- `CONTRACT` -/
def goalGraphContract : String := "zero.runtime.goal_graph.v1"

def goalTypes : List String := ["inspect", "modify", "validate", "document", "composite"]

def maxGoals : ℕ := 100

def maxDependencies : ℕ := 20

def maxDescriptionLength : ℕ := 8000

def maxAcceptanceCriteria : ℕ := 50

def forbiddenFields : List String :=
  ["command", "commands", "shell", "argv", "callable", "python_callable", "subprocess"]

/-- `reason` when the condition holds. -/
def reasonIf (b : Prop) [Decidable b] (reason : String) : List String := if b then [reason] else []

/-- `not str(s).strip()` -/
def isBlank (s : String) : Bool := Text.strip s == ""

def validateGoal (missionId goalId : String) (g : Goal) : List String :=
  reasonIf (isBlank goalId) "missing_goal_id" ++
  reasonIf (g.missionId ≠ missionId) "cross_mission_goal" ++
  reasonIf (g.goalType ∉ goalTypes) "invalid_goal_type" ++
  reasonIf (isBlank g.goalDescription) "empty_goal_description" ++
  reasonIf (maxDescriptionLength < g.goalDescription.toList.length) "goal_description_too_long" ++
  reasonIf (g.priority < -100 ∨ 100 < g.priority) "invalid_priority" ++
  reasonIf (maxDependencies < g.dependsOn.length) "dependency_limit_exceeded" ++
  reasonIf (maxAcceptanceCriteria < g.acceptanceCriteria.length)
    "acceptance_criteria_limit_exceeded" ++
  reasonIf (g.extraFields.any fun f => forbiddenFields.contains f)
    "executable_goal_fields_forbidden"

/-- `";".join(reasons)` -/
def joined (reasons : List String) : String := ";".intercalate reasons

/-! ## The order of goals -/

/-- `(-priority, key)`, as the order of keys. -/
def OrderLe (prio : String → ℤ) (a b : String) : Prop :=
  prio b < prio a ∨ prio a = prio b ∧ TextLe a b

instance (prio : String → ℤ) : DecidableRel (OrderLe prio) := fun a b =>
  inferInstanceAs (Decidable (prio b < prio a ∨ prio a = prio b ∧ TextLe a b))

def arrange (prio : String → ℤ) (ids : List String) : List String :=
  ids.insertionSort (OrderLe prio)

def priorityIn (goals : Goals) (id : String) : ℤ := ((goals.get? id).map Goal.priority).getD 0

def waits (goals : Goals) : Layers.Waits String :=
  goals.entries.map fun e => (e.1, e.2.dependsOn)

def stableTopologicalOrder (goals : Goals) : Except Err (List String) :=
  match Layers.layers (arrange (priorityIn goals)) goals.entries.length (waits goals) with
  | some order => .ok order
  | none => .error (.valueError "goal_graph_cycle")

/-! ## Building a graph -/

section Digest

variable (F : GoalDigest)

def GoalItem.semantic (i : GoalItem) : Semantic where
  goalTitle := i.goalTitle
  goalDescription := i.goalDescription
  goalType := i.goalType
  dependsOn := i.dependsOn
  requiredCapabilities := i.requiredCapabilities
  targetScope := i.targetScope
  acceptanceCriteria := i.acceptanceCriteria
  validationRequirements := i.validationRequirements

def Goal.semantic (g : Goal) : Semantic where
  goalTitle := g.goalTitle
  goalDescription := g.goalDescription
  goalType := g.goalType
  dependsOn := g.dependsOn
  requiredCapabilities := g.requiredCapabilities
  targetScope := g.targetScope
  acceptanceCriteria := g.acceptanceCriteria
  validationRequirements := g.validationRequirements

def deterministicGoalId (missionId : String) (i : GoalItem) (index : ℕ) : String :=
  "goal-" ++ Text.take 20 (F.goalSeed (missionId, index, F.semantic i.semantic))

def orTitle (title : Option String) (index : ℕ) : String :=
  match title with
  | some t => if t = "" then "Goal " ++ toString (index + 1) else t
  | none => "Goal " ++ toString (index + 1)

/-- An item with all that was left out filled in, and its id. -/
def normalizeItem (missionId : String) (index : ℕ) (i : GoalItem) : String × Goal :=
  (i.goalId.getD (deterministicGoalId F missionId i index),
    { missionId := i.missionId.getD missionId
      goalTitle := i.goalTitle.getD (orTitle i.title index)
      goalDescription := i.goalDescription.getD (i.description.getD "")
      goalType := i.goalType.getD "composite"
      goalStatus := i.goalStatus.getD .pending
      priority := i.priority.getD 0
      dependsOn := i.dependsOn.getD []
      requiredCapabilities := i.requiredCapabilities.getD []
      targetScope := i.targetScope.getD []
      acceptanceCriteria := i.acceptanceCriteria.getD []
      validationRequirements := i.validationRequirements.getD []
      extraFields := i.extraFields
      sessionId := i.sessionId
      sessionPath := i.sessionPath
      sessionFingerprint := i.sessionFingerprint
      attemptCount := i.attemptCount
      maxAttempts := i.maxAttempts.getD 3
      failure := i.failure })

def normalizeFrom (missionId : String) : ℕ → List GoalItem → List (String × Goal)
  | _, [] => []
  | index, i :: items =>
    normalizeItem F missionId index i :: normalizeFrom missionId (index + 1) items

/-- The loop over the normalized items. -/
def addGoals (missionId : String) :
    List (String × Goal) → Goals × List String → Except Err (Goals × List String)
  | [], acc => .ok acc
  | (id, g) :: items, (goals, semantics) =>
    let reasons := validateGoal missionId id g
    let semantic := F.semantic g.semantic
    if goals.contains id then .error (.valueError "duplicate_goal_id")
    else if reasons ≠ [] then .error (.valueError (joined reasons))
    else if semantic ∈ semantics then .error (.valueError "duplicate_semantic_goal")
    else addGoals missionId items (goals.set id g, semantics ++ [semantic])

def checkDependencies (goals : Goals) (id : String) : List String → Except Err Unit
  | [] => .ok ()
  | d :: ds =>
    if d = id then .error (.valueError "self_dependency")
    else if !goals.contains d then .error (.valueError "missing_dependency")
    else checkDependencies goals id ds

def checkAllDependencies (goals : Goals) : List (String × Goal) → Except Err Unit
  | [] => .ok ()
  | (id, g) :: es => do
    checkDependencies goals id g.dependsOn
    checkAllDependencies goals es

structure BuiltGraph where
  graph : GoalGraph
  goals : Goals
  goalOrder : List String

def dependenciesOf (goals : Goals) : List (String × List String) :=
  (sortTexts goals.keys).map fun id =>
    (id, ((goals.get? id).map Goal.dependsOn).getD [])

def sealGraph (g : GoalGraph) : GoalGraph :=
  { g with graphFingerprint := F.graph { g with graphFingerprint := "" } }

def buildGoalGraph (items : List GoalItem) (missionId : String) (confirmed : Bool) :
    Except Err BuiltGraph :=
  if items.isEmpty then .error (.valueError "empty_goal_graph")
  else if maxGoals < items.length then .error (.valueError "goal_limit_exceeded")
  else do
    let (goals, _) ← addGoals F missionId (normalizeFrom F missionId 0 items) (Dict.empty, [])
    checkAllDependencies goals goals.entries
    let goalOrder ← stableTopologicalOrder goals
    let graph := sealGraph F
      { contract := goalGraphContract, missionId, goalIds := sortTexts goals.keys, goalOrder
        dependencies := dependenciesOf goals, confirmed, graphFingerprint := "" }
    .ok { graph, goals, goalOrder }

def validateGoalGraph (graph : GoalGraph) (goals : Goals) (missionId : String) : List String :=
  reasonIf (graph.contract ≠ goalGraphContract) "invalid_goal_graph_contract" ++
  reasonIf (graph.graphFingerprint ≠ F.graph { graph with graphFingerprint := "" })
    "graph_fingerprint_mismatch" ++
  (match stableTopologicalOrder goals with
    | .ok order => reasonIf (order ≠ graph.goalOrder) "goal_order_mismatch"
    | .error _ => ["goal_graph_cycle"]) ++
  goals.entries.flatMap fun e => validateGoal missionId e.1 e.2

end Digest

/-! ## Ready and blocked goals -/

def statusIn (goals : Goals) (id : String) : Option GoalStatus :=
  (goals.get? id).map Goal.goalStatus

def isWaiting : GoalStatus → Bool
  | .pending | .ready => true
  | _ => false

def isLost : GoalStatus → Bool
  | .failed | .blocked | .cancelled => true
  | _ => false

def isReady (goals : Goals) (g : Goal) : Bool :=
  isWaiting g.goalStatus && g.dependsOn.all fun d => statusIn goals d == some .completed

def readyGoalIds (goals : Goals) : Except Err (List String) := do
  let order ← stableTopologicalOrder goals
  .ok (order.filter fun id => ((goals.get? id).map fun g => isReady goals g).getD false)

/-- The failure of a goal that cannot be reached any more. -/
def dependencyFailure : Failure := { reasons := ["dependency_not_completed"] }

def mustBlock (goals : Goals) (g : Goal) : Bool :=
  isWaiting g.goalStatus && g.dependsOn.any fun d => ((statusIn goals d).map isLost).getD false

def blockGoal (g : Goal) : Goal :=
  { g with goalStatus := .blocked, failure := some dependencyFailure }

/-- One pass over the goals: each sees what the pass did to those before it. -/
def propagatePass : List String → Goals → Goals
  | [], goals => goals
  | id :: ids, goals =>
    propagatePass ids <|
      match goals.get? id with
      | some g => if mustBlock goals g then goals.set id (blockGoal g) else goals
      | none => goals

/-- Passes until one changes nothing: a pass that changes something blocks a goal. -/
def propagatePasses : ℕ → Goals → Goals
  | 0, goals => goals
  | n + 1, goals => propagatePasses n (propagatePass goals.keys goals)

def dependencyPolicies : List String := ["block_dependents", "continue_independent"]

def propagateDependencyStates (goals : Goals) (policy : String) : Except Err Goals :=
  if dependencyPolicies.contains policy then .ok (propagatePasses goals.entries.length goals)
  else .error (.valueError "invalid_dependency_policy")

/-! ## Valid goals -/

theorem isBlank_of_mem {s : String} {c : Char} (hc : c ∈ s.toList)
    (hspace : Text.isSpace c = false) : isBlank s = false := by
  unfold isBlank
  rw [beq_eq_false_iff_ne]
  intro h
  have hnil : Text.stripChars s.toList = [] := by
    have hlist := congrArg String.toList h
    unfold Text.strip at hlist
    rwa [String.toList_ofList] at hlist
  rw [Text.stripChars_eq, List.rdropWhile_eq_nil_iff] at hnil
  have hall : s.toList.dropWhile Text.isSpace = [] := by
    by_contra hne
    have hpos := List.length_pos_iff.mpr hne
    have hhead := List.dropWhile_get_zero_not Text.isSpace s.toList hpos
    exact hhead (hnil _ (List.get_mem _ _))
  have hspaces := List.dropWhile_eq_nil_iff.mp hall c hc
  rw [hspace] at hspaces
  cases hspaces

theorem reasonIf_eq_nil {b : Prop} [Decidable b] {reason : String} :
    reasonIf b reason = [] ↔ ¬b := found_eq_nil

theorem validateGoal_eq_nil {missionId id : String} {g : Goal} :
    validateGoal missionId id g = [] ↔
      isBlank id = false ∧ g.missionId = missionId ∧ g.goalType ∈ goalTypes ∧
        isBlank g.goalDescription = false ∧
        g.goalDescription.toList.length ≤ maxDescriptionLength ∧
        (-100 ≤ g.priority ∧ g.priority ≤ 100) ∧ g.dependsOn.length ≤ maxDependencies ∧
        g.acceptanceCriteria.length ≤ maxAcceptanceCriteria ∧
        (g.extraFields.any fun f => forbiddenFields.contains f) = false := by
  unfold validateGoal
  simp only [List.append_eq_nil_iff, reasonIf_eq_nil, Bool.not_eq_true, not_not, not_lt, not_or,
    ne_eq, and_assoc]

/-! ## The order of goals is one -/

theorem arrange_perm (prio : String → ℤ) (ids : List String) : (arrange prio ids).Perm ids :=
  List.perm_insertionSort _ ids

theorem keys_waits (goals : Goals) : Layers.keys (waits goals) = goals.keys := by
  unfold Layers.keys waits Dict.keys
  rw [List.map_map]
  rfl

theorem nodup_keys (goals : Goals) : goals.keys.Nodup := goals.nodup

variable {goals : Goals}

theorem mem_waits {id : String} {ds : List String} :
    (id, ds) ∈ waits goals ↔ ∃ g, goals.get? id = some g ∧ g.dependsOn = ds := by
  unfold waits
  rw [List.mem_map]
  constructor
  · rintro ⟨⟨k, g⟩, he, heq⟩
    cases heq
    exact ⟨g, Dict.mem_entries.mp he, rfl⟩
  · rintro ⟨g, hg, rfl⟩
    exact ⟨(id, g), Dict.mem_entries.mpr hg, rfl⟩

def DependsOn (goals : Goals) (a b : String) : Prop := ∃ g, goals.get? a = some g ∧ b ∈ g.dependsOn

/-- No goal waits for itself, directly or through others, or for one that is not there. -/
def Acyclic (goals : Goals) : Prop :=
  ∃ rank : String → ℕ, ∀ id g, goals.get? id = some g →
    ∀ d ∈ g.dependsOn, d ∈ goals.keys ∧ rank d < rank id

theorem ranked_waits : Layers.Ranked (waits goals) ↔ Acyclic goals := by
  unfold Layers.Ranked Acyclic
  rw [keys_waits]
  refine exists_congr fun rank => ⟨fun h id g hg => ?_, fun h w hw => ?_⟩
  · exact h (id, g.dependsOn) (mem_waits.mpr ⟨g, hg, rfl⟩)
  · obtain ⟨g, hg, hds⟩ := mem_waits.mp (show (w.1, w.2) ∈ waits goals from hw)
    rw [← hds]
    exact h w.1 g hg

theorem stableTopologicalOrder_ok {order : List String}
    (h : stableTopologicalOrder goals = .ok order) : order.Perm goals.keys := by
  unfold stableTopologicalOrder at h
  split at h
  · rename_i found hfound
    cases h
    have hnodup : (Layers.keys (waits goals)).Nodup := by
      rw [keys_waits]
      exact nodup_keys goals
    rw [← keys_waits]
    exact Layers.layers_perm (arrange_perm _) hnodup hfound
  · cases h

/-- Sorting succeeds exactly on acyclic graphs. -/
theorem stableTopologicalOrder_isOk {goals : Goals} :
    (∃ order, stableTopologicalOrder goals = .ok order) ↔ Acyclic goals := by
  have hnodup : (Layers.keys (waits goals)).Nodup := by
    rw [keys_waits]
    exact nodup_keys goals
  have hlen : (waits goals).length ≤ goals.entries.length := by
    unfold waits
    rw [List.length_map]
  rw [← ranked_waits, ← Layers.layers_isSome_iff (arrange_perm (priorityIn goals)) hlen hnodup]
  unfold stableTopologicalOrder
  cases Layers.layers (arrange (priorityIn goals)) goals.entries.length (waits goals) with
  | none => simp
  | some order => simp

/-! ## What makes a graph -/

section Build

variable {F : GoalDigest} {missionId : String}

variable {items : List (String × Goal)}

theorem addGoals_ok {acc r : Goals × List String} (hsemantics : acc.2.Nodup)
    (h : addGoals F missionId items acc = .ok r) :
    r.1.entries = acc.1.entries ++ items ∧
      (∀ e ∈ items, validateGoal missionId e.1 e.2 = []) ∧
        (acc.2 ++ items.map fun e => F.semantic e.2.semantic).Nodup := by
  induction items generalizing acc with
  | nil =>
    cases h
    simpa using hsemantics
  | cons e items ih =>
    obtain ⟨id, g⟩ := e
    obtain ⟨goals, semantics⟩ := acc
    simp only [addGoals] at h
    split at h
    · cases h
    · rename_i hnew
      split at h
      · cases h
      · rename_i hvalid
        split at h
        · cases h
        · rename_i hfresh
          have hnodup : (semantics ++ [F.semantic g.semantic]).Nodup :=
            List.nodup_append.mpr ⟨hsemantics, List.nodup_singleton _, fun a ha b hb hab => by
              rw [List.mem_singleton] at hb
              exact hfresh (hb ▸ hab ▸ ha)⟩
          obtain ⟨hentries, hrest, hall⟩ := ih hnodup h
          refine ⟨?_, ?_, ?_⟩
          · rw [hentries, Dict.entries_set_of_new (by simpa using hnew), List.append_assoc]
            rfl
          · rw [List.forall_mem_cons]
            exact ⟨not_not.mp hvalid, hrest⟩
          · simpa using hall

theorem addGoals_isOk {acc : Goals × List String} (hids : (acc.1.keys ++ items.map Prod.fst).Nodup)
    (hvalid : ∀ e ∈ items, validateGoal missionId e.1 e.2 = [])
    (hsemantics : (acc.2 ++ items.map fun e => F.semantic e.2.semantic).Nodup) :
    ∃ r, addGoals F missionId items acc = .ok r := by
  induction items generalizing acc with
  | nil => exact ⟨acc, rfl⟩
  | cons e items ih =>
    obtain ⟨id, g⟩ := e
    obtain ⟨goals, semantics⟩ := acc
    rw [List.forall_mem_cons] at hvalid
    rw [List.map_cons] at hids hsemantics
    have hnew : goals.contains id = false := by
      rw [Bool.eq_false_iff]
      intro hmem
      have hkey : id ∈ goals.keys := Dict.mem_keys.mpr (Dict.contains_iff.mp hmem)
      exact (List.nodup_append.mp hids).2.2 id hkey id List.mem_cons_self rfl
    have hfresh : F.semantic g.semantic ∉ semantics := fun hmem =>
      (List.nodup_append.mp hsemantics).2.2 _ hmem _ List.mem_cons_self rfl
    have hkeys : (goals.set id g).keys = goals.keys ++ [id] := by
      unfold Dict.keys
      rw [Dict.entries_set_of_new hnew, List.map_append]
      rfl
    have hrest : ∃ r, addGoals F missionId items
        (goals.set id g, semantics ++ [F.semantic g.semantic]) = .ok r := by
      refine ih ?_ hvalid.2 (by simpa using hsemantics)
      rw [hkeys]
      simpa using hids
    simp only [addGoals]
    rw [if_neg (by simp [hnew]), if_neg (not_not.mpr hvalid.1), if_neg hfresh]
    exact hrest

variable {goals : Goals}

theorem checkDependencies_ok {id : String} {ds : List String} :
    checkDependencies goals id ds = .ok () ↔ ∀ d ∈ ds, d ≠ id ∧ goals.contains d = true := by
  induction ds with
  | nil => simp [checkDependencies]
  | cons d ds ih =>
    rw [checkDependencies, List.forall_mem_cons]
    by_cases hself : d = id
    · simp [hself]
    · by_cases hmem : goals.contains d = true
      · simp [hself, hmem, ih]
      · simp [hself, hmem]

theorem checkAllDependencies_ok {es : List (String × Goal)} :
    checkAllDependencies goals es = .ok () ↔
      ∀ e ∈ es, ∀ d ∈ e.2.dependsOn, d ≠ e.1 ∧ goals.contains d = true := by
  induction es with
  | nil => simp [checkAllDependencies]
  | cons e es ih =>
    obtain ⟨id, g⟩ := e
    rw [checkAllDependencies, List.forall_mem_cons, ← ih, ← checkDependencies_ok, bind_eq_ok]
    constructor
    · rintro ⟨⟨⟩, h, h'⟩
      exact ⟨h, h'⟩
    · rintro ⟨h, h'⟩
      exact ⟨(), h, h'⟩

/-- What a list of items must be like to make a graph with the goals `goals`. -/
structure Buildable (F : GoalDigest) (missionId : String) (items : List (String × Goal)) : Prop where
  nonempty : items ≠ []
  length_le : items.length ≤ maxGoals
  ids : (items.map Prod.fst).Nodup
  valid : ∀ e ∈ items, validateGoal missionId e.1 e.2 = []
  semantics : (items.map fun e => F.semantic e.2.semantic).Nodup
  acyclic : ∃ rank : String → ℕ, ∀ e ∈ items, ∀ d ∈ e.2.dependsOn,
    d ∈ items.map Prod.fst ∧ rank d < rank e.1

def graphOf (F : GoalDigest) (missionId : String) (goals : Goals) (goalOrder : List String)
    (confirmed : Bool) : GoalGraph :=
  sealGraph F
    { contract := goalGraphContract, missionId, goalIds := sortTexts goals.keys, goalOrder
      dependencies := dependenciesOf goals, confirmed, graphFingerprint := "" }

/-- A graph that was built has the items as its goals, in their order. -/
structure Built (F : GoalDigest) (missionId : String) (items : List (String × Goal))
    (confirmed : Bool) (b : BuiltGraph) : Prop where
  entries : b.goals.entries = items
  order : stableTopologicalOrder b.goals = .ok b.goalOrder
  graph : b.graph = graphOf F missionId b.goals b.goalOrder confirmed

theorem length_normalizeFrom (items : List GoalItem) (index : ℕ) :
    (normalizeFrom F missionId index items).length = items.length := by
  induction items generalizing index with
  | nil => rfl
  | cons i items ih => simp [normalizeFrom, ih]

theorem acyclic_of_entries (h : goals.entries = items) :
    Acyclic goals ↔ ∃ rank : String → ℕ, ∀ e ∈ items, ∀ d ∈ e.2.dependsOn,
      d ∈ items.map Prod.fst ∧ rank d < rank e.1 := by
  unfold Acyclic Dict.keys
  rw [h]
  refine exists_congr fun rank => ⟨fun hr e he => ?_, fun hr id g hg => ?_⟩
  · exact hr e.1 e.2 (Dict.mem_entries.mp (h ▸ he))
  · exact hr (id, g) (h ▸ Dict.mem_entries.mpr hg)

theorem contains_iff_mem (h : goals.entries = items) {d : String} :
    goals.contains d = true ↔ d ∈ items.map Prod.fst := by
  rw [Dict.contains_iff, ← Dict.mem_keys, Dict.keys, h]

theorem buildGoalGraph_ok {items : List GoalItem} {confirmed : Bool} {b : BuiltGraph}
    (h : buildGoalGraph F items missionId confirmed = .ok b) :
    Buildable F missionId (normalizeFrom F missionId 0 items) ∧
      Built F missionId (normalizeFrom F missionId 0 items) confirmed b := by
  unfold buildGoalGraph at h
  split at h
  · cases h
  · rename_i hne
    split at h
    · cases h
    · rename_i hlen
      obtain ⟨⟨goals, semantics⟩, hadd, h⟩ := bind_eq_ok.mp h
      obtain ⟨⟨⟩, hdeps, h⟩ := bind_eq_ok.mp h
      obtain ⟨order, horder, h⟩ := bind_eq_ok.mp h
      cases h
      obtain ⟨hentries, hvalid, hsemantics⟩ := addGoals_ok List.nodup_nil hadd
      have hitems : goals.entries = normalizeFrom F missionId 0 items := hentries
      refine ⟨?_, hitems, horder, rfl⟩
      refine
        { nonempty := ?_
          length_le := ?_
          ids := hitems ▸ goals.nodup
          valid := hvalid
          semantics := by simpa using hsemantics
          acyclic := (acyclic_of_entries hitems).mp (stableTopologicalOrder_isOk.mp ⟨_, horder⟩) }
      · intro hnil
        have hzero : (normalizeFrom F missionId 0 items).length = items.length :=
          length_normalizeFrom items 0
        rw [hnil] at hzero
        exact hne (List.isEmpty_iff.mpr (List.length_eq_zero_iff.mp hzero.symm))
      · rw [length_normalizeFrom]
        omega

theorem buildGoalGraph_isOk {items : List GoalItem} (confirmed : Bool)
    (h : Buildable F missionId (normalizeFrom F missionId 0 items)) :
    ∃ b, buildGoalGraph F items missionId confirmed = .ok b := by
  have hlen := h.length_le
  rw [length_normalizeFrom] at hlen
  have hne : ¬items.isEmpty = true := by
    intro hempty
    rw [List.isEmpty_iff.mp hempty] at h
    exact h.nonempty rfl
  obtain ⟨⟨goals, semantics⟩, hadd⟩ :
      ∃ r, addGoals F missionId (normalizeFrom F missionId 0 items) (Dict.empty, []) = .ok r :=
    addGoals_isOk h.ids h.valid (by simpa using h.semantics)
  obtain ⟨hentries, -, -⟩ := addGoals_ok List.nodup_nil hadd
  have hitems : goals.entries = normalizeFrom F missionId 0 items := hentries
  obtain ⟨order, horder⟩ :=
    stableTopologicalOrder_isOk.mpr ((acyclic_of_entries hitems).mpr h.acyclic)
  have hdeps : checkAllDependencies goals goals.entries = .ok () := by
    rw [checkAllDependencies_ok, hitems]
    obtain ⟨rank, hrank⟩ := h.acyclic
    intro e he d hd
    obtain ⟨hmem, hlt⟩ := hrank e he d hd
    refine ⟨fun heq => ?_, (contains_iff_mem hitems).mpr hmem⟩
    rw [heq] at hlt
    exact Nat.lt_irrefl _ hlt
  unfold buildGoalGraph
  rw [if_neg hne, if_neg (Nat.not_lt.mpr hlen), hadd]
  simp only [bind, Except.bind, hdeps, horder]
  exact ⟨_, rfl⟩

end Build

end Missions
end ZeroRuntime
