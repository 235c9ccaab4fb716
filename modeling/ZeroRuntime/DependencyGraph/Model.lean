import ZeroRuntime.Lib.Cycles
import ZeroRuntime.Lib.Dict
import ZeroRuntime.Lib.Lexicographic
import ZeroRuntime.Lib.Sorted

/-!
# ZeroRuntime.DependencyGraph.Model

The graph of dependencies between engineering goals
(`core/tasks/engineering_goal_dependency_graph.py`).

* A record is registered under its goal id and takes the place of the one before it.
* `detectCycles` follows prerequisites, blockers and parents; `none` would be a search that does not
  come to its end.
* `validate` checks every list of a record, `parentChildRelationships` reads the parent-child pairs
  from either end.
-/

namespace ZeroRuntime
namespace DependencyGraph

open Lib

/-! ## Records -/

/-- `EngineeringGoalDependencyRecord` -/
structure DependencyRecord where
  goalId : String
  parentGoalIds : List String := []
  childGoalIds : List String := []
  prerequisiteGoalIds : List String := []
  blockedByGoalIds : List String := []
deriving DecidableEq, Repr

/-- `EngineeringGoalDependencyGraph`: the records by their goal ids. -/
structure Graph where
  records : Dict String DependencyRecord
  keyed : ∀ id r, records.get? id = some r → r.goalId = id

def Graph.empty : Graph := ⟨.empty, fun _ _ h => by cases h⟩

def Graph.register (g : Graph) (r : DependencyRecord) : Graph where
  records := g.records.set r.goalId r
  keyed := by
    intro id r' h
    rw [Dict.get?_set] at h
    split at h
    · rename_i heq
      cases h
      exact heq.symm
    · exact g.keyed id r' h

def ofRecords (records : List DependencyRecord) : Graph := records.foldl Graph.register .empty

def Graph.orderedRecords (g : Graph) : List DependencyRecord :=
  (sortTexts g.records.keys).filterMap g.records.get?

/-! ## Cycles -/

def adjacency (g : Graph) : DepthFirst.Graph String :=
  g.orderedRecords.map fun r =>
    (r.goalId, sortedSet (r.prerequisiteGoalIds ++ r.blockedByGoalIds ++ r.parentGoalIds))

/-- `xs <= ys` for lists of texts. -/
abbrev TextsLe : List String → List String → Prop := LexLe TextLe

def canonicalCycle (cycle : List String) : List String := Cycles.canonicalCycle TextsLe cycle

def detectCycles (g : Graph) : Option (List (List String)) :=
  Cycles.findCycles TextsLe (adjacency g) (sortTexts (DepthFirst.nodes (adjacency g)))

/-! ## Validation -/

inductive Reason where
  | selfDependency | unknownGoal | dependencyCycle
deriving DecidableEq, Repr

structure ValidationError where
  goalId : String
  relation : String
  referencedGoalId : String
  reason : Reason
  cycle : List String := []
deriving DecidableEq, Repr

structure Validation where
  ok : Bool
  errors : List ValidationError
deriving DecidableEq, Repr

def refsFor (r : DependencyRecord) : List (String × List String) :=
  [("parent_goal_ids", r.parentGoalIds), ("child_goal_ids", r.childGoalIds),
    ("prerequisite_goal_ids", r.prerequisiteGoalIds), ("blocked_by_goal_ids", r.blockedByGoalIds)]

def refError (g : Graph) (r : DependencyRecord) (relation goalId : String) :
    Option ValidationError :=
  if goalId = r.goalId then
    some { goalId := r.goalId, relation, referencedGoalId := goalId, reason := .selfDependency }
  else if !g.records.contains goalId then
    some { goalId := r.goalId, relation, referencedGoalId := goalId, reason := .unknownGoal }
  else none

def refErrors (g : Graph) : List ValidationError :=
  g.orderedRecords.flatMap fun r =>
    (refsFor r).flatMap fun ref => ref.2.filterMap (refError g r ref.1)

def cycleError (cycle : List String) : ValidationError where
  goalId := cycle.head?.getD ""
  relation := "dependency_path"
  referencedGoalId := cycle.getLast?.getD ""
  reason := .dependencyCycle
  cycle := cycle

def validate (g : Graph) : Option Validation :=
  (detectCycles g).map fun cycles =>
    let errors := refErrors g ++ cycles.map cycleError
    { ok := errors.isEmpty, errors }

/-! ## Parents and children -/

/-- `(parent, child) <= (parent', child')` -/
def PairLe (a b : String × String) : Prop :=
  a.1 ≠ b.1 ∧ TextLe a.1 b.1 ∨ a.1 = b.1 ∧ TextLe a.2 b.2

instance : DecidableRel PairLe := fun a b =>
  inferInstanceAs (Decidable (a.1 ≠ b.1 ∧ TextLe a.1 b.1 ∨ a.1 = b.1 ∧ TextLe a.2 b.2))

def pairsOf (r : DependencyRecord) : List (String × String) :=
  (r.childGoalIds.map fun child => (r.goalId, child)) ++
    r.parentGoalIds.map fun parent => (parent, r.goalId)

def parentChildRelationships (g : Graph) : List (String × String) :=
  (g.orderedRecords.flatMap pairsOf).eraseDups.insertionSort PairLe

end DependencyGraph
end ZeroRuntime
