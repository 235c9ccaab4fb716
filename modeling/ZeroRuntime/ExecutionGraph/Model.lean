import ZeroRuntime.Lib.Dict
import ZeroRuntime.Lib.Kahn
import ZeroRuntime.Lib.Machine
import ZeroRuntime.Lib.Value

/-!
# ZeroRuntime.ExecutionGraph.Model

The graph of operations and what each of them waits for
(`core/runtime/runtime_execution_graph.py`).

* `addDependency` refuses an edge that leads back to where it starts, by a search for a way.
* `executionOrder` takes the node of the smallest sequence number of those that wait for nothing.
* The copies that the source hands out are the records themselves here.
-/

namespace ZeroRuntime
namespace ExecutionGraph

open Lib

/-- `RuntimeExecutionGraphNode` -/
structure Node where
  nodeId : String
  operation : String
  runtimeArgs : Val
  payload : Val
  metadata : Val
  sequence : ℕ

/-- `RuntimeExecutionGraphEdge` -/
structure Edge where
  fromNodeId : String
  toNodeId : String
  reason : String
  metadata : Val
  sequence : ℕ

structure Graph where
  nodes : Dict String Node
  edges : List Edge
  nodeSequence : ℕ
  edgeSequence : ℕ

def Graph.empty : Graph where
  nodes := .empty
  edges := []
  nodeSequence := 0
  edgeSequence := 0

/-- `RuntimeExecutionGraphRejected` -/
def rejected (message : String) : Err := .rejected ("runtime execution graph " ++ message)

/-- `_validate_text`: the error it raises, if any. -/
def validateText (fieldName value : String) : Option Err :=
  if Text.strip value = "" then some (rejected (fieldName ++ " is required")) else none

def Graph.pairs (g : Graph) : Reach.Edges String :=
  g.edges.map fun edge => (edge.fromNodeId, edge.toNodeId)

def Graph.hasPath (g : Graph) (startNodeId targetNodeId : String) (allowZeroLength : Bool) : Bool :=
  allowZeroLength && startNodeId == targetNodeId ||
    Reach.hasPath g.pairs startNodeId targetNodeId

def addNode (g : Graph) (nodeId operation : String) (runtimeArgs payload metadata : Val) :
    Except Err Node × Graph :=
  match validateText "node_id" nodeId, validateText "operation" operation with
  | some e, _ => (.error e, g)
  | none, some e => (.error e, g)
  | none, none =>
    if g.nodes.contains nodeId then
      (.error (rejected ("duplicate node: " ++ Text.quoted nodeId)), g)
    else
      let node : Node :=
        { nodeId, operation, runtimeArgs, payload, metadata, sequence := g.nodeSequence + 1 }
      (.ok node, { g with nodes := g.nodes.set nodeId node, nodeSequence := g.nodeSequence + 1 })

def addDependency (g : Graph) (fromNodeId toNodeId : String) (reason : Option String)
    (metadata : Val) : Except Err Edge × Graph :=
  match validateText "from_node_id" fromNodeId, validateText "to_node_id" toNodeId with
  | some e, _ => (.error e, g)
  | none, some e => (.error e, g)
  | none, none =>
    if !g.nodes.contains fromNodeId then
      (.error (rejected ("unknown from_node_id: " ++ Text.quoted fromNodeId)), g)
    else if !g.nodes.contains toNodeId then
      (.error (rejected ("unknown to_node_id: " ++ Text.quoted toNodeId)), g)
    else if fromNodeId = toNodeId then (.error (rejected "self dependency rejected"), g)
    else if g.edges.any fun edge =>
        edge.fromNodeId == fromNodeId && edge.toNodeId == toNodeId then
      (.error (rejected "duplicate dependency rejected"), g)
    else if g.hasPath toNodeId fromNodeId true then (.error (rejected "cycle rejected"), g)
    else
      let edge : Edge :=
        { fromNodeId, toNodeId, reason := reason.getD "", metadata
          sequence := g.edgeSequence + 1 }
      (.ok edge, { g with edges := g.edges ++ [edge], edgeSequence := g.edgeSequence + 1 })

def assertValid (g : Graph) : Except Err Unit :=
  if g.edges.any fun edge =>
      !g.nodes.contains edge.fromNodeId || !g.nodes.contains edge.toNodeId then
    .error (rejected "invalid edge endpoint")
  else if g.nodes.keys.any fun nodeId => g.hasPath nodeId nodeId false then
    .error (rejected "cycle rejected")
  else .ok ()

def Graph.sequenceOf (g : Graph) (nodeId : String) : ℕ :=
  ((g.nodes.get? nodeId).map Node.sequence).getD 0

def executionOrder (g : Graph) : Except Err (List Node) := do
  assertValid g
  let ordered := Kahn.topologicalOrder g.nodes.keys g.pairs g.sequenceOf
  if ordered.length ≠ g.nodes.keys.length then .error (rejected "cycle rejected")
  else .ok (ordered.filterMap g.nodes.get?)

/-! ## Runs -/

inductive Call where
  | addNode (nodeId operation : String) (runtimeArgs payload metadata : Val)
  | addDependency (fromNodeId toNodeId : String) (reason : Option String) (metadata : Val)
  | clear

inductive Answer where
  | node (node : Node)
  | edge (edge : Edge)
  | cleared

def executionGraph : Machine Graph Call (Except Err Answer) where
  step g
    | .addNode nodeId operation runtimeArgs payload metadata =>
      let (node, g') := addNode g nodeId operation runtimeArgs payload metadata
      (node.map .node, g')
    | .addDependency fromNodeId toNodeId reason metadata =>
      let (edge, g') := addDependency g fromNodeId toNodeId reason metadata
      (edge.map .edge, g')
    | .clear => (.ok .cleared, .empty)

end ExecutionGraph
end ZeroRuntime
