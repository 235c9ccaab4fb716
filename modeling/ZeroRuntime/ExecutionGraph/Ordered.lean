import ZeroRuntime.ExecutionGraph.Model

/-!
# ZeroRuntime.ExecutionGraph.Ordered

What holds of the execution graph over a run.

* `Precedes` is the relation of the edges, `Sound` what every call keeps of the graph.
* `Refused` says of which edges `addDependency` wants nothing to know.
* `Topological` is an order that keeps to the edges; `executionOrder` returns the one whose sequence
  numbers come first.
-/

namespace ZeroRuntime
namespace ExecutionGraph

open Lib Relation

/-! ## What a graph is -/

def Precedes (g : Graph) (a b : String) : Prop :=
  ∃ edge ∈ g.edges, edge.fromNodeId = a ∧ edge.toNodeId = b

/-- Every edge is between nodes of the graph, no way leads back to where it starts, and the nodes
are numbered. -/
structure Sound (g : Graph) : Prop where
  ids : ∀ id ∈ g.nodes.keys, Text.strip id ≠ ""
  ends : ∀ a b, Precedes g a b → a ∈ g.nodes.keys ∧ b ∈ g.nodes.keys
  acyclic : Relations.Acyclic (Precedes g)
  nodeId : ∀ id node, g.nodes.get? id = some node → node.nodeId = id
  sequence_le : ∀ id node, g.nodes.get? id = some node → node.sequence ≤ g.nodeSequence
  sequence_inj : ∀ id id' node node', g.nodes.get? id = some node →
    g.nodes.get? id' = some node' → node.sequence = node'.sequence → id = id'

/-- All nodes, each after those that precede it. -/
structure Topological (g : Graph) (order : List Node) : Prop where
  perm : order.Perm g.nodes.values
  after : ∀ a b, Precedes g a b →
    (order.map Node.nodeId).idxOf a < (order.map Node.nodeId).idxOf b

/-- An end that is no node, an edge to itself, an edge that is there already, or one that closes a
cycle. -/
def Refused (g : Graph) (a b : String) : Prop :=
  a ∉ g.nodes.keys ∨ b ∉ g.nodes.keys ∨ a = b ∨ Precedes g a b ∨
    ¬Relations.Acyclic (Relations.Joined (Precedes g) fun x y => x = a ∧ y = b)

variable {g : Graph}

variable {a b : String}

theorem mem_pairs : (a, b) ∈ g.pairs ↔ Precedes g a b := by
  unfold Graph.pairs Precedes
  rw [List.mem_map]
  exact exists_congr fun edge => and_congr_right fun _ => Prod.mk_inj

theorem edge_pairs (g : Graph) : Reach.Edge g.pairs = Precedes g := by
  funext a b
  exact propext mem_pairs

theorem hasPath_false : g.hasPath a b false = true ↔ TransGen (Precedes g) a b := by
  unfold Graph.hasPath
  rw [Bool.false_and, Bool.false_or, Reach.hasPath_iff, edge_pairs]

theorem hasPath_true : g.hasPath a b true = true ↔ ReflTransGen (Precedes g) a b := by
  unfold Graph.hasPath
  rw [Bool.true_and, Bool.or_eq_true, beq_iff_eq, Reach.hasPath_iff, edge_pairs,
    reflTransGen_iff_eq_or_transGen, eq_comm]

/-! ## Adding an edge -/

theorem any_edge :
    (g.edges.any fun edge => edge.fromNodeId == a && edge.toNodeId == b) = true ↔
      Precedes g a b := by
  unfold Precedes
  simp [List.any_eq_true]

theorem not_contains {id : String} : (!g.nodes.contains id) = true ↔ id ∉ g.nodes.keys := by
  rw [Bool.not_eq_true', ← Bool.not_eq_true, Dict.contains_iff, ← Dict.mem_keys]

/-- The one way an edge closes a cycle in a graph without cycles. -/
theorem closes_iff (h : Relations.Acyclic (Precedes g)) :
    ¬Relations.Acyclic (Relations.Joined (Precedes g) fun x y => x = a ∧ y = b) ↔
      ReflTransGen (Precedes g) b a := by
  constructor
  · intro hcycle
    by_contra hback
    exact hcycle (Relations.acyclic_insert h hback)
  · intro hway hacyclic
    refine (Relations.acyclic_joined.mp hacyclic).2 a b ⟨rfl, rfl⟩ ?_
    exact ReflTransGen.mono (fun _ _ hr => .inl hr) _ _ hway

/-- The edge that is added, when it is. -/
def newEdge (g : Graph) (a b : String) (reason : Option String) (metadata : Val) : Edge where
  fromNodeId := a
  toNodeId := b
  reason := reason.getD ""
  metadata := metadata
  sequence := g.edgeSequence + 1

def Graph.withEdge (g : Graph) (edge : Edge) : Graph :=
  { g with edges := g.edges ++ [edge], edgeSequence := g.edgeSequence + 1 }

theorem precedes_withEdge {edge : Edge} :
    Precedes (g.withEdge edge) =
      Relations.Joined (Precedes g) fun x y => x = edge.fromNodeId ∧ y = edge.toNodeId := by
  funext a b
  unfold Precedes Graph.withEdge Relations.Joined
  refine propext ⟨?_, ?_⟩
  · rintro ⟨edge', hmem, rfl, rfl⟩
    rcases List.mem_append.mp hmem with hmem | hmem
    · exact .inl ⟨edge', hmem, rfl, rfl⟩
    · rw [List.mem_singleton.mp hmem]
      exact .inr ⟨rfl, rfl⟩
  · rintro (⟨edge', hmem, rfl, rfl⟩ | ⟨rfl, rfl⟩)
    · exact ⟨edge', List.mem_append_left _ hmem, rfl, rfl⟩
    · exact ⟨edge, List.mem_append_right _ List.mem_cons_self, rfl, rfl⟩

/-- Ids of nodes are no blank texts. -/
theorem validateText_none {id fieldName : String} (hids : ∀ id ∈ g.nodes.keys, Text.strip id ≠ "")
    (h : id ∈ g.nodes.keys) : validateText fieldName id = none := by
  unfold validateText
  rw [if_neg (hids id h)]

theorem addDependency_eq (hids : ∀ id ∈ g.nodes.keys, Text.strip id ≠ "")
    (hacyclic : Relations.Acyclic (Precedes g)) (a b : String) (reason : Option String)
    (metadata : Val) :
    (Refused g a b ∧ ∃ e, addDependency g a b reason metadata = (.error e, g)) ∨
      ¬Refused g a b ∧ addDependency g a b reason metadata =
        (.ok (newEdge g a b reason metadata), g.withEdge (newEdge g a b reason metadata)) := by
  unfold Refused
  rw [closes_iff hacyclic, ← any_edge, ← hasPath_true, ← not_contains, ← not_contains]
  by_cases ha : a ∈ g.nodes.keys
  · by_cases hb : b ∈ g.nodes.keys
    · unfold addDependency
      rw [validateText_none hids ha, validateText_none hids hb]
      dsimp only
      split_ifs with hfrom hto hself hsame hback
      · exact .inl ⟨.inl hfrom, _, rfl⟩
      · exact .inl ⟨.inr (.inl hto), _, rfl⟩
      · exact .inl ⟨.inr (.inr (.inl hself)), _, rfl⟩
      · exact .inl ⟨.inr (.inr (.inr (.inl hsame))), _, rfl⟩
      · exact .inl ⟨.inr (.inr (.inr (.inr hback))), _, rfl⟩
      · refine .inr ⟨?_, rfl⟩
        simp only [not_or]
        exact ⟨hfrom, hto, hself, hsame, hback⟩
    · refine .inl ⟨.inr (.inl (not_contains.mpr hb)), ?_⟩
      unfold addDependency
      split
      · exact ⟨_, rfl⟩
      · exact ⟨_, rfl⟩
      · rw [if_pos (not_contains.mpr hb)]
        split <;> exact ⟨_, rfl⟩
  · refine .inl ⟨.inl (not_contains.mpr ha), ?_⟩
    unfold addDependency
    split
    · exact ⟨_, rfl⟩
    · exact ⟨_, rfl⟩
    · rw [if_pos (not_contains.mpr ha)]
      exact ⟨_, rfl⟩

/-! ## What every call keeps -/

theorem sound_empty : Sound .empty where
  ids := fun _ h => absurd h List.not_mem_nil
  ends := fun _ _ ⟨_, h, _⟩ => absurd h List.not_mem_nil
  acyclic := by
    intro a hcycle
    obtain ⟨b, ⟨edge, hmem, -⟩, -⟩ := TransGen.head'_iff.mp hcycle
    cases hmem
  nodeId := fun _ _ h => by cases h
  sequence_le := fun _ _ h => by cases h
  sequence_inj := fun _ _ _ _ h => by cases h

def Graph.withNode (g : Graph) (node : Node) : Graph :=
  { g with nodes := g.nodes.set node.nodeId node, nodeSequence := g.nodeSequence + 1 }

theorem addNode_eq (g : Graph) (nodeId operation : String) (runtimeArgs payload metadata : Val) :
    (∃ e, addNode g nodeId operation runtimeArgs payload metadata = (.error e, g)) ∨
      ∃ node : Node, addNode g nodeId operation runtimeArgs payload metadata =
          (.ok node, g.withNode node) ∧
        Text.strip node.nodeId ≠ "" ∧ node.nodeId ∉ g.nodes.keys ∧
          node.sequence = g.nodeSequence + 1 := by
  unfold addNode
  split
  · exact .inl ⟨_, rfl⟩
  · exact .inl ⟨_, rfl⟩
  · rename_i hid hoperation
    split
    · exact .inl ⟨_, rfl⟩
    · rename_i hnew
      refine .inr ⟨_, rfl, ?_, ?_, rfl⟩
      · intro hblank
        unfold validateText at hid
        rw [if_pos hblank] at hid
        cases hid
      · rwa [Dict.contains_iff, ← Dict.mem_keys] at hnew

theorem Sound.withNode (h : Sound g) {node : Node} (hblank : Text.strip node.nodeId ≠ "")
    (hnew : node.nodeId ∉ g.nodes.keys) (hsequence : node.sequence = g.nodeSequence + 1) :
    Sound (g.withNode node) := by
  have hkeys : (g.withNode node).nodes.keys = g.nodes.keys ++ [node.nodeId] :=
    Dict.keys_set_of_not_mem node hnew
  -- a node of the new graph is the new one or was there
  have hget : ∀ {id found}, (g.withNode node).nodes.get? id = some found →
      id = node.nodeId ∧ found = node ∨ g.nodes.get? id = some found := by
    intro id found hfound
    have hset := Dict.get?_set g.nodes node.nodeId id node
    rw [show (g.withNode node).nodes = g.nodes.set node.nodeId node from rfl, hset] at hfound
    split at hfound
    · rename_i heq
      cases hfound
      exact .inl ⟨heq, rfl⟩
    · exact .inr hfound
  refine
    { ids := ?_
      ends := fun a b hab => ?_
      acyclic := h.acyclic
      nodeId := fun id found hfound => ?_
      sequence_le := fun id found hfound => ?_
      sequence_inj := fun id id' found found' hfound hfound' heq => ?_ }
  · intro id hid
    rw [hkeys, List.mem_append, List.mem_singleton] at hid
    rcases hid with hid | rfl
    · exact h.ids id hid
    · exact hblank
  · obtain ⟨ha, hb⟩ := h.ends a b hab
    rw [hkeys]
    exact ⟨List.mem_append_left _ ha, List.mem_append_left _ hb⟩
  · rcases hget hfound with ⟨rfl, rfl⟩ | hold
    · rfl
    · exact h.nodeId id found hold
  · have hnext : (g.withNode node).nodeSequence = g.nodeSequence + 1 := rfl
    rcases hget hfound with ⟨rfl, rfl⟩ | hold
    · omega
    · have hle := h.sequence_le id found hold
      omega
  · rcases hget hfound with ⟨rfl, rfl⟩ | hold
    · rcases hget hfound' with ⟨rfl, rfl⟩ | hold'
      · rfl
      · have hle := h.sequence_le id' found' hold'
        omega
    · rcases hget hfound' with ⟨rfl, rfl⟩ | hold'
      · have hle := h.sequence_le id found hold
        omega
      · exact h.sequence_inj id id' found found' hold hold' heq

theorem Sound.withEdge (h : Sound g) {edge : Edge}
    (hedge : ¬Refused g edge.fromNodeId edge.toNodeId) : Sound (g.withEdge edge) := by
  unfold Refused at hedge
  simp only [not_or, not_not] at hedge
  obtain ⟨hfrom, hto, -, -, hacyclic⟩ := hedge
  refine
    { ids := h.ids
      ends := fun a b hab => ?_
      acyclic := ?_
      nodeId := h.nodeId
      sequence_le := h.sequence_le
      sequence_inj := h.sequence_inj }
  · rw [precedes_withEdge] at hab
    rcases hab with hold | ⟨rfl, rfl⟩
    · exact h.ends a b hold
    · exact ⟨hfrom, hto⟩
  · rw [precedes_withEdge]
    exact hacyclic

theorem sound_step (h : Sound g) (c : Call) : Sound (executionGraph.step g c).2 := by
  cases c with
  | addNode nodeId operation runtimeArgs payload metadata =>
    rcases addNode_eq g nodeId operation runtimeArgs payload metadata with
      ⟨e, heq⟩ | ⟨node, heq, hblank, hnew, hsequence⟩
    · simp only [executionGraph, heq]
      exact h
    · simp only [executionGraph, heq]
      exact h.withNode hblank hnew hsequence
  | addDependency fromNodeId toNodeId reason metadata =>
    rcases addDependency_eq h.ids h.acyclic fromNodeId toNodeId reason metadata with
      ⟨-, e, heq⟩ | ⟨hedge, heq⟩
    · simp only [executionGraph, heq]
      exact h
    · simp only [executionGraph, heq]
      exact h.withEdge hedge
  | clear => exact sound_empty

theorem sound_run (calls : List Call) : Sound (executionGraph.run .empty calls) := by
  have hstep : ∀ g c, Sound g → Sound (executionGraph.step g c).2 := fun _ c h => sound_step h c
  exact Machine.run_invariant hstep calls sound_empty

/-! ## The order of execution -/

theorem assertValid_ok (h : Sound g) : assertValid g = .ok () := by
  unfold assertValid
  rw [if_neg, if_neg]
  · rw [List.any_eq_true]
    rintro ⟨id, -, hcycle⟩
    exact h.acyclic id (hasPath_false.mp hcycle)
  · rw [List.any_eq_true]
    rintro ⟨edge, hmem, hmissing⟩
    rw [Bool.or_eq_true, not_contains, not_contains] at hmissing
    obtain ⟨hfrom, hto⟩ := h.ends edge.fromNodeId edge.toNodeId ⟨edge, hmem, rfl, rfl⟩
    exact hmissing.elim (absurd hfrom) (absurd hto)

theorem map_filterMap_get? (h : Sound g) {ids : List String} (hids : ids ⊆ g.nodes.keys) :
    (ids.filterMap g.nodes.get?).map Node.nodeId = ids ∧
      (ids.filterMap g.nodes.get?).map Node.sequence = ids.map g.sequenceOf := by
  induction ids with
  | nil => exact ⟨rfl, rfl⟩
  | cons id ids ih =>
    obtain ⟨hid, hrest⟩ := List.cons_subset.mp hids
    obtain ⟨node, hnode⟩ := Dict.mem_keys.mp hid
    obtain ⟨hidsOf, hsequences⟩ := ih hrest
    have hsequence : g.sequenceOf id = node.sequence := by
      unfold Graph.sequenceOf
      rw [hnode]
      rfl
    rw [List.filterMap_cons_some hnode, List.map_cons, List.map_cons, List.map_cons, hidsOf,
      hsequences, h.nodeId id node hnode, hsequence]
    exact ⟨rfl, rfl⟩

theorem filterMap_keys (g : Graph) : g.nodes.keys.filterMap g.nodes.get? = g.nodes.values := by
  unfold Dict.keys Dict.values
  rw [List.filterMap_map]
  have hsome : ∀ e ∈ g.nodes.entries, (g.nodes.get? ∘ Prod.fst) e = some e.2 := fun e he =>
    Dict.mem_entries.mp he
  rw [List.filterMap_congr hsome, List.filterMap_eq_map']

theorem map_values (h : Sound g) : g.nodes.values.map Node.nodeId = g.nodes.keys := by
  rw [← filterMap_keys]
  exact (map_filterMap_get? h (List.Subset.refl _)).1

theorem Topological.ids (h : Sound g) {order : List Node} (horder : Topological g order) :
    Kahn.Topological g.nodes.keys g.pairs (order.map Node.nodeId) where
  perm := by
    rw [← map_values h]
    exact horder.perm.map _
  after := fun a b hab => horder.after a b (mem_pairs.mp hab)

/-- The numbers of nodes are the numbers of their ids. -/
theorem Topological.map_sequence (h : Sound g) {order : List Node} (horder : Topological g order) :
    order.map Node.sequence = (order.map Node.nodeId).map g.sequenceOf := by
  rw [List.map_map]
  refine List.map_congr_left fun node hnode => ?_
  obtain ⟨id, hid⟩ := Dict.mem_values.mp (horder.perm.mem_iff.mp hnode)
  rw [Function.comp_apply, h.nodeId id node hid]
  unfold Graph.sequenceOf
  rw [hid]
  rfl

theorem executionOrder_ok (h : Sound g) :
    ∃ order, executionOrder g = .ok order ∧ Topological g order ∧
      ∀ order', Topological g order' →
        LexLe (· ≤ ·) (order.map Node.sequence) (order'.map Node.sequence) := by
  have hends : ∀ e ∈ g.pairs, e.1 ∈ g.nodes.keys ∧ e.2 ∈ g.nodes.keys := fun e he =>
    h.ends e.1 e.2 (mem_pairs.mp he)
  have hseq : ∀ a ∈ g.nodes.keys, ∀ b ∈ g.nodes.keys, g.sequenceOf a = g.sequenceOf b → a = b := by
    intro a ha b hb heq
    obtain ⟨node, hnode⟩ := Dict.mem_keys.mp ha
    obtain ⟨node', hnode'⟩ := Dict.mem_keys.mp hb
    unfold Graph.sequenceOf at heq
    rw [hnode, hnode'] at heq
    exact h.sequence_inj a b node node' hnode hnode' heq
  have hgreedy := @Kahn.greedy_topologicalOrder _ _ g.nodes.keys g.pairs g.sequenceOf
    g.nodes.nodup fun e he => (hends e he).2
  have htop := hgreedy.topological g.nodes.nodup hends (edge_pairs g ▸ h.acyclic)
  obtain ⟨hids, hsequences⟩ := map_filterMap_get? h htop.perm.subset
  let ids := Kahn.topologicalOrder g.nodes.keys g.pairs g.sequenceOf
  refine ⟨ids.filterMap g.nodes.get?, ?_, ⟨?_, fun a b hab => ?_⟩, fun order' horder' => ?_⟩
  · unfold executionOrder
    rw [assertValid_ok h]
    have hlen := htop.perm.length_eq
    simp only [bind, Except.bind, hlen, ne_eq, not_true_eq_false, if_false]
    rfl
  · rw [← filterMap_keys]
    exact htop.perm.filterMap _
  · rw [hids]
    exact htop.after a b (mem_pairs.mpr hab)
  · rw [hsequences, horder'.map_sequence h]
    exact hgreedy.le g.nodes.nodup hseq (horder'.ids h)

/-- After any calls: no cycle; an edge is added unless it is `Refused`, and a refused one leaves
the graph as it is; the order of execution is the first of all orders that keep to the edges. -/
theorem executionGraph_ordered (calls : List Call) :
    let g := executionGraph.run .empty calls
    Relations.Acyclic (Precedes g) ∧
      (∀ a b reason metadata,
        ((∃ e, (addDependency g a b reason metadata).1 = .error e) ↔ Refused g a b) ∧
          ∀ e, (addDependency g a b reason metadata).1 = .error e →
            (addDependency g a b reason metadata).2 = g) ∧
        ∃ order, executionOrder g = .ok order ∧ Topological g order ∧
          ∀ order', Topological g order' →
            LexLe (· ≤ ·) (order.map Node.sequence) (order'.map Node.sequence) := by
  intro g
  have h : Sound g := sound_run calls
  refine ⟨h.acyclic, fun a b reason metadata => ?_, executionOrder_ok h⟩
  rcases addDependency_eq h.ids h.acyclic a b reason metadata with ⟨hrefused, e, heq⟩ | ⟨hadd, heq⟩
  · rw [heq]
    exact ⟨⟨fun _ => hrefused, fun _ => ⟨e, rfl⟩⟩, fun _ _ => rfl⟩
  · rw [heq]
    exact ⟨⟨fun ⟨_, he⟩ => (by cases he), fun hrefused => absurd hrefused hadd⟩,
      fun _ he => (by cases he)⟩

end ExecutionGraph
end ZeroRuntime
