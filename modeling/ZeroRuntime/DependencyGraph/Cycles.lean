import ZeroRuntime.DependencyGraph.Model

/-!
# ZeroRuntime.DependencyGraph.Cycles

What the search for cycles reports, and what a graph without a reported error may still hide.

* `WaitsOn` is the union of the relations that the search follows, `Declared` the one with the
  parent-child pairs from either end.
* `detectCycles_exact`: the search reports the simple cycles of `WaitsOn`, each once.
* `tellsTruth_iff`: when a graph that `validate` accepts has no cycle of `Declared`. The children
  that a record names are checked, but the search does not follow them.
-/

namespace ZeroRuntime
namespace DependencyGraph

open Lib Relation

/-! ## What the search follows -/

/-- A registered goal that is a prerequisite, a blocker or a parent of another one. -/
def WaitsOn (g : Graph) (a b : String) : Prop :=
  b ∈ g.records.keys ∧ ∃ r, g.records.get? a = some r ∧
    (b ∈ r.prerequisiteGoalIds ∨ b ∈ r.blockedByGoalIds ∨ b ∈ r.parentGoalIds)

variable {g : Graph}

variable {r : DependencyRecord}

theorem mem_orderedRecords : r ∈ g.orderedRecords ↔ g.records.get? r.goalId = some r := by
  unfold Graph.orderedRecords
  rw [List.mem_filterMap]
  constructor
  · rintro ⟨id, -, hid⟩
    rw [g.keyed id r hid]
    exact hid
  · intro hr
    exact ⟨r.goalId, (sortTexts_perm _).mem_iff.mpr (Dict.mem_keys.mpr ⟨r, hr⟩), hr⟩

theorem map_orderedRecords (g : Graph) :
    g.orderedRecords.map DependencyRecord.goalId = sortTexts g.records.keys := by
  unfold Graph.orderedRecords
  have hall : ∀ id ∈ sortTexts g.records.keys, ∃ r, g.records.get? id = some r := fun id hid =>
    Dict.mem_keys.mp ((sortTexts_perm _).mem_iff.mp hid)
  generalize sortTexts g.records.keys = ids at hall
  induction ids with
  | nil => rfl
  | cons id ids ih =>
    obtain ⟨r, hr⟩ := hall id List.mem_cons_self
    rw [List.filterMap_cons_some hr, List.map_cons, g.keyed id r hr,
      ih fun id hid => hall id (List.mem_cons_of_mem _ hid)]

theorem nodes_adjacency (g : Graph) :
    DepthFirst.nodes (adjacency g) = sortTexts g.records.keys := by
  rw [← map_orderedRecords]
  unfold DepthFirst.nodes adjacency
  rw [List.map_map]
  rfl

theorem mem_nodes {id : String} : id ∈ DepthFirst.nodes (adjacency g) ↔ id ∈ g.records.keys := by
  rw [nodes_adjacency]
  exact (sortTexts_perm _).mem_iff

theorem find_adjacency {a : String} {bs : List String} :
    Dict.find a (adjacency g) = some bs ↔ ∃ r, g.records.get? a = some r ∧
      bs = sortedSet (r.prerequisiteGoalIds ++ r.blockedByGoalIds ++ r.parentGoalIds) := by
  have hnodup : ((adjacency g).map Prod.fst).Nodup := by
    have hkeys := nodes_adjacency g
    unfold DepthFirst.nodes at hkeys
    rw [hkeys]
    exact (sortTexts_perm _).nodup_iff.mpr g.records.nodup
  rw [← Dict.mem_iff_find hnodup]
  unfold adjacency
  rw [List.mem_map]
  constructor
  · rintro ⟨r, hr, heq⟩
    cases heq
    exact ⟨r, mem_orderedRecords.mp hr, rfl⟩
  · rintro ⟨r, hr, rfl⟩
    obtain rfl := g.keyed a r hr
    exact ⟨r, mem_orderedRecords.mpr hr, rfl⟩

theorem edge_adjacency (g : Graph) : DepthFirst.Edge (adjacency g) = WaitsOn g := by
  funext a b
  unfold DepthFirst.Edge DepthFirst.next WaitsOn
  rw [List.mem_filter, decide_eq_true_iff, mem_nodes]
  refine propext ⟨?_, ?_⟩
  · rintro ⟨hb, hkey⟩
    cases hfind : Dict.find a (adjacency g) with
    | none =>
      rw [hfind] at hb
      cases hb
    | some bs =>
      obtain ⟨r, hr, rfl⟩ := find_adjacency.mp hfind
      rw [hfind, Option.getD_some, mem_sortedSet, List.mem_append, List.mem_append, or_assoc] at hb
      exact ⟨hkey, r, hr, hb⟩
  · rintro ⟨hkey, r, hr, hb⟩
    have hfind := find_adjacency.mpr ⟨r, hr, rfl⟩
    rw [hfind, Option.getD_some, mem_sortedSet, List.mem_append, List.mem_append, or_assoc]
    exact ⟨hb, hkey⟩

theorem nodes_subset (g : Graph) :
    DepthFirst.nodes (adjacency g) ⊆ sortTexts (DepthFirst.nodes (adjacency g)) :=
  (sortTexts_perm _).symm.subset

theorem detectCycles_isSome (g : Graph) : ∃ cycles, detectCycles g = some cycles :=
  Cycles.findCycles_isSome (sortTexts_perm _).subset

theorem mem_detectCycles {cycles : List (List String)} (h : detectCycles g = some cycles)
    {c : List String} :
    c ∈ cycles ↔
      ∃ body, Cycles.SimpleCycle (WaitsOn g) body ∧ c = canonicalCycle (Cycles.close body) := by
  rw [← edge_adjacency]
  exact Cycles.mem_findCycles (nodes_subset g) h

theorem detectCycles_eq_nil : detectCycles g = some [] ↔ Relations.Acyclic (WaitsOn g) := by
  obtain ⟨cycles, hcycles⟩ := detectCycles_isSome g
  rw [hcycles, Option.some_inj, ← edge_adjacency]
  exact Cycles.findCycles_eq_nil_iff (nodes_subset g) hcycles

/-! ## The order of registration -/

theorem detectCycles_congr {g' : Graph} (h : ∀ id, g.records.get? id = g'.records.get? id) :
    detectCycles g = detectCycles g' := by
  obtain ⟨cycles, hcycles⟩ := detectCycles_isSome g
  obtain ⟨cycles', hcycles'⟩ := detectCycles_isSome g'
  have hedge : DepthFirst.Edge (adjacency g) = DepthFirst.Edge (adjacency g') := by
    rw [edge_adjacency, edge_adjacency]
    funext a b
    unfold WaitsOn
    rw [Dict.mem_keys, Dict.mem_keys, h a, h b]
  rw [hcycles, hcycles',
    Cycles.findCycles_congr hedge (nodes_subset g) (nodes_subset g') hcycles hcycles']

/-- No goal has two different records among those of a list. -/
def OneEach (records : List DependencyRecord) : Prop :=
  ∀ r ∈ records, ∀ r' ∈ records, r.goalId = r'.goalId → r = r'

theorem get?_register (g : Graph) (r : DependencyRecord) (id : String) :
    (g.register r).records.get? id = if id = r.goalId then some r else g.records.get? id :=
  Dict.get?_set _ _ _ _

theorem get?_ofRecords {records : List DependencyRecord} (h : OneEach records) {id : String} :
    (ofRecords records).records.get? id = some r ↔ r ∈ records ∧ r.goalId = id := by
  unfold ofRecords
  induction records using List.reverseRecOn with
  | nil => simp [Graph.empty]
  | append_singleton records last ih =>
    have hsub : OneEach records := fun r hr r' hr' =>
      h r (List.mem_append_left _ hr) r' (List.mem_append_left _ hr')
    rw [List.foldl_append, List.foldl_cons, List.foldl_nil, get?_register, List.mem_append,
      List.mem_singleton]
    split
    · rename_i heq
      constructor
      · intro hsome
        cases hsome
        exact ⟨.inr rfl, heq.symm⟩
      · rintro ⟨hmem, hid⟩
        exact congrArg some (h last (by simp) r (List.mem_append.mpr (hmem.imp_right (by simp)))
          (by rw [hid, heq]))
    · rename_i hne
      rw [ih hsub]
      refine and_congr_left fun hid => ⟨.inl, fun hmem => hmem.resolve_right ?_⟩
      rintro rfl
      exact hne hid.symm

/-- The search comes to its end and reports the simple cycles of the registered goals, closed and
each in one rotation only: which of them it is depends on the cycle alone, and neither that nor
the order of the report depends on how the records came in. -/
theorem detectCycles_exact :
    (∀ g : Graph, ∃ cycles, detectCycles g = some cycles ∧ cycles.Nodup ∧
      ∀ c, c ∈ cycles ↔ ∃ body, Cycles.SimpleCycle (WaitsOn g) body ∧
        c = canonicalCycle (Cycles.close body)) ∧
    (∀ (g : Graph) (body body' : List String), Cycles.SimpleCycle (WaitsOn g) body →
      Cycles.SimpleCycle (WaitsOn g) body' →
        (canonicalCycle (Cycles.close body) = canonicalCycle (Cycles.close body') ↔
          body ~r body')) ∧
    (∀ g g' : Graph, (∀ id, g.records.get? id = g'.records.get? id) →
      detectCycles g = detectCycles g') ∧
    ∀ records records' : List DependencyRecord, OneEach records →
      (∀ r, r ∈ records ↔ r ∈ records') →
        detectCycles (ofRecords records) = detectCycles (ofRecords records') := by
  refine ⟨fun g => ?_, fun g body body' hbody hbody' => ?_, fun g g' => detectCycles_congr,
    fun records records' hone hsame => detectCycles_congr fun id => ?_⟩
  · obtain ⟨cycles, hcycles⟩ := detectCycles_isSome g
    exact ⟨cycles, hcycles, Cycles.nodup_findCycles hcycles, fun c => mem_detectCycles hcycles⟩
  · exact Cycles.canonicalCycle_eq_iff TextsLe hbody.nonempty hbody'.nonempty
  · have hone' : OneEach records' := fun r hr r' hr' =>
      hone r ((hsame r).mpr hr) r' ((hsame r').mpr hr')
    refine Option.ext fun r => ?_
    rw [get?_ofRecords hone, get?_ofRecords hone', hsame r]

/-! ## What validation lets through -/

/-- A pair that the children of a record declare and that the search does not follow. -/
def ChildOnly (g : Graph) (a b : String) : Prop :=
  ¬WaitsOn g a b ∧ ∃ r, g.records.get? b = some r ∧ a ∈ r.childGoalIds

/-- All that a record declares: a goal after its prerequisites and blockers, and a child after its
parent. -/
def Declared (g : Graph) (a b : String) : Prop :=
  (∃ r, g.records.get? a = some r ∧ (b ∈ r.prerequisiteGoalIds ∨ b ∈ r.blockedByGoalIds)) ∨
    (b, a) ∈ parentChildRelationships g

/-- Every goal that a record mentions is registered. -/
def AllRegistered (g : Graph) : Prop :=
  ∀ id r, g.records.get? id = some r → ∀ ref ∈ refsFor r, ∀ x ∈ ref.2, x ∈ g.records.keys

/-- What `validate` reports: a record that mentions itself or a goal that is not registered, or a
cycle of what the search follows. -/
def Reported (g : Graph) : Prop :=
  (∃ id r, g.records.get? id = some r ∧ ∃ ref ∈ refsFor r, ∃ x ∈ ref.2,
    x = id ∨ x ∉ g.records.keys) ∨ ¬Relations.Acyclic (WaitsOn g)

/-- A graph that `validate` accepts mentions registered goals only and declares no cycle. -/
def TellsTruth (g : Graph) : Prop :=
  ∀ v, validate g = some v → v.ok = true → AllRegistered g ∧ Relations.Acyclic (Declared g)

theorem mem_parentChildRelationships {p c : String} :
    (p, c) ∈ parentChildRelationships g ↔
      (∃ r, g.records.get? p = some r ∧ c ∈ r.childGoalIds) ∨
        ∃ r, g.records.get? c = some r ∧ p ∈ r.parentGoalIds := by
  unfold parentChildRelationships
  rw [(List.perm_insertionSort _ _).mem_iff, List.mem_eraseDups, List.mem_flatMap]
  unfold pairsOf
  constructor
  · rintro ⟨r, hr, hpair⟩
    have hget := mem_orderedRecords.mp hr
    rcases List.mem_append.mp hpair with hpair | hpair
    · obtain ⟨child, hchild, heq⟩ := List.mem_map.mp hpair
      cases heq
      exact .inl ⟨r, hget, hchild⟩
    · obtain ⟨parent, hparent, heq⟩ := List.mem_map.mp hpair
      cases heq
      exact .inr ⟨r, hget, hparent⟩
  · rintro (⟨r, hr, hc⟩ | ⟨r, hr, hp⟩)
    · obtain rfl := g.keyed p r hr
      exact ⟨r, mem_orderedRecords.mpr hr,
        List.mem_append_left _ (List.mem_map.mpr ⟨c, hc, rfl⟩)⟩
    · obtain rfl := g.keyed c r hr
      exact ⟨r, mem_orderedRecords.mpr hr,
        List.mem_append_right _ (List.mem_map.mpr ⟨p, hp, rfl⟩)⟩

theorem refError_eq_none {relation x : String} :
    refError g r relation x = none ↔ x ≠ r.goalId ∧ x ∈ g.records.keys := by
  unfold refError
  rw [Dict.mem_keys, ← Dict.contains_iff]
  by_cases hself : x = r.goalId
  · simp [hself]
  · by_cases hknown : g.records.contains x = true
    · simp [hself, hknown]
    · simp [hself, hknown]

theorem refErrors_eq_nil :
    refErrors g = [] ↔ ∀ id r, g.records.get? id = some r → ∀ ref ∈ refsFor r, ∀ x ∈ ref.2,
      x ≠ id ∧ x ∈ g.records.keys := by
  unfold refErrors
  rw [List.flatMap_eq_nil_iff]
  constructor
  · intro h id r hr ref href x hx
    obtain rfl := g.keyed id r hr
    have hnil := List.flatMap_eq_nil_iff.mp (h r (mem_orderedRecords.mpr hr)) ref href
    exact refError_eq_none.mp (List.filterMap_eq_nil_iff.mp hnil x hx)
  · intro h r hr
    refine List.flatMap_eq_nil_iff.mpr fun ref href => List.filterMap_eq_nil_iff.mpr fun x hx => ?_
    exact refError_eq_none.mpr (h r.goalId r (mem_orderedRecords.mp hr) ref href x hx)

theorem validate_ok_iff : (∃ v, validate g = some v ∧ v.ok = true) ↔ ¬Reported g := by
  obtain ⟨cycles, hcycles⟩ := detectCycles_isSome g
  have hok : (∃ v, validate g = some v ∧ v.ok = true) ↔ refErrors g = [] ∧ cycles = [] := by
    unfold validate
    rw [hcycles, Option.map_some]
    simp
  have hnil : cycles = [] ↔ Relations.Acyclic (WaitsOn g) := by
    rw [← detectCycles_eq_nil, hcycles, Option.some_inj]
  rw [hok, hnil, refErrors_eq_nil]
  unfold Reported
  rw [not_or, not_not]
  refine and_congr_left fun _ => ?_
  push Not
  rfl

theorem allRegistered_of_not_reported (h : ¬Reported g) : AllRegistered g := by
  intro id r hr ref href x hx
  by_contra hunknown
  exact h (.inl ⟨id, r, hr, ref, href, x, hx, .inr hunknown⟩)

/-- What a graph of registered goals declares is what the search follows and what only the parents
say. -/
theorem declared_eq (h : AllRegistered g) :
    Declared g = Relations.Joined (WaitsOn g) (ChildOnly g) := by
  funext a b
  unfold Declared Relations.Joined
  rw [mem_parentChildRelationships]
  refine propext ⟨?_, ?_⟩
  · rintro (⟨r, hr, hb | hb⟩ | ⟨r, hr, hchild⟩ | ⟨r, hr, hparent⟩)
    · have hkey :=
        h a r hr ("prerequisite_goal_ids", r.prerequisiteGoalIds) (by simp [refsFor]) b hb
      exact .inl ⟨hkey, r, hr, .inl hb⟩
    · have hkey := h a r hr ("blocked_by_goal_ids", r.blockedByGoalIds) (by simp [refsFor]) b hb
      exact .inl ⟨hkey, r, hr, .inr (.inl hb)⟩
    · by_cases hwaits : WaitsOn g a b
      · exact .inl hwaits
      · exact .inr ⟨hwaits, r, hr, hchild⟩
    · have hkey := h a r hr ("parent_goal_ids", r.parentGoalIds) (by simp [refsFor]) b hparent
      exact .inl ⟨hkey, r, hr, .inr (.inr hparent)⟩
  · rintro (⟨-, r, hr, hb | hb | hb⟩ | ⟨-, r, hr, hchild⟩)
    · exact .inl ⟨r, hr, .inl hb⟩
    · exact .inl ⟨r, hr, .inr hb⟩
    · exact .inr (.inr ⟨r, hr, hb⟩)
    · exact .inr (.inl ⟨r, hr, hchild⟩)

/-- Two goals that each name the other as their child. -/
def mutualChildren : Graph :=
  ofRecords [{ goalId := "A", childGoalIds := ["B"] }, { goalId := "B", childGoalIds := ["A"] }]

/-- Validation accepts a graph exactly if it reports nothing, and then the graph may still have a
cycle through a child that only its parent declares. -/
theorem tellsTruth_iff (g : Graph) :
    TellsTruth g ↔
      Reported g ∨ ∀ a b, ChildOnly g a b → ¬ReflTransGen (Declared g) b a := by
  by_cases hreported : Reported g
  · refine ⟨fun _ => .inl hreported, fun _ v hv hok => ?_⟩
    exact absurd hreported (validate_ok_iff.mp ⟨v, hv, hok⟩)
  · have hall := allRegistered_of_not_reported hreported
    have hwaits : Relations.Acyclic (WaitsOn g) := by
      by_contra hcycle
      exact hreported (.inr hcycle)
    have hacyclic : Relations.Acyclic (Declared g) ↔
        ∀ a b, ChildOnly g a b → ¬ReflTransGen (Declared g) b a := by
      rw [declared_eq hall, Relations.acyclic_joined]
      exact ⟨fun h => h.2, fun h => ⟨hwaits, h⟩⟩
    rw [← hacyclic]
    constructor
    · intro h
      obtain ⟨v, hv, hok⟩ := validate_ok_iff.mpr hreported
      exact .inr (h v hv hok).2
    · rintro (h | h) v hv hok
      · exact absurd h hreported
      · exact ⟨hall, h⟩

/-- Each of two goals is a child of the other, and nothing is reported. -/
theorem mutual_children_accepted : ¬TellsTruth mutualChildren := by
  intro h
  have hok : validate mutualChildren = some { ok := true, errors := [] } := by decide +kernel
  obtain ⟨-, hacyclic⟩ := h _ hok rfl
  have hpairs : ("A", "B") ∈ parentChildRelationships mutualChildren ∧
      ("B", "A") ∈ parentChildRelationships mutualChildren := by decide +kernel
  have hback : Declared mutualChildren "B" "A" := .inr hpairs.1
  have hthere : Declared mutualChildren "A" "B" := .inr hpairs.2
  exact hacyclic "A" (.head hthere (.single hback))

end DependencyGraph
end ZeroRuntime
