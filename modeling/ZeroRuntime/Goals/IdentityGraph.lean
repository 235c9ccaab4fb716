import ZeroRuntime.Goals.Faces
import ZeroRuntime.Lib.Merge

/-!
# ZeroRuntime.Goals.IdentityGraph

The identity graph of a record: the lineage, and what executed it, allowed it and bears it out
(`core/goals/goal_lineage_contract.py`). A field that is absent is the empty string.

* `canonicalGraph` reads the graph of a value, `Canonical` says what graphs are read, and
  `canonicalGraph_mapping` that one that is stored is read back as it was.
* `attach` stores a graph in a record, and each of its fields beside it.
* `assertConsistency` compares the graphs of values, where they name the same fields.
-/

namespace ZeroRuntime
namespace Goals

open Lib

def optionalIdentityFields : List String := ["execution_id", "capability_id", "evidence_id"]

def identityGraphFields : List String := goalLineageFields ++ optionalIdentityFields

structure IdentityGraph where
  lineage : GoalLineage
  executionId : String
  capabilityId : String
  evidenceId : String

namespace IdentityGraph

def field (g : IdentityGraph) (k : String) : String :=
  if k = "execution_id" then g.executionId
  else if k = "capability_id" then g.capabilityId
  else if k = "evidence_id" then g.evidenceId
  else g.lineage.field k

def fields (g : IdentityGraph) : List (String × String) :=
  identityGraphFields.map fun k => (k, g.field k)

/-- The fields that are there. -/
def named (g : IdentityGraph) : List (String × String) := g.fields.filter fun e => e.2 ≠ ""

def clean (g : IdentityGraph) : IdentityGraph :=
  ⟨g.lineage.clean, Text.strip g.executionId, Text.strip g.capabilityId, Text.strip g.evidenceId⟩

end IdentityGraph

/-- The non-blank values of a field must be one. -/
def optionalIdentity (srcs : List Entries) (field : String) : Except Err String :=
  match ((srcs.map fun s => (Val.getIn field s).text).filter (· ≠ "")).eraseDups with
  | [] => .ok ""
  | [v] => requiredIdentity field (.str v)
  | _ => .error (.valueError ("runtime_identity_graph_conflict:" ++ field))

def checkIdentity (e : String × String) : Except Err Unit :=
  if e.2 = "" then .ok () else (requiredIdentity e.1 (.str e.2)).map fun _ => ()

section Digest

variable (digest : Val → String)

def identityGraphFingerprint (graph : Entries) : String :=
  digest (.dict (identityGraphFields.filterMap fun k =>
    let text := (Val.getIn k graph).text
    if text = "" then none else some (k, .str text)))

def IdentityGraph.mapping (g : IdentityGraph) : Entries :=
  let canonical := g.named.map fun e => (e.1, Val.str e.2)
  canonical ++ [("identity_graph_fingerprint", .str (identityGraphFingerprint digest canonical))]

/-- `canonical_runtime_identity_graph` -/
def canonicalGraph (value : Val) : Except Err IdentityGraph :=
  match value with
  | .dict _ => do
    let lineage ← extractGoalLineage digest true value
    let srcs := sources nestedKeys value
    let executionId ← optionalIdentity srcs "execution_id"
    let capabilityId ← optionalIdentity srcs "capability_id"
    let evidenceId ← optionalIdentity srcs "evidence_id"
    let graph : IdentityGraph := ⟨lineage, executionId, capabilityId, evidenceId⟩
    graph.fields.forM checkIdentity
    .ok graph.clean
  | _ => .error (.valueError "runtime_identity_graph_requires_mapping")

/-- Two graphs may not differ in a field they both have. -/
def checkDrift (expected graph : IdentityGraph) : Except Err Unit :=
  identityGraphFields.forM fun k =>
    if expected.field k ≠ "" ∧ graph.field k ≠ "" ∧ expected.field k ≠ graph.field k then
      .error (.valueError ("runtime_identity_drift:" ++ k))
    else .ok ()

def attachField (result : Entries) (e : String × String) : Except Err Entries :=
  let explicit := (Val.getIn e.1 result).text
  if explicit ≠ "" ∧ explicit ≠ e.2 then .error (.valueError ("runtime_identity_drift:" ++ e.1))
  else .ok (Val.put e.1 (.str e.2) result)

/-- A graph that the record has already must agree. -/
def checkExisting (canonical : IdentityGraph) : Val → Except Err Unit
  | .dict existing => do
    let current ← canonicalGraph digest (.dict existing)
    checkDrift current canonical
  | _ => .ok ()

/-- `attach_runtime_identity_graph` -/
def attach (target : Entries) (graph : Val) : Except Err Entries := do
  let canonical ← canonicalGraph digest graph
  checkExisting digest canonical (Val.getIn "runtime_identity_graph" target)
  canonical.named.foldlM attachField
    (Val.put "runtime_identity_graph" (.dict (canonical.mapping digest)) target)

/-- The graph of a record, or else the record itself. -/
def graphOf (value : Entries) : Entries :=
  match Val.getIn "runtime_identity_graph" value with
  | .dict graph => graph
  | _ => value

def namesIdentity (candidate : Entries) : Bool :=
  identityGraphFields.any fun k => (Val.getIn k candidate).truthy

/-- The mappings that are compared. -/
def identityCandidates (values : List Val) : List Entries :=
  (values.filterMap fun value =>
    match value with
    | .dict kvs => some (graphOf kvs)
    | _ => none).filter namesIdentity

/-- `assert_runtime_identity_graph_consistency` -/
def assertConsistency (values : List Val) : Except Err IdentityGraph := do
  let graphs ← (identityCandidates values).mapM fun candidate =>
    canonicalGraph digest (.dict candidate)
  match graphs with
  | [] => .error (.valueError "runtime_identity_graph_required")
  | expected :: rest => do
    rest.forM (checkDrift expected)
    .ok expected

end Digest

/-! ## Fields of a graph -/

theorem forall_graphFields {p : String → Prop} :
    (∀ k ∈ identityGraphFields, p k) ↔
      (∀ k ∈ goalLineageFields, p k) ∧ p "execution_id" ∧ p "capability_id" ∧ p "evidence_id" := by
  unfold identityGraphFields optionalIdentityFields
  simp only [List.forall_mem_append, List.forall_mem_cons, List.not_mem_nil, false_imp_iff,
    implies_true, and_true]

theorem nodup_graphFields : identityGraphFields.Nodup := by decide

namespace IdentityGraph

theorem field_lineage (g : IdentityGraph) :
    ∀ k ∈ goalLineageFields, g.field k = g.lineage.field k :=
  forall_fields.mpr ⟨rfl, rfl, rfl, rfl, rfl, rfl, rfl, rfl⟩

theorem field_clean (g : IdentityGraph) :
    ∀ k ∈ identityGraphFields, g.clean.field k = Text.strip (g.field k) := by
  refine forall_graphFields.mpr ⟨fun k hk => ?_, rfl, rfl, rfl⟩
  rw [field_lineage _ k hk, field_lineage _ k hk]
  exact g.lineage.field_clean k hk

theorem ext_field {g g' : IdentityGraph} (h : ∀ k ∈ identityGraphFields, g.field k = g'.field k) :
    g = g' := by
  obtain ⟨hlineage, hexecution, hcapability, hevidence⟩ := forall_graphFields.mp h
  have hsame : g.lineage = g'.lineage := GoalLineage.ext_fields fun k hk => by
    rw [← field_lineage g k hk, ← field_lineage g' k hk]
    exact hlineage k hk
  cases g
  cases g'
  cases hsame
  cases hexecution
  cases hcapability
  cases hevidence
  rfl

theorem mem_named {g : IdentityGraph} {e : String × String} :
    e ∈ g.named ↔ e.1 ∈ identityGraphFields ∧ g.field e.1 = e.2 ∧ e.2 ≠ "" := by
  unfold named fields
  rw [List.mem_filter, List.mem_map, decide_eq_true_iff]
  constructor
  · rintro ⟨⟨k, hk, rfl⟩, hne⟩
    exact ⟨hk, rfl, hne⟩
  · rintro ⟨hk, hfield, hne⟩
    exact ⟨⟨e.1, hk, Prod.ext rfl hfield⟩, hne⟩

theorem nodup_named (g : IdentityGraph) : (g.named.map Prod.fst).Nodup := by
  have hfields : (g.fields.map Prod.fst).Nodup := by
    unfold fields
    rw [List.map_map]
    exact (List.map_id identityGraphFields).symm ▸ nodup_graphFields
  exact hfields.sublist (List.filter_sublist.map Prod.fst)

end IdentityGraph

/-! ## Reading a stored graph -/

section Read

variable {digest : Val → String} {g : IdentityGraph}

variable {es : List (String × String)} {k : String}

theorem find_texts (hnodup : (es.map Prod.fst).Nodup) {v : String} (h : (k, v) ∈ es) :
    Val.find k (es.map fun e => (e.1, Val.str e.2)) = some (.str v) := by
  have hmem : (k, Val.str v) ∈ es.map fun e => (e.1, Val.str e.2) := List.mem_map_of_mem h
  exact Val.find_of_mem (by rwa [List.map_map]) hmem

theorem find_texts_none (h : k ∉ es.map Prod.fst) :
    Val.find k (es.map fun e => (e.1, Val.str e.2)) = none := by
  refine Val.find_eq_none_iff.mpr ?_
  rwa [List.map_map]

/-- What a stored graph says of a key. -/
theorem getIn_mapping (hk : k ≠ "identity_graph_fingerprint") :
    Val.getIn k (g.mapping digest) =
      if k ∈ identityGraphFields ∧ g.field k ≠ "" then .str (g.field k) else .none := by
  unfold IdentityGraph.mapping Val.getIn
  rw [Val.find_append]
  split
  · rename_i h
    rw [find_texts g.nodup_named (IdentityGraph.mem_named.mpr ⟨h.1, rfl, h.2⟩)]
    rfl
  · rename_i h
    rw [find_texts_none]
    · unfold Val.find
      rw [if_neg hk]
      rfl
    · intro hmem
      obtain ⟨e, he, rfl⟩ := List.mem_map.mp hmem
      obtain ⟨hfield, hsame, hne⟩ := IdentityGraph.mem_named.mp he
      exact h ⟨hfield, hsame.symm ▸ hne⟩

theorem text_mapping (hk : k ≠ "identity_graph_fingerprint") :
    (Val.getIn k (g.mapping digest)).text =
      if k ∈ identityGraphFields then Text.strip (g.field k) else "" := by
  rw [getIn_mapping hk]
  by_cases hfield : k ∈ identityGraphFields
  · rw [if_pos hfield]
    by_cases hblank : g.field k = ""
    · rw [if_neg fun h => h.2 hblank, hblank]
      rfl
    · rw [if_pos ⟨hfield, hblank⟩, text_str]
  · rw [if_neg hfield, if_neg fun h => hfield h.1]
    rfl

/-- Nothing is nested in a stored graph. -/
theorem sources_mapping : sources nestedKeys (.dict (g.mapping digest)) = [g.mapping digest] := by
  rw [sources_eq_cons]
  refine congrArg (List.cons _) (List.flatMap_eq_nil_iff.mpr fun k hk => ?_)
  have hnone : ∀ k ∈ nestedKeys, k ≠ "identity_graph_fingerprint" ∧ k ∉ identityGraphFields := by
    decide
  obtain ⟨hne, hfield⟩ := hnone k hk
  rw [getIn_mapping hne, if_neg fun h => hfield h.1]
  rfl

theorem find_blank {texts : List String} (h : ∀ t ∈ texts, t = "") :
    texts.find? (fun t => t ≠ "") = none := by
  rw [List.find?_eq_none]
  intro t ht
  rw [h t ht]
  decide

/-- What is read of a field, under its own name or others. -/
theorem first_mapping {others : List String} (hk : k ∈ identityGraphFields)
    (hne : ∀ k' ∈ k :: others, k' ≠ "identity_graph_fingerprint")
    (hothers : ∀ k' ∈ others, k' ∉ identityGraphFields) :
    first [g.mapping digest] (k :: others) = Text.strip (g.field k) := by
  have hblank : ∀ t ∈ others.map fun f => (Val.getIn f (g.mapping digest)).text, t = "" := by
    intro t ht
    obtain ⟨k', hk', rfl⟩ := List.mem_map.mp ht
    rw [text_mapping (hne k' (List.mem_cons_of_mem _ hk')), if_neg (hothers k' hk')]
  have hown : (Val.getIn k (g.mapping digest)).text = Text.strip (g.field k) := by
    rw [text_mapping (hne k List.mem_cons_self), if_pos hk]
  unfold first
  rw [List.flatMap_singleton, List.map_cons, hown]
  by_cases hfield : Text.strip (g.field k) = ""
  · rw [hfield, List.find?_cons_of_neg (by decide), find_blank hblank]
    rfl
  · rw [List.find?_cons_of_pos (by simpa using hfield)]
    rfl

theorem first_mapping_none {fs : List String}
    (h : ∀ k ∈ fs, k ≠ "identity_graph_fingerprint" ∧ k ∉ identityGraphFields) :
    first [g.mapping digest] fs = "" := by
  unfold first
  rw [List.flatMap_singleton, find_blank]
  · rfl
  · intro t ht
    obtain ⟨k, hk, rfl⟩ := List.mem_map.mp ht
    rw [text_mapping (h k hk).1, if_neg (h k hk).2]

end Read

/-! ## The graphs that are read -/

/-- What is left blank in a lineage stays blank when it is read again. -/
structure Canonical (g : IdentityGraph) : Prop where
  stripped : ∀ k ∈ identityGraphFields, Text.strip (g.field k) = g.field k
  valid : ∀ k ∈ identityGraphFields, checkIdentity (k, g.field k) = .ok ()
  rooted : g.lineage.rootGoalId = "" → g.lineage.sourceGoalId = "" ∧ g.lineage.goalId = ""
  source : g.lineage.sourceGoalId = "" → g.lineage.rootGoalId = ""
  goal : g.lineage.goalId = "" → g.lineage.rootGoalId = ""
  named : g.lineage.goalLineageId = "" → g.lineage.rootGoalId = ""
  typed : g.lineage.branchType ≠ ""
  branched : g.lineage.branchId = "" → g.lineage.branchType = "continuation" ∨
    g.lineage.branchType = "replan" ∨ g.lineage.rootGoalId = ""

section Canonical

variable {digest : Val → String} {g : IdentityGraph}

theorem orText_self_or {a b : String} (h : a = "" → b = "") : orText a b = a := by
  unfold orText
  split
  · rfl
  · rename_i hblank
    have ha : a = "" := not_not.mp hblank
    rw [ha, h ha]

theorem lineageOf_stored (h : Canonical g) : lineageOf digest [g.mapping digest] = g.lineage := by
  have hfirst : ∀ k ∈ goalLineageFields, ∀ others : List String,
      (∀ k' ∈ others, k' ≠ "identity_graph_fingerprint" ∧ k' ∉ identityGraphFields) →
        first [g.mapping digest] (k :: others) = g.lineage.field k := by
    intro k hk others hothers
    rw [← g.field_lineage k hk, ← h.stripped k (List.mem_append_left _ hk)]
    refine first_mapping (List.mem_append_left _ hk) ?_ fun k' hk' => (hothers k' hk').2
    rw [List.forall_mem_cons]
    exact ⟨fun heq => absurd (heq ▸ hk) (by decide), fun k' hk' => (hothers k' hk').1⟩
  have hcontinuation : first [g.mapping digest]
      ["continuation_id", "continuation_task_id", "continuation_goal_id"] = "" :=
    first_mapping_none (by decide)
  have hreplan : first [g.mapping digest] ["replan_id", "replan_request_id"] = "" :=
    first_mapping_none (by decide)
  obtain ⟨-, -, hrooted, hsourced, hgoaled, hnamed, htyped, hbranched⟩ := h
  generalize g.mapping digest = m at *
  generalize g.lineage = l at *
  obtain ⟨root, source, goal, lineageId, branchType, branchId, session, runtime⟩ := l
  have hroot : first [m] ["root_goal_id"] = root := hfirst _ (by decide) [] (by decide)
  have hsource : first [m] ["source_goal_id", "continuation_source_goal_id"] = source :=
    hfirst _ (by decide) _ (by decide)
  have hgoal : first [m] ["goal_id", "child_goal_id"] = goal := hfirst _ (by decide) _ (by decide)
  have hlineage : first [m] ["goal_lineage_id"] = lineageId := hfirst _ (by decide) [] (by decide)
  have htype : first [m] ["branch_type"] = branchType := hfirst _ (by decide) [] (by decide)
  have hbranch : first [m] ["branch_id"] = branchId := hfirst _ (by decide) [] (by decide)
  have hsession : first [m] ["session_id", "operator_session_id",
      "persistent_operator_session_id"] = session := hfirst _ (by decide) _ (by decide)
  have hruntime : first [m] ["runtime_session_id"] = runtime := hfirst _ (by decide) [] (by decide)
  dsimp only at hrooted hsourced hgoaled hnamed htyped hbranched
  unfold lineageOf
  dsimp only
  rw [hroot, hsource, hgoal, hlineage, htype, hbranch, hsession, hruntime, hcontinuation, hreplan]
  have hroot' : orText root (orText source goal) = root := by
    refine orText_self_or fun hblank => ?_
    rw [(hrooted hblank).1, (hrooted hblank).2]
    rfl
  have hgoal' : orText goal source = goal :=
    orText_self_or fun hblank => (hrooted (hgoaled hblank)).1
  have hlineage' : orText lineageId
      (if root ≠ "" then buildGoalLineageId digest root session runtime else "") = lineageId :=
    orText_self_or fun hblank => if_neg (not_not.mpr (hnamed hblank))
  have hbranch' : orText branchId (if branchType = "continuation" then ""
      else if branchType = "replan" then "" else root) = branchId := by
    refine orText_self_or fun hblank => ?_
    split
    · rfl
    · rename_i hcont
      split
      · rfl
      · rename_i hrepl
        exact ((hbranched hblank).resolve_left hcont).resolve_left hrepl
  rw [hroot', orText_self_or hsourced, hgoal', hlineage', orText_of_ne htyped, hbranch']

theorem conflictingFields_single (s : Entries) (fields : List String) :
    conflictingFields [s] fields = [] := by
  unfold conflictingFields
  rw [List.filter_eq_nil_iff]
  intro k _
  rw [List.map_singleton]
  by_cases hblank : (Val.getIn k s).text = ""
  · simp [hblank]
  · simp [hblank, List.eraseDups_cons]

theorem extract_stored (h : Canonical g) :
    extractGoalLineage digest true (.dict (g.mapping digest)) = .ok g.lineage := by
  have hnone : Val.getIn "goal_lineage" (g.mapping digest) = .none := by
    rw [getIn_mapping (by decide), if_neg fun hk => absurd hk.1 (by decide)]
  have hsources : conflictSources (g.mapping digest) = [g.mapping digest] := by
    unfold conflictSources
    rw [hnone]
  unfold extractGoalLineage
  dsimp only
  rw [hsources, conflictingFields_single, sources_mapping, lineageOf_stored h]
  rfl

/-- The one value of an optional field. -/
theorem optionalIdentity_single {s : Entries} {k v : String} (hk : (Val.getIn k s).text = v)
    (hvalid : checkIdentity (k, v) = .ok ()) : optionalIdentity [s] k = .ok v := by
  have hstrip : Text.strip v = v := by rw [← hk, strip_text]
  unfold optionalIdentity
  rw [List.map_singleton, hk]
  by_cases hblank : v = ""
  · rw [hblank]
    rfl
  · have hone : ([v].filter fun t => t ≠ "").eraseDups = [v] := by
      simp [hblank, List.eraseDups_cons]
    rw [hone]
    unfold checkIdentity at hvalid
    rw [if_neg hblank] at hvalid
    obtain ⟨w, hw, -⟩ := map_eq_ok.mp hvalid
    dsimp only at hw ⊢
    rw [hw, (requiredIdentity_ok hw).1, text_str, hstrip]

theorem Canonical.clean (h : Canonical g) : g.clean = g := by
  refine IdentityGraph.ext_field fun k hk => ?_
  rw [g.field_clean k hk, h.stripped k hk]

/-- A graph that was stored is read back as it was. -/
theorem canonicalGraph_mapping (h : Canonical g) :
    canonicalGraph digest (.dict (g.mapping digest)) = .ok g := by
  have htext : ∀ k ∈ identityGraphFields, k ≠ "identity_graph_fingerprint" →
      (Val.getIn k (g.mapping digest)).text = g.field k := by
    intro k hk hne
    rw [text_mapping hne, if_pos hk, h.stripped k hk]
  have hoptional : ∀ k ∈ identityGraphFields, k ≠ "identity_graph_fingerprint" →
      optionalIdentity [g.mapping digest] k = .ok (g.field k) :=
    fun k hk hne => optionalIdentity_single (htext k hk hne) (h.valid k hk)
  have hexecution : optionalIdentity [g.mapping digest] "execution_id" = .ok g.executionId :=
    hoptional _ (by decide) (by decide)
  have hcapability : optionalIdentity [g.mapping digest] "capability_id" = .ok g.capabilityId :=
    hoptional _ (by decide) (by decide)
  have hevidence : optionalIdentity [g.mapping digest] "evidence_id" = .ok g.evidenceId :=
    hoptional _ (by decide) (by decide)
  have hcheck : g.fields.forM checkIdentity = .ok () := by
    refine forM_eq_ok.mpr fun e he => ?_
    obtain ⟨k, hk, rfl⟩ := List.mem_map.mp he
    exact h.valid k hk
  unfold canonicalGraph
  dsimp only
  rw [extract_stored h, sources_mapping, hexecution, hcapability, hevidence]
  change (do g.fields.forM checkIdentity; Except.ok g.clean) = _
  rw [hcheck, h.clean]
  rfl

theorem orText_eq_empty {a b : String} : orText a b = "" ↔ a = "" ∧ b = "" := by
  unfold orText
  split
  · rename_i hne
    exact ⟨fun h => absurd h hne, fun h => absurd h.1 hne⟩
  · rename_i hblank
    exact ⟨fun h => ⟨not_not.mp hblank, h⟩, fun h => h.2⟩

theorem buildGoalLineageId_ne (root session runtime : String) :
    buildGoalLineageId digest root session runtime ≠ "" := by
  unfold buildGoalLineageId
  intro h
  rw [String.append_eq_empty_iff] at h
  exact absurd h.1 (by decide)

theorem lineageOf_blank (digest : Val → String) (srcs : List Entries) :
    ((lineageOf digest srcs).rootGoalId = "" →
      (lineageOf digest srcs).sourceGoalId = "" ∧ (lineageOf digest srcs).goalId = "") ∧
    ((lineageOf digest srcs).sourceGoalId = "" → (lineageOf digest srcs).rootGoalId = "") ∧
    ((lineageOf digest srcs).goalId = "" → (lineageOf digest srcs).rootGoalId = "") ∧
    ((lineageOf digest srcs).goalLineageId = "" → (lineageOf digest srcs).rootGoalId = "") ∧
    (lineageOf digest srcs).branchType ≠ "" ∧
    ((lineageOf digest srcs).branchId = "" → (lineageOf digest srcs).branchType = "continuation" ∨
      (lineageOf digest srcs).branchType = "replan" ∨ (lineageOf digest srcs).rootGoalId = "") := by
  unfold lineageOf
  dsimp only
  refine ⟨?_, ?_, ?_, ?_, ?_, ?_⟩
  · intro h
    obtain ⟨hroot, hrest⟩ := orText_eq_empty.mp h
    obtain ⟨hsource, hgoal⟩ := orText_eq_empty.mp hrest
    rw [hroot, hsource, hgoal]
    exact ⟨rfl, rfl⟩
  · exact fun h => (orText_eq_empty.mp h).2
  · exact fun h => (orText_eq_empty.mp (orText_eq_empty.mp h).2).2
  · intro h
    by_contra hne
    have hbuilt := (orText_eq_empty.mp h).2
    rw [if_pos hne] at hbuilt
    exact buildGoalLineageId_ne _ _ _ hbuilt
  · intro h
    have hkind := (orText_eq_empty.mp h).2
    split at hkind
    · exact absurd hkind (by decide)
    · split at hkind <;> exact absurd hkind (by decide)
  · intro h
    have hbranch := (orText_eq_empty.mp h).2
    by_contra hne
    rw [not_or, not_or] at hne
    rw [if_neg hne.1, if_neg hne.2.1] at hbranch
    exact hne.2.2 hbranch

theorem checkIdentity_strip {k v : String} (h : checkIdentity (k, v) = .ok ()) :
    checkIdentity (k, Text.strip v) = .ok () ∧ (Text.strip v = "" → v = "") := by
  unfold checkIdentity at h ⊢
  dsimp only at h ⊢
  split at h
  · rename_i hblank
    rw [hblank]
    exact ⟨rfl, fun _ => rfl⟩
  · obtain ⟨w, hw, -⟩ := map_eq_ok.mp h
    have hne : Text.strip v ≠ "" := by
      rw [← text_str]
      exact (requiredIdentity_ok hw).2
    refine ⟨?_, fun hblank => absurd hblank hne⟩
    rw [if_neg hne]
    have hsame : requiredIdentity k (.str (Text.strip v)) = requiredIdentity k (.str v) := by
      unfold requiredIdentity
      rw [text_str, text_str, Text.strip_strip]
    rw [hsame, hw]
    rfl

/-- Every graph that is read is one that reads back. -/
theorem canonical_of_ok {value : Val} (h : canonicalGraph digest value = .ok g) : Canonical g := by
  unfold canonicalGraph at h
  split at h
  · rename_i kvs
    obtain ⟨lineage, hlineage, h⟩ := bind_eq_ok.mp h
    obtain ⟨executionId, -, h⟩ := bind_eq_ok.mp h
    obtain ⟨capabilityId, -, h⟩ := bind_eq_ok.mp h
    obtain ⟨evidenceId, -, h⟩ := bind_eq_ok.mp h
    obtain ⟨⟨⟩, hcheck, h⟩ := bind_eq_ok.mp h
    have hvalid : ∀ k ∈ identityGraphFields,
        checkIdentity (k, (IdentityGraph.mk lineage executionId capabilityId evidenceId).field k) =
          .ok () :=
      fun k hk => forM_eq_ok.mp hcheck _ (List.mem_map_of_mem hk)
    cases Except.ok.inj h
    rw [extractGoalLineage_ok hlineage] at hvalid ⊢
    obtain ⟨hrooted, hsourced, hgoaled, hnamed, htyped, hbranched⟩ :=
      lineageOf_blank digest (sources nestedKeys (.dict kvs))
    generalize lineageOf digest (sources nestedKeys (.dict kvs)) = l at *
    have hblank : ∀ k ∈ goalLineageFields, Text.strip (l.field k) = "" → l.field k = "" := by
      intro k hk
      have hk' := hvalid k (List.mem_append_left _ hk)
      rw [IdentityGraph.field_lineage _ k hk] at hk'
      exact (checkIdentity_strip hk').2
    obtain ⟨hroot, hsource, hgoal, hid, htype, hbranch, -, -⟩ := forall_fields.mp hblank
    have hstrip : Text.strip "" = "" := rfl
    refine ⟨fun k hk => ?_, fun k hk => ?_, fun h => ?_, fun h => ?_, fun h => ?_, fun h => ?_,
      fun h => ?_, fun h => ?_⟩
    · rw [IdentityGraph.field_clean _ k hk, Text.strip_strip]
    · rw [IdentityGraph.field_clean _ k hk]
      exact (checkIdentity_strip (hvalid k hk)).1
    · obtain ⟨hs, hg⟩ := hrooted (hroot h)
      exact ⟨(congrArg Text.strip hs).trans hstrip, (congrArg Text.strip hg).trans hstrip⟩
    · exact (congrArg Text.strip (hsourced (hsource h))).trans hstrip
    · exact (congrArg Text.strip (hgoaled (hgoal h))).trans hstrip
    · exact (congrArg Text.strip (hnamed (hid h))).trans hstrip
    · exact htyped (htype h)
    · refine (hbranched (hbranch h)).imp (fun hc => ?_) (Or.imp (fun hr => ?_) fun hr => ?_)
      · exact (congrArg Text.strip hc).trans (by decide)
      · exact (congrArg Text.strip hr).trans (by decide)
      · exact (congrArg Text.strip hr).trans hstrip
  · cases h

end Canonical

end Goals
end ZeroRuntime
