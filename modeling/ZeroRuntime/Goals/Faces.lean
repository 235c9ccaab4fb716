import ZeroRuntime.Goals.Repository

/-!
# ZeroRuntime.Goals.Faces

What a record shows of its goal: its id, its status, when it was created, and its lineage.

* `Face` keeps what is true of them in every record: they are cleaned, and the lineage is complete
  and of the goal.
* `toRecord_ok`: every record that is made has a face; `readLineage_field`: a lineage field that a
  mapping names is the one that is read.
-/

namespace ZeroRuntime
namespace Goals

open Lib

/-! ## Numbers and texts -/

theorem text_str (s : String) : (Val.str s).text = Text.strip s := by
  unfold Val.text
  split
  · rfl
  · rename_i h
    have hs : s = "" := by
      by_contra hne
      exact h (decide_eq_true hne)
    rw [hs]
    rfl

theorem strip_text (x : Val) : Text.strip x.text = x.text := by
  unfold Val.text
  split
  · exact Text.strip_strip _
  · rfl

theorem truthy_of_text {x : Val} (h : x.text ≠ "") : x.truthy = true := by
  by_contra hfalse
  unfold Val.text at h
  exact h (if_neg hfalse)

theorem isNumeral_strip (s : String) : isNumeral (Text.strip s) = isNumeral s := by
  unfold isNumeral
  rw [Text.strip_strip]

theorem asFloat_isFloat {value default x : Val} (hdefault : IsFloat default)
    (h : asFloat value default = .ok x) : IsFloat x := by
  have hof : ∀ {t : String} {b b' : Bool} {c : Bool}, (c = true → isNumeral t = true) →
      IsFloat (if c = true then .other t b b' else default) := by
    intro t b b' c hc
    cases c with
    | false => exact hdefault
    | true =>
      rw [if_pos rfl]
      intro d
      change Except.ok (if isNumeral t = true then Val.other t b b' else d) = _
      rw [if_pos (hc rfl)]
  cases value with
  | bool b =>
    unfold asFloat at h
    rw [← Except.ok.inj h]
    exact fun _ => rfl
  | int n =>
    unfold asFloat at h
    dsimp only at h
    by_cases hlarge : floatBound ≤ n.natAbs
    · rw [if_pos hlarge] at h
      exact absurd h (by simp only [reduceCtorEq, not_false_eq_true])
    · rw [if_neg hlarge] at h
      rw [← Except.ok.inj h]
      intro d
      unfold asFloat
      exact if_neg hlarge
  | str s =>
    unfold asFloat at h
    rw [← Except.ok.inj h]
    exact hof fun hs => (isNumeral_strip s).trans hs
  | other t b b' =>
    unfold asFloat at h
    rw [← Except.ok.inj h]
    exact hof fun ht => ht
  | none =>
    unfold asFloat at h
    rw [← Except.ok.inj h]
    exact hdefault
  | list xs =>
    unfold asFloat at h
    rw [← Except.ok.inj h]
    exact hdefault
  | dict kvs =>
    unfold asFloat at h
    rw [← Except.ok.inj h]
    exact hdefault

/-- Floats are no containers. -/
theorem sorted_of_isFloat {x : Val} (h : IsFloat x) : x.sorted = x := by
  cases x with
  | list xs => cases h .none
  | dict kvs => cases h .none
  | _ => rfl

/-! ## Lineages -/

def GoalLineage.field (l : GoalLineage) (k : String) : String :=
  ((l.fields.find? fun e => e.1 = k).map Prod.snd).getD ""

def GoalLineage.clean (l : GoalLineage) : GoalLineage where
  rootGoalId := Text.strip l.rootGoalId
  sourceGoalId := Text.strip l.sourceGoalId
  goalId := Text.strip l.goalId
  goalLineageId := Text.strip l.goalLineageId
  branchType := Text.strip l.branchType
  branchId := Text.strip l.branchId
  sessionId := Text.strip l.sessionId
  runtimeSessionId := Text.strip l.runtimeSessionId

theorem forall_fields {p : String → Prop} :
    (∀ k ∈ goalLineageFields, p k) ↔
      p "root_goal_id" ∧ p "source_goal_id" ∧ p "goal_id" ∧ p "goal_lineage_id" ∧
        p "branch_type" ∧ p "branch_id" ∧ p "session_id" ∧ p "runtime_session_id" := by
  unfold goalLineageFields
  simp only [List.forall_mem_cons, List.not_mem_nil, false_imp_iff, implies_true, and_true]

variable {l : GoalLineage}

theorem GoalLineage.ext_fields {l' : GoalLineage}
    (h : ∀ k ∈ goalLineageFields, l.field k = l'.field k) : l = l' := by
  obtain ⟨h₁, h₂, h₃, h₄, h₅, h₆, h₇, h₈⟩ := forall_fields.mp h
  cases l
  cases l'
  cases h₁
  cases h₂
  cases h₃
  cases h₄
  cases h₅
  cases h₆
  cases h₇
  cases h₈
  rfl

theorem GoalLineage.field_clean (l : GoalLineage) :
    ∀ k ∈ goalLineageFields, l.clean.field k = Text.strip (l.field k) :=
  forall_fields.mpr ⟨rfl, rfl, rfl, rfl, rfl, rfl, rfl, rfl⟩

/-- Every field is there, and is stripped. -/
def GoalLineage.Complete (l : GoalLineage) : Prop :=
  ∀ k ∈ goalLineageFields, l.field k ≠ "" ∧ Text.strip (l.field k) = l.field k

theorem GoalLineage.Complete.clean (h : l.Complete) : l.clean = l := by
  refine GoalLineage.ext_fields fun k hk => ?_
  rw [l.field_clean k hk, (h k hk).2]

/-- No field is blank. -/
def GoalLineage.Nonblank (l : GoalLineage) : Prop :=
  ∀ k ∈ goalLineageFields, Text.strip (l.field k) ≠ ""

theorem GoalLineage.Nonblank.complete_clean (h : l.Nonblank) : l.clean.Complete := by
  intro k hk
  rw [l.field_clean k hk, Text.strip_strip]
  exact ⟨h k hk, rfl⟩

theorem GoalLineage.getIn_mapping (l : GoalLineage) :
    ∀ k ∈ goalLineageFields, Val.getIn k l.mapping = .str (l.field k) :=
  forall_fields.mpr ⟨rfl, rfl, rfl, rfl, rfl, rfl, rfl, rfl⟩

theorem first_head {s : Entries} {srcs : List Entries} {f : String} {fs : List String}
    (h : (Val.getIn f s).text ≠ "") : first (s :: srcs) (f :: fs) = (Val.getIn f s).text := by
  unfold first
  rw [List.flatMap_cons, List.map_cons, List.cons_append, List.find?_cons_of_pos (by simpa using h)]
  rfl

theorem orText_of_ne {a b : String} (h : a ≠ "") : orText a b = a := if_pos h

/-- A field that the outermost mapping names is the one of the lineage. -/
theorem field_lineageOf (digest : Val → String) (kvs : Entries) (rest : List Entries) :
    ∀ k ∈ goalLineageFields, (Val.getIn k kvs).text ≠ "" →
      (lineageOf digest (kvs :: rest)).field k = (Val.getIn k kvs).text := by
  refine forall_fields.mpr ⟨?_, ?_, ?_, ?_, ?_, ?_, ?_, ?_⟩
  · intro h
    change orText (first (kvs :: rest) ["root_goal_id"]) _ = _
    rw [first_head h, orText_of_ne h]
  · intro h
    change orText (first (kvs :: rest) ["source_goal_id", "continuation_source_goal_id"]) _ = _
    rw [first_head h, orText_of_ne h]
  · intro h
    change orText (first (kvs :: rest) ["goal_id", "child_goal_id"]) _ = _
    rw [first_head h, orText_of_ne h]
  · intro h
    change orText (first (kvs :: rest) ["goal_lineage_id"]) _ = _
    rw [first_head h, orText_of_ne h]
  · intro h
    change orText (first (kvs :: rest) ["branch_type"]) _ = _
    rw [first_head h, orText_of_ne h]
  · intro h
    change orText (first (kvs :: rest) ["branch_id"]) _ = _
    rw [first_head h, orText_of_ne h]
  · intro h
    change first (kvs :: rest) ["session_id", "operator_session_id",
      "persistent_operator_session_id"] = _
    rw [first_head h]
  · intro h
    change first (kvs :: rest) ["runtime_session_id"] = _
    rw [first_head h]

theorem sources_dict (keys : List String) (kvs : Entries) :
    ∃ rest, sources keys (.dict kvs) = kvs :: rest := ⟨_, rfl⟩

/-- A mapping that names every field has that lineage. -/
theorem lineageOf_complete (digest : Val → String) {kvs : Entries} (hl : l.Complete)
    (h : ∀ k ∈ goalLineageFields, (Val.getIn k kvs).text = l.field k) (keys : List String) :
    lineageOf digest (sources keys (.dict kvs)) = l := by
  obtain ⟨rest, hrest⟩ := sources_dict keys kvs
  rw [hrest]
  refine GoalLineage.ext_fields fun k hk => ?_
  have hk' := h k hk
  rw [field_lineageOf digest kvs rest k hk (by rw [hk']; exact (hl k hk).1), hk']

theorem lineageOf_mapping (digest : Val → String) (hl : l.Nonblank) (keys : List String) :
    lineageOf digest (sources keys (.dict l.mapping)) = l.clean := by
  refine lineageOf_complete digest hl.complete_clean (fun k hk => ?_) keys
  rw [l.getIn_mapping k hk, text_str, l.field_clean k hk]

/-! ## The lineage that is read -/

section Digest

variable {digest : Val → String} {textDigest : String → String}

theorem requiredIdentity_ok {field v : String} {value : Val}
    (h : requiredIdentity field value = .ok v) : v = value.text ∧ value.text ≠ "" := by
  unfold requiredIdentity at h
  split at h
  · cases h
  · rename_i hvalid
    exact ⟨(Except.ok.inj h).symm, fun hblank => hvalid (.inl hblank)⟩

variable {l : GoalLineage}

theorem requireComplete_ok {l' : GoalLineage} (h : requireComplete l = .ok l') :
    l' = l ∧ ∀ k ∈ goalLineageFields, l.field k ≠ "" := by
  unfold requireComplete at h
  dsimp only at h
  split at h
  · rename_i hmissing
    refine ⟨(Except.ok.inj h).symm, ?_⟩
    have hne : ∀ e ∈ l.fields, e.2 ≠ "" := by
      intro e he hblank
      have hmem : e.1 ∈ (l.fields.filter fun e => e.2 = "").map Prod.fst :=
        List.mem_map.mpr ⟨e, List.mem_filter.mpr ⟨he, decide_eq_true hblank⟩, rfl⟩
      rw [hmissing] at hmem
      cases hmem
    refine forall_fields.mpr ⟨?_, ?_, ?_, ?_, ?_, ?_, ?_, ?_⟩
    · exact hne ("root_goal_id", _) (by simp [GoalLineage.fields])
    · exact hne ("source_goal_id", _) (by simp [GoalLineage.fields])
    · exact hne ("goal_id", _) (by simp [GoalLineage.fields])
    · exact hne ("goal_lineage_id", _) (by simp [GoalLineage.fields])
    · exact hne ("branch_type", _) (by simp [GoalLineage.fields])
    · exact hne ("branch_id", _) (by simp [GoalLineage.fields])
    · exact hne ("session_id", _) (by simp [GoalLineage.fields])
    · exact hne ("runtime_session_id", _) (by simp [GoalLineage.fields])
  · cases h

theorem requireComplete_isOk (h : ∀ k ∈ goalLineageFields, l.field k ≠ "") :
    requireComplete l = .ok l := by
  unfold requireComplete
  dsimp only
  rw [if_pos]
  obtain ⟨h₁, h₂, h₃, h₄, h₅, h₆, h₇, h₈⟩ := forall_fields.mp h
  have hfilter : (l.fields.filter fun e => e.2 = "") = [] := by
    rw [List.filter_eq_nil_iff]
    intro e he
    simp only [GoalLineage.fields, List.mem_cons, List.not_mem_nil, or_false] at he
    rw [decide_eq_true_eq]
    rcases he with rfl | rfl | rfl | rfl | rfl | rfl | rfl | rfl
    · exact h₁
    · exact h₂
    · exact h₃
    · exact h₄
    · exact h₅
    · exact h₆
    · exact h₇
    · exact h₈
  rw [hfilter]
  rfl

theorem extractGoalLineage_ok {rejectConflicts : Bool} {kvs : Entries}
    (h : extractGoalLineage digest rejectConflicts (.dict kvs) = .ok l) :
    l = lineageOf digest (sources nestedKeys (.dict kvs)) := by
  unfold extractGoalLineage at h
  dsimp only at h
  split at h
  · cases h
  · exact (Except.ok.inj h).symm

theorem canonicalRuntimeIdentityGraph_ok {l' : GoalLineage}
    (h : canonicalRuntimeIdentityGraph digest l = .ok l') :
    l'.Complete ∧ ∀ k ∈ goalLineageFields, Text.strip (l.field k) ≠ "" →
      l'.field k = Text.strip (l.field k) := by
  unfold canonicalRuntimeIdentityGraph at h
  obtain ⟨graph, hgraph, h⟩ := bind_eq_ok.mp h
  obtain ⟨v₁, h₁, h⟩ := bind_eq_ok.mp h
  obtain ⟨v₂, h₂, h⟩ := bind_eq_ok.mp h
  obtain ⟨v₃, h₃, h⟩ := bind_eq_ok.mp h
  obtain ⟨v₄, h₄, h⟩ := bind_eq_ok.mp h
  obtain ⟨v₅, h₅, h⟩ := bind_eq_ok.mp h
  obtain ⟨v₆, h₆, h⟩ := bind_eq_ok.mp h
  obtain ⟨v₇, h₇, h⟩ := bind_eq_ok.mp h
  obtain ⟨v₈, h₈, h⟩ := bind_eq_ok.mp h
  have hfields : ∀ k ∈ goalLineageFields,
      l'.field k = (Val.str (graph.field k)).text ∧ (Val.str (graph.field k)).text ≠ "" := by
    rw [← Except.ok.inj h]
    exact forall_fields.mpr ⟨requiredIdentity_ok h₁, requiredIdentity_ok h₂,
      requiredIdentity_ok h₃, requiredIdentity_ok h₄, requiredIdentity_ok h₅,
      requiredIdentity_ok h₆, requiredIdentity_ok h₇, requiredIdentity_ok h₈⟩
  refine ⟨fun k hk => ?_, fun k hk hne => ?_⟩
  · rw [(hfields k hk).1, strip_text]
    exact ⟨(hfields k hk).2, rfl⟩
  · have htext : (Val.getIn k l.mapping).text = Text.strip (l.field k) := by
      rw [l.getIn_mapping k hk, text_str]
    obtain ⟨rest, hrest⟩ := sources_dict nestedKeys l.mapping
    rw [(hfields k hk).1, extractGoalLineage_ok hgraph, hrest,
      field_lineageOf digest _ rest k hk (by rw [htext]; exact hne), htext, text_str,
      Text.strip_strip]

variable {value : Entries}

theorem readLineage_nonblank {goalId : String}
    (h : readLineage digest textDigest value goalId = .ok l) (hgoal : Text.strip goalId = goalId) :
    l.Nonblank ∧ l.goalId = goalId := by
  unfold readLineage at h
  split at h
  · obtain ⟨extracted, -, h⟩ := bind_eq_ok.mp h
    obtain ⟨full, -, h⟩ := bind_eq_ok.mp h
    obtain ⟨canonical, hcanonical, h⟩ := bind_eq_ok.mp h
    split at h
    · cases h
    · rename_i hsame
      have heq := Except.ok.inj h
      rw [← heq]
      refine ⟨fun k hk => ?_, not_not.mp hsame⟩
      obtain ⟨hne, hstrip⟩ := (canonicalRuntimeIdentityGraph_ok hcanonical).1 k hk
      rw [hstrip]
      exact hne
  · unfold createRootGoalLineage at h
    obtain ⟨goal, hgoalOk, h⟩ := bind_eq_ok.mp h
    obtain ⟨session, hsession, h⟩ := bind_eq_ok.mp h
    obtain ⟨runtimeSession, hruntime, h⟩ := bind_eq_ok.mp h
    have hof : ∀ {field v : String} {value : Val}, requiredIdentity field value = .ok v →
        Text.strip v ≠ "" := by
      intro field v value hok
      obtain ⟨hv, hne⟩ := requiredIdentity_ok hok
      rw [hv, strip_text]
      exact hne
    have hid : Text.strip (buildGoalLineageId digest goal session runtimeSession) ≠ "" := by
      refine Text.strip_ne_empty (c := 'g') ?_ (by decide)
      unfold buildGoalLineageId
      rw [String.toList_append]
      exact List.mem_append_left _ (by decide)
    have hroot : Text.strip "root" ≠ "" := by decide
    have heq := Except.ok.inj h
    rw [← heq]
    refine ⟨forall_fields.mpr ⟨hof hgoalOk, hof hgoalOk, hof hgoalOk, hid, hroot, hof hgoalOk,
      hof hsession, hof hruntime⟩, ?_⟩
    dsimp only
    rw [(requiredIdentity_ok hgoalOk).1, text_str, hgoal]

/-- A field that the mapping names is the one that is read. -/
theorem readLineage_field {goalId : String} (h : readLineage digest textDigest value goalId = .ok l)
    {k : String} (hk : k ∈ goalLineageFields) (hgoal : k ≠ "goal_id")
    (hne : (Val.getIn k value).text ≠ "") : l.clean.field k = (Val.getIn k value).text := by
  have hexplicit : explicitLineage value = true := by
    unfold explicitLineage
    rw [Bool.or_eq_true]
    exact .inr (List.any_eq_true.mpr
      ⟨k, List.mem_filter.mpr ⟨hk, decide_eq_true hgoal⟩, truthy_of_text hne⟩)
  unfold readLineage at h
  rw [if_pos hexplicit] at h
  obtain ⟨extracted, hextracted, h⟩ := bind_eq_ok.mp h
  obtain ⟨full, hfull, h⟩ := bind_eq_ok.mp h
  obtain ⟨canonical, hcanonical, h⟩ := bind_eq_ok.mp h
  split at h
  · cases h
  · obtain ⟨rest, hrest⟩ := sources_dict nestedKeys value
    have hfield : extracted.field k = (Val.getIn k value).text := by
      rw [extractGoalLineage_ok hextracted, hrest]
      exact field_lineageOf digest value rest k hk hne
    have hstrip : Text.strip (extracted.field k) = extracted.field k := by
      rw [hfield, strip_text]
    have heq := Except.ok.inj h
    rw [(requireComplete_ok hfull).1] at hcanonical
    obtain ⟨hcomplete, hkept⟩ := canonicalRuntimeIdentityGraph_ok hcanonical
    rw [← heq, hcomplete.clean, hkept k hk (by rw [hstrip, hfield]; exact hne), hstrip, hfield]

/-! ## Records -/

/-- `attach_goal_lineage` of a lineage that was read. -/
theorem attachGoalLineage_isOk (hl : l.Nonblank) (target : Entries) :
    ∃ record, attachGoalLineage digest target l = .ok record ∧
      (∀ k ∈ goalLineageFields, Val.getIn k record = .str (l.clean.field k)) ∧
      Val.getIn "goal_lineage" record = .dict l.clean.mapping ∧
      (∀ k, k ∉ goalLineageFields → k ≠ "goal_lineage" →
        Val.getIn k record = Val.getIn k target) ∧
      ((target.map Prod.fst).Nodup → (record.map Prod.fst).Nodup) := by
  have hextract : extractGoalLineage digest false (.dict l.mapping) = .ok l.clean := by
    unfold extractGoalLineage
    dsimp only
    rw [lineageOf_mapping digest hl]
    rfl
  refine ⟨_, bind_eq_ok.mpr ⟨l.clean, hextract, bind_eq_ok.mpr ⟨l.clean,
    requireComplete_isOk fun k hk => (hl.complete_clean k hk).1, rfl⟩⟩, ?_, ?_, ?_, ?_⟩
  · refine forall_fields.mpr ⟨?_, ?_, ?_, ?_, ?_, ?_, ?_, ?_⟩
    all_goals
      unfold GoalLineage.fields
      simp only [List.foldl_cons, List.foldl_nil, Val.getIn_put, reduceIte]
      rfl
  · unfold GoalLineage.fields
    simp [List.foldl_cons, List.foldl_nil, Val.getIn_put]
  · intro k hk hnested
    unfold goalLineageFields at hk
    simp only [List.mem_cons, List.not_mem_nil, or_false, not_or] at hk
    obtain ⟨h₁, h₂, h₃, h₄, h₅, h₆, h₇, h₈⟩ := hk
    unfold GoalLineage.fields
    simp only [List.foldl_cons, List.foldl_nil, Val.getIn_put, if_neg h₁, if_neg h₂, if_neg h₃,
      if_neg h₄, if_neg h₅, if_neg h₆, if_neg h₇, if_neg h₈, if_neg hnested]
  · intro hnodup
    unfold GoalLineage.fields
    simp only [List.foldl_cons, List.foldl_nil]
    exact Val.nodup_put (Val.nodup_put (Val.nodup_put (Val.nodup_put (Val.nodup_put (Val.nodup_put
      (Val.nodup_put (Val.nodup_put (Val.nodup_put hnodup))))))))

/-- What a record shows of its goal. -/
structure Face where
  goalId : String
  status : String
  createdAt : Val
  lineage : GoalLineage
  goalId_ne : goalId ≠ ""
  goalId_strip : Text.strip goalId = goalId
  status_ne : status ≠ ""
  status_strip : Text.strip status = status
  status_lower : Text.lower status = status
  createdAt_isFloat : IsFloat createdAt
  lineage_complete : lineage.Complete
  lineage_goalId : lineage.goalId = goalId

/-- The record shows the face. -/
structure Face.Of (f : Face) (record : Entries) : Prop where
  status : Val.getIn "status" record = .str f.status
  createdAt : Val.getIn "created_at" record = f.createdAt
  lineage : ∀ k ∈ goalLineageFields, Val.getIn k record = .str (f.lineage.field k)
  nested : Val.getIn "goal_lineage" record = .dict f.lineage.mapping
  keys : (record.map Prod.fst).Nodup

variable {record : Entries}

variable {f : Face}

theorem Face.Of.goalId (h : f.Of record) : Val.getIn "goal_id" record = .str f.goalId := by
  rw [h.lineage "goal_id" (by decide), ← f.lineage_goalId]
  rfl

/-- The status that `from_mapping` reads. -/
def readStatus (value : Entries) : String :=
  Text.lower (cleanText (Val.getIn "status" value) "pending")

theorem strip_cleanText {value : Val} {default : String} (h : Text.strip default = default) :
    Text.strip (cleanText value default) = cleanText value default := by
  unfold cleanText orText
  split
  · exact strip_text value
  · exact h

theorem readStatus_ne (value : Entries) : readStatus value ≠ "" := by
  unfold readStatus cleanText orText
  rw [ne_eq, Text.lower_eq_empty]
  split
  · rename_i h
    exact h
  · decide

variable {clock : Clock} {g : EngineeringGoal}

theorem fromMapping_ok (h : fromMapping digest textDigest clock value = .ok g) :
    g.goalId = cleanText (firstTruthy [Val.getIn "goal_id" value, Val.getIn "task_id" value,
      Val.getIn "package_id" value]) "" ∧ g.goalId ≠ "" ∧ g.status = readStatus value ∧
    asFloat (Val.getIn "created_at" value) clock.seconds = .ok g.createdAt ∧
    readLineage digest textDigest value g.goalId = .ok g.goalLineage := by
  unfold fromMapping at h
  dsimp only at h
  split at h
  · cases h
  · rename_i hid
    split at h
    · cases h
    · obtain ⟨l, hl, h⟩ := bind_eq_ok.mp h
      obtain ⟨_, -, h⟩ := bind_eq_ok.mp h
      obtain ⟨priority, -, h⟩ := bind_eq_ok.mp h
      obtain ⟨createdAt, hcreated, h⟩ := bind_eq_ok.mp h
      obtain ⟨updatedAt, -, h⟩ := bind_eq_ok.mp h
      rw [← Except.ok.inj h]
      exact ⟨rfl, hid, rfl, hcreated, hl⟩

/-- A record that is made shows a face, whose parts are those the mapping was read to. -/
theorem toRecord_ok (h : toRecord digest textDigest clock value = .ok (g, record)) :
    ∃ f : Face, f.Of record ∧ f.goalId = g.goalId ∧ f.status = readStatus value ∧
      g.goalId = cleanText (firstTruthy [Val.getIn "goal_id" value, Val.getIn "task_id" value,
        Val.getIn "package_id" value]) "" ∧
      asFloat (Val.getIn "created_at" value) clock.seconds = .ok f.createdAt ∧
      ∃ l, readLineage digest textDigest value g.goalId = .ok l ∧ f.lineage = l.clean := by
  unfold toRecord at h
  obtain ⟨g', hg', h⟩ := bind_eq_ok.mp h
  obtain ⟨record', hrecord', h⟩ := bind_eq_ok.mp h
  obtain ⟨rfl, rfl⟩ := Prod.mk.inj (Except.ok.inj h)
  obtain ⟨hid, hne, hstatus, hcreated, hlineage⟩ := fromMapping_ok hg'
  have hstrip : Text.strip g'.goalId = g'.goalId := by
    rw [hid]
    exact strip_cleanText rfl
  obtain ⟨hnonblank, hgoal⟩ := readLineage_nonblank hlineage hstrip
  unfold EngineeringGoal.asDict at hrecord'
  obtain ⟨made, hmade, hfields, hnested, hothers, hkeys⟩ := attachGoalLineage_isOk hnonblank
    [("schema", .str engineeringGoalRecordSchema), ("goal_id", .str g'.goalId),
      ("summary", .str g'.summary), ("status", .str g'.status), ("priority", g'.priority),
      ("created_at", g'.createdAt), ("updated_at", g'.updatedAt),
      ("description", .str g'.description),
      ("payload", .dict (payloadDefaults g'.summary g'.goalId g'.payload)),
      ("metadata", .dict g'.metadata)]
  have hsame : made = record' := Except.ok.inj (hmade.symm.trans hrecord')
  rw [← hsame]
  have hclean : Text.strip (cleanText (Val.getIn "status" value) "pending") =
      cleanText (Val.getIn "status" value) "pending" := strip_cleanText (by decide)
  have hnodup : ["schema", "goal_id", "summary", "status", "priority", "created_at", "updated_at",
      "description", "payload", "metadata"].Nodup := by decide
  refine ⟨⟨g'.goalId, g'.status, g'.createdAt, g'.goalLineage.clean, hne, hstrip, ?_, ?_, ?_,
    asFloat_isFloat clock.isFloat hcreated, hnonblank.complete_clean, ?_⟩, ⟨?_, ?_, hfields,
    hnested, hkeys hnodup⟩, rfl, hstatus, hid, hcreated, g'.goalLineage, hlineage, rfl⟩
  · rw [hstatus]
    exact readStatus_ne value
  · rw [hstatus]
    unfold readStatus
    rw [Text.strip_lower, hclean]
  · rw [hstatus]
    exact Text.lower_lower _
  · exact (congrArg Text.strip hgoal).trans hstrip
  · exact hothers "status" (by decide) (by decide)
  · exact hothers "created_at" (by decide) (by decide)

theorem toRecord_again (h : toRecord digest textDigest clock value = .ok (g, record))
    (hid : Val.getIn "goal_id" value = .str f.goalId)
    (hcreated : Val.getIn "created_at" value = f.createdAt) :
    g.goalId = f.goalId ∧ ∃ f' : Face, f'.Of record ∧ f'.goalId = f.goalId ∧
      f'.status = readStatus value ∧ f'.createdAt = f.createdAt ∧
      ∃ l, readLineage digest textDigest value f.goalId = .ok l ∧ f'.lineage = l.clean := by
  obtain ⟨f', hof, hid', hstatus', hgoal, hcreated', l, hl, hlineage⟩ := toRecord_ok h
  have hsame : g.goalId = f.goalId := by
    have htruthy : (Val.str f.goalId).truthy = true := decide_eq_true f.goalId_ne
    rw [hgoal, hid]
    unfold firstTruthy Val.orElse cleanText
    rw [if_pos htruthy, text_str, f.goalId_strip, orText_of_ne f.goalId_ne]
  rw [hcreated, f.createdAt_isFloat] at hcreated'
  rw [hsame] at hl
  exact ⟨hsame, f', hof, hid'.trans hsame, hstatus', (Except.ok.inj hcreated').symm, l, hl,
    hlineage⟩

/-! ## Records of the file -/

/-- A record of the file: it is read back with the keys of its mappings sorted. -/
def Face.Stored (f : Face) (r : Entries) : Prop := ∃ record, f.Of record ∧ r = Val.sortedEntries record

theorem getIn_sortedEntries (hkeys : (record.map Prod.fst).Nodup) (k : String) :
    Val.getIn k (Val.sortedEntries record) = (Val.getIn k record).sorted := by
  unfold Val.getIn
  rw [Val.find_sortedEntries hkeys]
  cases Val.find k record with
  | none => rfl
  | some x => rfl

/-- What the file shows of a face. -/
structure Face.Shown (f : Face) (r : Entries) : Prop where
  status : Val.getIn "status" r = .str f.status
  createdAt : Val.getIn "created_at" r = f.createdAt
  lineage : ∀ k ∈ goalLineageFields, Val.getIn k r = .str (f.lineage.field k)
  nested : Val.getIn "goal_lineage" r = .dict (Val.sortedEntries f.lineage.mapping)

variable {r : Entries}

theorem Face.Stored.shown (h : f.Stored r) : f.Shown r := by
  obtain ⟨record, hof, rfl⟩ := h
  refine ⟨?_, ?_, fun k hk => ?_, ?_⟩
  · rw [getIn_sortedEntries hof.keys, hof.status]
    rfl
  · rw [getIn_sortedEntries hof.keys, hof.createdAt]
    exact sorted_of_isFloat f.createdAt_isFloat
  · rw [getIn_sortedEntries hof.keys, hof.lineage k hk]
    rfl
  · rw [getIn_sortedEntries hof.keys, hof.nested]
    rfl

theorem Face.Shown.goalId (h : f.Shown r) : Val.getIn "goal_id" r = .str f.goalId := by
  rw [h.lineage "goal_id" (by decide), ← f.lineage_goalId]
  rfl

/-- A record of the file is read to one with the same face. -/
theorem Face.Stored.read (h : f.Stored r)
    (hread : toRecord digest textDigest clock r = .ok (g, record)) :
    g.goalId = f.goalId ∧ f.Of record := by
  have hshown := h.shown
  obtain ⟨hid, f', hof, hid', hstatus', hcreated', l, hl, hlineage'⟩ :=
    toRecord_again hread hshown.goalId hshown.createdAt
  have hstatus : f'.status = f.status := by
    rw [hstatus']
    unfold readStatus cleanText
    rw [hshown.status, text_str, f.status_strip, orText_of_ne f.status_ne, f.status_lower]
  have hlineage : f'.lineage = f.lineage := by
    refine GoalLineage.ext_fields fun k hk => ?_
    have htext : (Val.getIn k r).text = f.lineage.field k := by
      rw [hshown.lineage k hk, text_str, (f.lineage_complete k hk).2]
    by_cases hgoal : k = "goal_id"
    · rw [hgoal]
      exact f'.lineage_goalId.trans (hid'.trans f.lineage_goalId.symm)
    · rw [hlineage', readLineage_field hl hk hgoal (by
        rw [htext]
        exact (f.lineage_complete k hk).1), htext]
  refine ⟨hid, ⟨?_, ?_, fun k hk => ?_, ?_, hof.keys⟩⟩
  · rw [hof.status, hstatus]
  · rw [hof.createdAt, hcreated']
  · rw [hof.lineage k hk, hlineage]
  · rw [hof.nested, hlineage]

end Digest

end Goals
end ZeroRuntime
