import ZeroRuntime.Lib.PathText
import ZeroRuntime.Missions.Replanned

/-!
# ZeroRuntime.Missions.Accepted

What a mission is like after a replan of any planner was accepted, staged and confirmed.

* `ValidAfter`: the mission is valid, its completed goals are as they were, its order has all its
  goals, the goals given up are gone, and the new ones keep to the scope.
* `Consistent`: the lists of the output agree with each other and with the mission, and its scopes
  stay where they say they are.
* `accepted_valid_iff`: the mission is valid afterwards exactly when the output was consistent.
-/

namespace ZeroRuntime
namespace Missions

open Lib Sessions

/-! ## The goals that are put together -/

def replannedGoals (m : Mission) (o : ReplannerOutput) : Goals :=
  putBack (revisedGoals m.missionId m.goals o) Dict.empty

/-- The goals that confirming leaves: completed ones take the place of new ones of their name. -/
def confirmedGoals (m : Mission) (o : ReplannerOutput) : Goals :=
  putBack (keptGoals m.goals m.completedGoalIds) (replannedGoals m o)

def newIds (o : ReplannerOutput) : List String := (newGoals o).map RevisedGoal.provisionalGoalId

variable {goals : Goals} {es : List (String × Goal)}

theorem goalsNamed_eq {ids : List String} (h : goalsNamed goals ids = .ok es) :
    es = keptGoals goals ids := by
  unfold keptGoals
  induction ids generalizing es with
  | nil =>
    cases h
    rfl
  | cons id ids ih =>
    rw [goalsNamed] at h
    split at h
    · cases h
    · rename_i g hg
      obtain ⟨rest, hrest, h⟩ := bind_eq_ok.mp h
      cases h
      rw [List.filterMap_cons_some (by rw [hg]; rfl), ← ih hrest]

/-- Entries with new keys are appended. -/
theorem entries_putBack (h : (goals.keys ++ es.map Prod.fst).Nodup) :
    (putBack es goals).entries = goals.entries ++ es := by
  unfold putBack
  induction es generalizing goals with
  | nil => exact (List.append_nil _).symm
  | cons e es ih =>
    rw [List.map_cons] at h
    have hnew : goals.contains e.1 = false := by
      rw [Bool.eq_false_iff]
      intro hmem
      have hkey : e.1 ∈ goals.keys := Dict.mem_keys.mpr (Dict.contains_iff.mp hmem)
      exact (List.nodup_append.mp h).2.2 e.1 hkey e.1 List.mem_cons_self rfl
    have hkeys : (goals.set e.1 e.2).keys = goals.keys ++ [e.1] := by
      unfold Dict.keys
      rw [Dict.entries_set_of_new hnew, List.map_append]
      rfl
    rw [List.foldl_cons, ih (by rw [hkeys]; simpa using h), Dict.entries_set_of_new hnew,
      List.append_assoc]
    rfl

/-- Putting back what is there already changes nothing. -/
theorem putBack_of_get? (h : ∀ e ∈ es, goals.get? e.1 = some e.2) : putBack es goals = goals := by
  unfold putBack
  induction es with
  | nil => rfl
  | cons e es ih =>
    rw [List.forall_mem_cons] at h
    rw [List.foldl_cons, Dict.set_of_get? h.1]
    exact ih h.2

section Digest

variable {F : MissionDigest} {m s c : Mission} {r : ReplanningRequest} {o : ReplannerOutput}

/-- The graph that was built has the goals that the output describes. -/
theorem goals_built {b : BuiltGraph}
    (hbuild : Buildable F.toGoalDigest m.missionId (revisedGoals m.missionId m.goals o))
    (hb : Built F.toGoalDigest m.missionId (revisedGoals m.missionId m.goals o) true b) :
    b.goals = replannedGoals m o := by
  refine Dict.ext_entries ?_
  have hnodup : ((Dict.empty : Goals).keys ++
      (revisedGoals m.missionId m.goals o).map Prod.fst).Nodup := hbuild.ids
  rw [hb.entries]
  unfold replannedGoals
  rw [entries_putBack hnodup]
  rfl

/-- What confirming an accepted output has made of the mission. -/
structure Confirmed (F : MissionDigest) (m : Mission) (o : ReplannerOutput) (c : Mission) :
    Prop where
  buildable : Buildable F.toGoalDigest m.missionId (revisedGoals m.missionId m.goals o)
  entries : (replannedGoals m o).entries = revisedGoals m.missionId m.goals o
  named : ∀ id ∈ m.completedGoalIds, id ∈ m.goals.keys
  goals : c.goals = confirmedGoals m o
  built : stableTopologicalOrder (replannedGoals m o) = .ok c.goalOrder
  graph : c.goalGraph =
    graphOf F.toGoalDigest m.missionId (replannedGoals m o) c.goalOrder true
  contract : c.contract = m.contract
  missionId : c.missionId = m.missionId
  fingerprint : c.missionFingerprint = F.mission (unsigned c)

theorem confirmed_of_ok {p : ReplanConfirmation} {later : Instant} (hs : Staged m r o s)
    (hc : confirmReplan F s p later = .ok c) : Confirmed F m o c := by
  obtain ⟨-, completed, b, hcompleted, hbuild, hbuilt, rfl⟩ := confirmReplan_ok hs hc
  obtain ⟨hids, hget⟩ := goalsNamed_ok hcompleted
  have hgoals := goals_built hbuild hbuilt
  refine
    { buildable := hbuild
      entries := hgoals ▸ hbuilt.entries
      named := fun id hid => ?_
      goals := ?_
      built := hgoals ▸ hbuilt.order
      graph := hgoals ▸ hbuilt.graph
      contract := hs.contract
      missionId := hs.missionId
      fingerprint := rfl }
  · rw [← hids] at hid
    obtain ⟨e, he, rfl⟩ := List.mem_map.mp hid
    exact Dict.mem_keys.mpr ⟨e.2, hget e he⟩
  · change putBack completed b.goals = _
    rw [goalsNamed_eq hcompleted, hgoals]
    rfl

/-- A completed goal is as the mission has it, any other as the output has it. -/
theorem get?_confirmedGoals (hc : Confirmed F m o c) (id : String) :
    c.goals.get? id =
      if id ∈ m.completedGoalIds then m.goals.get? id else (replannedGoals m o).get? id := by
  have hget : ∀ e ∈ keptGoals m.goals m.completedGoalIds, m.goals.get? e.1 = some e.2 :=
    fun e he => (mem_keptGoals.mp he).2
  rw [hc.goals]
  unfold confirmedGoals
  rw [get?_putBack hget, ids_keptGoals hc.named]

variable {id : String}

theorem get?_replannedGoals (hc : Confirmed F m o c) {g : Goal} :
    (replannedGoals m o).get? id = some g ↔ (id, g) ∈ revisedGoals m.missionId m.goals o := by
  rw [← hc.entries, Dict.mem_entries]

theorem keys_replannedGoals (hc : Confirmed F m o c) :
    id ∈ (replannedGoals m o).keys ↔
      (id ∈ o.unchangedGoalIds ∧ id ∈ m.goals.keys) ∨ id ∈ newIds o := by
  unfold Dict.keys newIds
  rw [hc.entries]
  unfold revisedGoals
  rw [List.map_append, List.mem_append, List.map_map]
  refine or_congr ?_ Iff.rfl
  rw [List.mem_map]
  constructor
  · rintro ⟨e, he, rfl⟩
    obtain ⟨hid, hg⟩ := mem_keptGoals.mp he
    exact ⟨hid, Dict.mem_keys.mpr ⟨_, hg⟩⟩
  · rintro ⟨hid, hkey⟩
    obtain ⟨g, hg⟩ := Dict.mem_keys.mp hkey
    exact ⟨(id, g), mem_keptGoals.mpr ⟨hid, hg⟩, rfl⟩

theorem keys_confirmedGoals (hc : Confirmed F m o c) :
    id ∈ c.goals.keys ↔ id ∈ m.completedGoalIds ∨ id ∈ (replannedGoals m o).keys := by
  rw [Dict.mem_keys, get?_confirmedGoals hc]
  by_cases hid : id ∈ m.completedGoalIds
  · rw [if_pos hid]
    exact iff_of_true (Dict.mem_keys.mp (hc.named id hid)) (.inl hid)
  · rw [if_neg hid, ← Dict.mem_keys]
    exact (or_iff_right hid).symm

/-! ## Valid afterwards -/

/-- What an accepted replan is to leave. -/
structure ValidAfter (F : MissionDigest) (m : Mission) (r : ReplanningRequest)
    (o : ReplannerOutput) (c : Mission) : Prop where
  valid : validateMission F c = []
  completed : ∀ id g, m.goals.get? id = some g → g.goalStatus = .completed →
    c.goals.get? id = some g
  order : c.goalOrder.Perm c.goals.keys
  removed : ∀ id ∈ o.removedGoalIds, id ∉ c.goals.keys
  scope : ∀ g ∈ newGoals o, ∀ s ∈ g.targetScope,
    ∃ a ∈ r.allowedRevisionScope, PathText.LiesIn s a

/-- The scope is not what its text says: it goes up, starts at the top, or is not checked at all. -/
def Unchecked (r : ReplanningRequest) (scope : String) : Prop :=
  r.allowedRevisionScope = [] ∨ ".." ∈ PathText.segments scope ∨
    PathText.isAbsolute scope = true

/-- What the lists of an output, which are checked one by one, must be to each other. -/
structure Consistent (m : Mission) (r : ReplanningRequest) (o : ReplannerOutput) : Prop where
  listed : ∀ id ∈ m.completedGoalIds, id ∈ o.unchangedGoalIds ∨ id ∈ newIds o
  kept : ∀ id g, m.goals.get? id = some g → g.goalStatus = .completed →
    id ∈ m.completedGoalIds ∨ id ∈ o.unchangedGoalIds
  renamed : (∃ id ∈ newIds o, id ∈ m.completedGoalIds) →
    stableTopologicalOrder (confirmedGoals m o) = stableTopologicalOrder (replannedGoals m o)
  removed : ∀ id ∈ o.removedGoalIds, id ∉ newIds o ∧
    (id ∈ o.unchangedGoalIds → id ∉ m.goals.keys)
  scope : ∀ g ∈ newGoals o, ∀ s ∈ g.targetScope, Unchecked r s →
    ∃ a ∈ r.allowedRevisionScope, PathText.LiesIn s a

theorem validateMission_eq_nil {m : Mission} : validateMission F m = [] ↔
    m.contract = missionContract ∧ m.missionFingerprint = F.mission (unsigned m) ∧
      m.goalGraph.contract = goalGraphContract ∧
        m.goalGraph.graphFingerprint = F.graph { m.goalGraph with graphFingerprint := "" } ∧
          stableTopologicalOrder m.goals = .ok m.goalGraph.goalOrder ∧
            ∀ id g, m.goals.get? id = some g → validateGoal m.missionId id g = [] := by
  unfold validateMission validateGoalGraph
  have hgoals : (m.goals.entries.flatMap fun e => validateGoal m.missionId e.1 e.2) = [] ↔
      ∀ id g, m.goals.get? id = some g → validateGoal m.missionId id g = [] := by
    rw [List.flatMap_eq_nil_iff]
    exact ⟨fun h id g hg => h (id, g) (Dict.mem_entries.mpr hg),
      fun h e he => h e.1 e.2 (Dict.mem_entries.mp he)⟩
  simp only [List.append_eq_nil_iff, hgoals, reasonIf_eq_nil, ne_eq, not_not, and_assoc]
  cases stableTopologicalOrder m.goals with
  | error e => simp
  | ok order => simp only [reasonIf_eq_nil, not_not, Except.ok.injEq]

/-- Confirming leaves nothing to find but the order of the goals. -/
theorem validateMission_confirmed (hm : validateMission F m = []) (hc : Confirmed F m o c) :
    validateMission F c = [] ↔
      stableTopologicalOrder c.goals = stableTopologicalOrder (replannedGoals m o) := by
  obtain ⟨hcontract, -, -, -, -, hgoals⟩ := validateMission_eq_nil.mp hm
  have hvalid : ∀ id g, c.goals.get? id = some g → validateGoal c.missionId id g = [] := by
    intro id g hg
    rw [hc.missionId]
    rw [get?_confirmedGoals hc] at hg
    split at hg
    · exact hgoals id g hg
    · exact hc.buildable.valid (id, g) ((get?_replannedGoals hc).mp hg)
  have hgraph : c.goalGraph.contract = goalGraphContract ∧ c.goalGraph.goalOrder = c.goalOrder ∧
      c.goalGraph.graphFingerprint = F.graph { c.goalGraph with graphFingerprint := "" } := by
    rw [hc.graph]
    exact ⟨rfl, rfl, rfl⟩
  obtain ⟨hgraphContract, hgraphOrder, hgraphFingerprint⟩ := hgraph
  rw [validateMission_eq_nil, hc.built, hgraphOrder]
  constructor
  · rintro ⟨-, -, -, -, horder, -⟩
    exact horder
  · intro horder
    exact ⟨hc.contract.trans hcontract, hc.fingerprint, hgraphContract, hgraphFingerprint, horder,
      hvalid⟩

/-- The goals that an output describes are in its order. -/
theorem mem_goalOrder (hc : Confirmed F m o c) :
    id ∈ c.goalOrder ↔ id ∈ (replannedGoals m o).keys :=
  (stableTopologicalOrder_ok hc.built).mem_iff

/-- Completed goals that are all kept are there already. -/
theorem confirmedGoals_of_kept (hc : Confirmed F m o c)
    (h : ∀ id ∈ m.completedGoalIds, id ∈ o.unchangedGoalIds) :
    confirmedGoals m o = replannedGoals m o := by
  unfold confirmedGoals
  refine putBack_of_get? fun e he => ?_
  obtain ⟨hid, hg⟩ := mem_keptGoals.mp he
  rw [get?_replannedGoals hc]
  exact List.mem_append_left _ (mem_keptGoals.mpr ⟨h e.1 hid, hg⟩)

variable {t : Option Instant}

theorem scope_of_validate (h : validateReplannerOutput F o r m t = []) :
    ∀ g ∈ newGoals o, r.allowedRevisionScope ≠ [] → ∀ s ∈ g.targetScope,
      ∃ a ∈ r.allowedRevisionScope, inScope s a = true := by
  unfold validateReplannerOutput at h
  rw [sortedSet_eq_nil] at h
  simp only [List.append_eq_nil_iff, reasonIf_eq_nil] at h
  obtain ⟨⟨-, hscope⟩, -⟩ := h
  intro g hg hallowed s hs
  by_contra hout
  refine hscope ⟨g, hg, ?_⟩
  unfold scopeExpanded
  rw [Bool.and_eq_true]
  exact ⟨by simpa using hallowed, List.any_eq_true.mpr ⟨s, hs, by simpa using hout⟩⟩

theorem removed_of_validate (h : validateReplannerOutput F o r m t = []) :
    ∀ id ∈ o.removedGoalIds, id ∉ r.completedGoalIds := by
  unfold validateReplannerOutput at h
  rw [sortedSet_eq_nil] at h
  simp only [List.append_eq_nil_iff, reasonIf_eq_nil] at h
  obtain ⟨⟨⟨⟨-, hremoved⟩, -⟩, -⟩, -⟩ := h
  exact fun id hid hdone => hremoved ⟨id, hdone, hid⟩

theorem liesIn_of_inScope {s a : String} (hs : ¬Unchecked r s) (h : inScope s a = true) :
    PathText.LiesIn s a := by
  unfold Unchecked at hs
  rw [not_or, not_or] at hs
  obtain ⟨-, hplain, hrelative⟩ := hs
  unfold inScope at h
  rcases Bool.or_eq_true_iff.mp h with h | h
  · rw [beq_iff_eq.mp h]
    exact PathText.liesIn_refl a
  · exact PathText.liesIn_of_prefix hplain (by simpa using hrelative) h

theorem consistent_of_valid (hm : validateMission F m = []) (hc : Confirmed F m o c)
    (h : ValidAfter F m r o c) : Consistent m r o where
  listed := by
    intro id hid
    have hkey : id ∈ c.goals.keys := (keys_confirmedGoals hc).mpr (.inl hid)
    have hnew := (mem_goalOrder hc).mp (h.order.mem_iff.mpr hkey)
    exact ((keys_replannedGoals hc).mp hnew).imp_left And.left
  kept := by
    intro id g hg hstatus
    have hafter := h.completed id g hg hstatus
    rw [get?_confirmedGoals hc] at hafter
    split at hafter
    · rename_i hid
      exact .inl hid
    · rw [get?_replannedGoals hc] at hafter
      rcases List.mem_append.mp hafter with hkept | hnew
      · exact .inr (mem_keptGoals.mp hkept).1
      · obtain ⟨x, -, heq⟩ := List.mem_map.mp hnew
        cases heq
        cases hstatus
  renamed := by
    intro _
    rw [← hc.goals]
    exact (validateMission_confirmed hm hc).mp h.valid
  removed := by
    intro id hid
    have hgone := h.removed id hid
    rw [keys_confirmedGoals hc, keys_replannedGoals hc, not_or, not_or] at hgone
    exact ⟨hgone.2.2, fun hkept hkey => hgone.2.1 ⟨hkept, hkey⟩⟩
  scope := fun g hg s hs _ => h.scope g hg s hs

theorem valid_of_consistent (hm : validateMission F m = []) (hc : Confirmed F m o c)
    (hcompleted : r.completedGoalIds = m.completedGoalIds)
    (hvalid : validateReplannerOutput F o r m t = []) (h : Consistent m r o) :
    ValidAfter F m r o c where
  valid := by
    rw [validateMission_confirmed hm hc, hc.goals]
    by_cases hrenamed : ∃ id ∈ newIds o, id ∈ m.completedGoalIds
    · exact h.renamed hrenamed
    · rw [confirmedGoals_of_kept hc fun id hid => ?_]
      exact (h.listed id hid).resolve_right fun hnew => hrenamed ⟨id, hnew, hid⟩
  completed := by
    intro id g hg hstatus
    rw [get?_confirmedGoals hc]
    split
    · exact hg
    · rename_i hid
      have hkept := (h.kept id g hg hstatus).resolve_left hid
      rw [get?_replannedGoals hc]
      exact List.mem_append_left _ (mem_keptGoals.mpr ⟨hkept, hg⟩)
  order := by
    have hperm := stableTopologicalOrder_ok hc.built
    have hnodup := hperm.nodup_iff.mpr (nodup_keys (replannedGoals m o))
    refine (List.perm_ext_iff_of_nodup hnodup (nodup_keys c.goals)).mpr fun id => ?_
    rw [mem_goalOrder hc, keys_confirmedGoals hc]
    refine (or_iff_right_of_imp fun hid => ?_).symm
    rw [keys_replannedGoals hc]
    exact (h.listed id hid).imp_left fun hkept => ⟨hkept, hc.named id hid⟩
  removed := by
    intro id hid
    obtain ⟨hnew, hkept⟩ := h.removed id hid
    rw [keys_confirmedGoals hc, keys_replannedGoals hc, not_or, not_or]
    refine ⟨fun hdone => ?_, fun hboth => hkept hboth.1 hboth.2, hnew⟩
    exact removed_of_validate hvalid id hid (hcompleted ▸ hdone)
  scope := by
    intro g hg s hs
    by_cases hunchecked : Unchecked r s
    · exact h.scope g hg s hs hunchecked
    · have hallowed : r.allowedRevisionScope ≠ [] := fun hnil => hunchecked (.inl hnil)
      obtain ⟨a, ha, hin⟩ := scope_of_validate hvalid g hg hallowed s hs
      exact ⟨a, ha, liesIn_of_inScope hunchecked hin⟩

/-- A replan that was accepted and confirmed leaves the mission valid exactly when its output is
consistent. -/
theorem accepted_valid_iff {instruction : String} {scope : List String} {now : Instant}
    {t : Option Instant} {clock later : Instant} {p : ReplanConfirmation}
    (hm : validateMission F m = [])
    (hr : createReplanningRequest F m instruction scope now = .ok r)
    (hs : stageReplan F m r o t clock = .ok s) (hc : confirmReplan F s p later = .ok c) :
    ValidAfter F m r o c ↔ Consistent m r o := by
  obtain ⟨hvalid, -, hstaged⟩ := stageReplan_ok hs
  have hconfirmed := confirmed_of_ok hstaged hc
  exact ⟨consistent_of_valid hm hconfirmed,
    valid_of_consistent hm hconfirmed (requestFor_of_ok hr).completed hvalid⟩

end Digest

/-! ## Outputs of a planner -/

/-- An output that adds a goal in the scope `scope` and keeps the goals of `unchanged`. -/
def plannerOutput (unchanged removed : List String) (scope : String) : ReplannerOutput where
  contract := replannerOutputContract
  replannerOutputId := "output"
  replanningRequestId := "replanning-request-request:mission"
  missionId := "mission"
  revisionNumber := 1
  unchangedGoalIds := unchanged
  removedGoalIds := removed
  replacementGoals := []
  addedGoals :=
    [{ provisionalGoalId := "c", title := "Third", description := "Third", goalType := "modify"
       targetScope := [scope] }]
  revisedDependencies := []
  revisedGoalOrder := unchanged ++ ["c"]
  preservedCompletedGoals := ["a"]
  scopeDelta := { added := [], removed := [] }
  riskDelta := []
  generatedAt := 0
  expiresAt := replanningLifetime
  outputFingerprint := "output:mission"

def sealedSample : Mission :=
  sealMission sampleDigest (sampleMission .partiallyCompleted .completed .failed)

theorem accepted_valid_sample : ∃ r s c,
    createReplanningRequest sampleDigest sealedSample "" ["src"] 0 = .ok r ∧
    stageReplan sampleDigest sealedSample r (plannerOutput ["a"] ["b"] "src/lib") none 0 = .ok s ∧
    confirmReplan sampleDigest s (matchingConfirmation r (plannerOutput ["a"] ["b"] "src/lib")) 0 =
      .ok c ∧
    ValidAfter sampleDigest sealedSample r (plannerOutput ["a"] ["b"] "src/lib") c := by
  obtain ⟨r, s, c, hr, hs, hc, hscope⟩ : ∃ r s c,
      createReplanningRequest sampleDigest sealedSample "" ["src"] 0 = .ok r ∧
      stageReplan sampleDigest sealedSample r (plannerOutput ["a"] ["b"] "src/lib") none 0 =
        .ok s ∧
      confirmReplan sampleDigest s
        (matchingConfirmation r (plannerOutput ["a"] ["b"] "src/lib")) 0 = .ok c ∧
      r.allowedRevisionScope = ["src"] := ⟨_, _, _, rfl, rfl, rfl, rfl⟩
  refine ⟨r, s, c, hr, hs, hc, ?_⟩
  refine (accepted_valid_iff (by decide +kernel) hr hs hc).mpr ⟨?_, ?_, ?_, ?_, ?_⟩
  · decide +kernel
  · intro id g hg hstatus
    rcases get?_sampleGoals hg with ⟨rfl, rfl⟩ | ⟨rfl, rfl⟩
    · exact .inl (by decide +kernel)
    · cases hstatus
  · intro hrenamed
    revert hrenamed
    decide +kernel
  · decide +kernel
  · intro g hg s hs _
    obtain rfl := List.mem_singleton.mp hg
    obtain rfl := List.mem_singleton.mp hs
    rw [hscope]
    exact ⟨"src", List.mem_cons_self, by decide +kernel⟩

/-- An accepted output may keep the goal that it gives up, and its scope may lead out again. -/
theorem removed_goal_stays_and_scope_leads_out : ∃ r s c,
    createReplanningRequest sampleDigest sealedSample "" ["src"] 0 = .ok r ∧
    validateReplannerOutput sampleDigest (plannerOutput ["a", "b"] ["b"] "src/../etc") r
      sealedSample none = [] ∧
    stageReplan sampleDigest sealedSample r (plannerOutput ["a", "b"] ["b"] "src/../etc") none 0 =
      .ok s ∧
    confirmReplan sampleDigest s
      (matchingConfirmation r (plannerOutput ["a", "b"] ["b"] "src/../etc")) 0 = .ok c ∧
    "b" ∈ c.goals.keys ∧
    ¬∃ a ∈ r.allowedRevisionScope, PathText.LiesIn "src/../etc" a := by
  refine ⟨_, _, _, rfl, by decide +kernel, rfl, rfl, by decide +kernel, ?_⟩
  rintro ⟨a, ha, hin⟩
  obtain rfl := List.mem_singleton.mp ha
  revert hin
  decide +kernel

end Missions
end ZeroRuntime
