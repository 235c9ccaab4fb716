import ZeroRuntime.Missions.Replanner

/-!
# ZeroRuntime.Missions.Staging

What staging and confirming a replan do to a mission.

* `stageReplan_ok`, `stageReplan_isOk`: a valid output is staged on a mission that may wait for the
  confirmation; the goals stay as they are.
* `confirmReplan_ok`, `confirmReplan_isOk`: confirming builds the graph of the kept and the new
  goals and puts the completed goals back.
* `normalized_revised`: the items of the new graph, with nothing left to fill in.
-/

namespace ZeroRuntime
namespace Missions

open Lib Sessions

/-! ## Goals named by their ids -/

variable {goals : Goals}

variable {ids : List String}

theorem goalsNamed_ok {es : List (String × Goal)} (h : goalsNamed goals ids = .ok es) :
    es.map Prod.fst = ids ∧ ∀ e ∈ es, goals.get? e.1 = some e.2 := by
  induction ids generalizing es with
  | nil =>
    cases h
    exact ⟨rfl, fun _ he => absurd he List.not_mem_nil⟩
  | cons id ids ih =>
    rw [goalsNamed] at h
    split at h
    · cases h
    · rename_i g hg
      obtain ⟨rest, hrest, h⟩ := bind_eq_ok.mp h
      cases h
      obtain ⟨hids, hget⟩ := ih hrest
      refine ⟨by rw [List.map_cons, hids], ?_⟩
      rw [List.forall_mem_cons]
      exact ⟨hg, hget⟩

theorem goalsNamed_isOk (h : ∀ id ∈ ids, id ∈ goals.keys) :
    ∃ es, goalsNamed goals ids = .ok es := by
  induction ids with
  | nil => exact ⟨[], rfl⟩
  | cons id ids ih =>
    rw [List.forall_mem_cons] at h
    obtain ⟨g, hg⟩ := Dict.mem_keys.mp h.1
    obtain ⟨rest, hrest⟩ := ih h.2
    refine ⟨(id, g) :: rest, ?_⟩
    rw [goalsNamed, hg, hrest]
    rfl

/-! ## The items of the new graph -/

def RevisedGoal.goal (missionId : String) (x : RevisedGoal) : Goal where
  missionId := missionId
  goalTitle := x.title
  goalDescription := x.description
  goalType := x.goalType
  goalStatus := .pending
  priority := x.priority
  dependsOn := x.dependsOn
  requiredCapabilities := x.requiredCapabilities
  targetScope := x.targetScope
  acceptanceCriteria := x.acceptanceCriteria
  validationRequirements := x.validationRequirements
  maxAttempts := x.maxAttempts

/-- The goals of `ids` that are there. -/
def keptGoals (goals : Goals) (ids : List String) : List (String × Goal) :=
  ids.filterMap fun id => (goals.get? id).map fun g => (id, g)

def revisedGoals (missionId : String) (goals : Goals) (o : ReplannerOutput) :
    List (String × Goal) :=
  keptGoals goals o.unchangedGoalIds ++
    (newGoals o).map fun x => (x.provisionalGoalId, x.goal missionId)

theorem mem_keptGoals {e : String × Goal} :
    e ∈ keptGoals goals ids ↔ e.1 ∈ ids ∧ goals.get? e.1 = some e.2 := by
  unfold keptGoals
  rw [List.mem_filterMap]
  constructor
  · rintro ⟨id, hid, h⟩
    obtain ⟨g, hg, rfl⟩ := Option.map_eq_some_iff.mp h
    exact ⟨hid, hg⟩
  · rintro ⟨hid, hg⟩
    exact ⟨e.1, hid, by rw [hg]; rfl⟩

section Digest

variable {F : GoalDigest} {missionId : String}

theorem normalizeFrom_append (index : ℕ) (items items' : List GoalItem) :
    normalizeFrom F missionId index (items ++ items') =
      normalizeFrom F missionId index items ++
        normalizeFrom F missionId (index + items.length) items' := by
  induction items generalizing index with
  | nil => rfl
  | cons i items ih =>
    rw [List.cons_append, normalizeFrom, ih, normalizeFrom, List.cons_append, List.length_cons]
    congr 3
    omega

theorem normalized_kept (index : ℕ) (goals : Goals) (ids : List String) :
    normalizeFrom F missionId index (keptItems goals ids) = keptGoals goals ids := by
  unfold keptItems keptGoals
  induction ids generalizing index with
  | nil => rfl
  | cons id ids ih =>
    cases hg : goals.get? id with
    | none =>
      rw [List.filterMap_cons_none (by rw [hg]; rfl), List.filterMap_cons_none (by rw [hg]; rfl)]
      exact ih index
    | some g =>
      rw [List.filterMap_cons_some (by rw [hg]; rfl), List.filterMap_cons_some (by rw [hg]; rfl),
        normalizeFrom, ih]
      rfl

theorem normalized_new (index : ℕ) (new : List RevisedGoal) :
    normalizeFrom F missionId index (new.map RevisedGoal.toItem) =
      new.map fun x => (x.provisionalGoalId, x.goal missionId) := by
  induction new generalizing index with
  | nil => rfl
  | cons x new ih =>
    rw [List.map_cons, normalizeFrom, ih]
    rfl

/-- The items of the new graph have nothing left to fill in. -/
theorem normalized_revised (goals : Goals) (o : ReplannerOutput) :
    normalizeFrom F missionId 0 (revisedItems goals o) = revisedGoals missionId goals o := by
  unfold revisedItems revisedGoals
  rw [normalizeFrom_append, normalized_kept, normalized_new]

end Digest

/-! ## Putting the completed goals back -/

theorem get?_putBack {completed : List (String × Goal)} {source : Goals}
    (h : ∀ e ∈ completed, source.get? e.1 = some e.2) (id : String) :
    (putBack completed goals).get? id =
      if id ∈ completed.map Prod.fst then source.get? id else goals.get? id := by
  unfold putBack
  induction completed generalizing goals with
  | nil => rfl
  | cons e completed ih =>
    rw [List.forall_mem_cons] at h
    rw [List.foldl_cons, ih h.2, List.map_cons, Dict.get?_set]
    by_cases hmem : id ∈ completed.map Prod.fst
    · rw [if_pos hmem, if_pos (List.mem_cons_of_mem _ hmem)]
    · rw [if_neg hmem]
      by_cases hid : id = e.1
      · rw [if_pos hid, if_pos (hid ▸ List.mem_cons_self), hid, h.1]
      · rw [if_neg hid, if_neg (by simpa [hid] using hmem)]

/-! ## Staging -/

section Digest

variable {F : MissionDigest} {m : Mission} {r : ReplanningRequest} {o : ReplannerOutput}

/-- The record that staging adds to the history. -/
def stagedRecord (r : ReplanningRequest) (o : ReplannerOutput) : ReplanRecord where
  revisionNumber := r.revisionNumber
  oldGraphFingerprint := r.currentGraphFingerprint
  request := r
  output := o
  status := waitingForReplan

/-- A mission on which the output is staged: nothing of its goals has changed. -/
structure Staged (m : Mission) (r : ReplanningRequest) (o : ReplannerOutput) (s : Mission) :
    Prop where
  status : s.missionStatus = .waitingForReplanConfirmation
  last : s.replanningHistory.getLast? = some (stagedRecord r o)
  contract : s.contract = m.contract
  missionId : s.missionId = m.missionId
  goals : s.goals = m.goals
  completedGoalIds : s.completedGoalIds = m.completedGoalIds
  sessionReferences : s.sessionReferences = m.sessionReferences

variable {status : MissionStatus} {now : Instant}

theorem transitionMission_ok {m' : Mission} (h : transitionMission F m status now = .ok m') :
    status ∈ m.missionStatus.transitions ∧ m' = sealMission F (moved m status now) := by
  unfold transitionMission at h
  split at h
  · rename_i hallowed
    cases h
    refine ⟨hallowed.resolve_right fun hrec => ?_, rfl⟩
    cases hrec.1
  · cases h

theorem transitionMission_of_mem (now : Instant) (h : status ∈ m.missionStatus.transitions) :
    transitionMission F m status now = .ok (sealMission F (moved m status now)) := by
  unfold transitionMission
  rw [if_pos (.inl h)]

/-- The statuses from which a mission may come to wait for the confirmation of a replan. -/
def mayStage (status : MissionStatus) : Prop :=
  status = .waitingForReplanConfirmation ∨ .waitingForReplanConfirmation ∈ status.transitions

theorem stageReplan_ok {now : Option Instant} {clock : Instant} {s : Mission}
    (h : stageReplan F m r o now clock = .ok s) :
    validateReplannerOutput F o r m now = [] ∧ mayStage m.missionStatus ∧ Staged m r o s := by
  unfold stageReplan at h
  dsimp only at h
  split at h
  · cases h
  · rename_i hvalid
    refine ⟨not_not.mp hvalid, ?_⟩
    split at h
    · rename_i hstatus
      cases h
      exact ⟨.inl hstatus, hstatus, List.getLast?_concat, rfl, rfl, rfl, rfl, rfl⟩
    · obtain ⟨m', hm', h⟩ := bind_eq_ok.mp h
      cases h
      obtain ⟨hmem, rfl⟩ := transitionMission_ok hm'
      exact ⟨.inr hmem, rfl, List.getLast?_concat, rfl, rfl, rfl, rfl, rfl⟩

theorem stageReplan_isOk {now : Option Instant} (clock : Instant)
    (hvalid : validateReplannerOutput F o r m now = []) (hstatus : mayStage m.missionStatus) :
    ∃ s, stageReplan F m r o now clock = .ok s := by
  unfold stageReplan
  dsimp only
  rw [if_neg (not_not.mpr hvalid)]
  by_cases hwaiting : m.missionStatus = .waitingForReplanConfirmation
  · rw [if_pos hwaiting]
    exact ⟨_, rfl⟩
  · have hmem := hstatus.resolve_left hwaiting
    rw [if_neg hwaiting]
    unfold transitionMission
    rw [if_pos (.inl hmem)]
    exact ⟨_, rfl⟩

/-! ## Confirming -/

/-- The mission with the revised goals, before its status changes. -/
def revised (m : Mission) (completed : List (String × Goal)) (b : BuiltGraph) : Mission :=
  { m with
    goals := putBack completed b.goals
    goalGraph := b.graph
    goalOrder := b.goalOrder
    immutableCompletedGoalIds := sortedSet (completed.map Prod.fst)
    replanRequired := false
    replanningStatus := "confirmed"
    replanningHistory := markLast "confirmed" m.replanningHistory }

variable {p : ReplanConfirmation}

theorem confirmationMismatch_none (h : confirmationMismatch r o p = none)
    (hack : p.operatorAcknowledgment = true) : p = matchingConfirmation r o := by
  unfold confirmationMismatch at h
  dsimp only at h
  have hconfirmed : (matchingConfirmation r o).operatorAcknowledgment = true := rfl
  split at h
  · cases h
  split at h
  · cases h
  split at h
  · cases h
  split at h
  · cases h
  split at h
  · cases h
  split at h
  · cases h
  split at h
  · cases h
  split at h
  · cases h
  apply ReplanConfirmation.ext <;> simp_all only [ne_eq, not_not]

/-- A replan that is confirmed: the record, the completed goals, and the new graph. -/
structure Replans (F : MissionDigest) (m : Mission) (p : ReplanConfirmation) (now : Instant)
    (record : ReplanRecord) (completed : List (String × Goal)) (b : BuiltGraph) (c : Mission) :
    Prop where
  status : m.missionStatus = .waitingForReplanConfirmation
  last : m.replanningHistory.getLast? = some record
  matching : p = matchingConfirmation record.request record.output
  named : goalsNamed m.goals m.completedGoalIds = .ok completed
  buildable : Buildable F.toGoalDigest m.missionId
    (revisedGoals m.missionId m.goals record.output)
  built : Built F.toGoalDigest m.missionId (revisedGoals m.missionId m.goals record.output) true b
  result : c = sealMission F (moved (sealMission F (revised m completed b)) .running now)

theorem replans_of_ok {c : Mission} (h : confirmReplan F m p now = .ok c) :
    ∃ record completed b, Replans F m p now record completed b c := by
  unfold confirmReplan at h
  split at h
  · cases h
  rename_i hstatus
  split at h
  · cases h
  rename_i record hlast
  split at h
  · cases h
  rename_i hmatch
  split at h
  · cases h
  rename_i hack
  obtain ⟨completed, hcompleted, h⟩ := bind_eq_ok.mp h
  obtain ⟨b, hb, h⟩ := bind_eq_ok.mp h
  obtain ⟨hbuildable, hbuilt⟩ := buildGoalGraph_ok hb
  rw [normalized_revised] at hbuildable hbuilt
  exact ⟨record, completed, b, not_not.mp hstatus, hlast,
    confirmationMismatch_none hmatch (by simpa using hack), hcompleted, hbuildable, hbuilt,
    (transitionMission_ok h).2⟩

theorem confirmReplan_ok {s c : Mission} (hs : Staged m r o s) (h : confirmReplan F s p now = .ok c)
    :
    p = matchingConfirmation r o ∧
      ∃ completed b, goalsNamed m.goals m.completedGoalIds = .ok completed ∧
        Buildable F.toGoalDigest m.missionId (revisedGoals m.missionId m.goals o) ∧
        Built F.toGoalDigest m.missionId (revisedGoals m.missionId m.goals o) true b ∧
        c = sealMission F (moved (sealMission F (revised s completed b)) .running now) := by
  obtain ⟨record, completed, b, h⟩ := replans_of_ok h
  have hrecord : record = stagedRecord r o := by
    have hlast := h.last
    rw [hs.last, Option.some.injEq] at hlast
    exact hlast.symm
  subst hrecord
  have hcompleted := h.named
  have hbuildable := h.buildable
  have hbuilt := h.built
  rw [hs.goals, hs.completedGoalIds] at hcompleted
  rw [hs.goals, hs.missionId] at hbuildable hbuilt
  exact ⟨h.matching, completed, b, hcompleted, hbuildable, hbuilt, h.result⟩

theorem confirmReplan_isOk {s : Mission} (now : Instant) (hs : Staged m r o s)
    (hcompleted : ∀ id ∈ m.completedGoalIds, id ∈ m.goals.keys)
    (hbuild : Buildable F.toGoalDigest m.missionId (revisedGoals m.missionId m.goals o)) :
    ∃ c, confirmReplan F s (matchingConfirmation r o) now = .ok c := by
  obtain ⟨completed, hnamed⟩ := goalsNamed_isOk hcompleted
  rw [← normalized_revised] at hbuild
  obtain ⟨b, hb⟩ := buildGoalGraph_isOk true hbuild
  have hmatch : confirmationMismatch r o (matchingConfirmation r o) = none := by
    simp [confirmationMismatch]
  unfold confirmReplan
  rw [if_neg (not_not.mpr hs.status), hs.last]
  dsimp only [stagedRecord]
  rw [hmatch]
  dsimp only
  rw [if_neg (by simp [matchingConfirmation]), hs.goals, hs.completedGoalIds, hs.missionId, hnamed]
  simp only [bind, Except.bind, hb]
  refine ⟨_, transitionMission_of_mem now ?_⟩
  have hstatus : (sealMission F (revised s completed b)).missionStatus =
      .waitingForReplanConfirmation := hs.status
  have hmem : MissionStatus.running ∈
      (sealMission F (revised s completed b)).missionStatus.transitions := by
    rw [hstatus]
    decide
  exact hmem

end Digest

end Missions
end ZeroRuntime
