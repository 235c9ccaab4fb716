import ZeroRuntime.Missions.Refreshed
import ZeroRuntime.Missions.Staging
import ZeroRuntime.Missions.World

/-!
# ZeroRuntime.Missions.Advanced

What an advance has done when it is over.

* `withSessions`: its goals are looked up by `get?_withSessions_of_not_mem` and
  `get?_withSessions_of_mem`, all else is as before.
* `Advances`: an advance that answers, from its goals to the mission it saves.
* `writes_advance`: the files that it writes, also when it raises in the end.
-/

namespace ZeroRuntime
namespace Missions

open Lib Sessions

/-! ## The mission with the new sessions -/

section Sessions

variable {m : Mission} {created : List NewSession}

theorem withSessions_cons (n : NewSession) :
    withSessions m (n :: created) =
      withSessions (withSession m n.goalId n.goal n.path n.session) created := rfl

/-- New sessions change the goals and the references, and nothing else. -/
theorem withSessions_frame : withSessions m created =
    { m with
      goals := (withSessions m created).goals
      sessionReferences := (withSessions m created).sessionReferences } := by
  induction created generalizing m with
  | nil => rfl
  | cons n created ih =>
    rw [withSessions_cons]
    conv_lhs => rw [ih]
    rfl

@[simp] theorem goalOrder_withSessions : (withSessions m created).goalOrder = m.goalOrder := by
  rw [withSessions_frame]

@[simp] theorem missionStatus_withSessions :
    (withSessions m created).missionStatus = m.missionStatus := by
  rw [withSessions_frame]

@[simp] theorem missionId_withSessions : (withSessions m created).missionId = m.missionId := by
  rw [withSessions_frame]

@[simp] theorem missionPath_withSessions :
    (withSessions m created).missionPath = m.missionPath := by
  rw [withSessions_frame]

@[simp] theorem schedulerStatePath_withSessions :
    (withSessions m created).schedulerStatePath = m.schedulerStatePath := by
  rw [withSessions_frame]

@[simp] theorem replanningHistory_withSessions :
    (withSessions m created).replanningHistory = m.replanningHistory := by
  rw [withSessions_frame]

theorem get?_withSessions_of_not_mem {id : String} (h : id ∉ created.map NewSession.goalId) :
    (withSessions m created).goals.get? id = m.goals.get? id := by
  induction created generalizing m with
  | nil => rfl
  | cons n created ih =>
    rw [List.map_cons, List.mem_cons, not_or] at h
    rw [withSessions_cons, ih h.2]
    change (m.goals.set n.goalId (sessionGoal n.goal n.path n.session)).get? id = _
    rw [Dict.get?_set, if_neg h.1]

theorem get?_withSessions_of_mem (hnodup : (created.map NewSession.goalId).Nodup)
    {n : NewSession} (h : n ∈ created) :
    (withSessions m created).goals.get? n.goalId =
      some (sessionGoal n.goal n.path n.session) := by
  induction created generalizing m with
  | nil => cases h
  | cons x created ih =>
    obtain ⟨hx, hnodup⟩ := List.nodup_cons.mp hnodup
    rw [withSessions_cons]
    rcases List.mem_cons.mp h with rfl | h
    · rw [get?_withSessions_of_not_mem hx]
      change (m.goals.set n.goalId (sessionGoal n.goal n.path n.session)).get? n.goalId = _
      rw [Dict.get?_set, if_pos rfl]
    · exact ih hnodup h

theorem mem_keys_withSessions (h : ∀ n ∈ created, n.goalId ∈ m.goals.keys) (id : String) :
    id ∈ (withSessions m created).goals.keys ↔ id ∈ m.goals.keys := by
  induction created generalizing m with
  | nil => exact Iff.rfl
  | cons n created ih =>
    rw [List.forall_mem_cons] at h
    have hset : ∀ i, i ∈ (withSession m n.goalId n.goal n.path n.session).goals.keys ↔
        i ∈ m.goals.keys := by
      intro i
      change i ∈ (m.goals.set n.goalId (sessionGoal n.goal n.path n.session)).keys ↔ _
      rw [Dict.mem_keys, Dict.get?_set]
      by_cases hi : i = n.goalId
      · rw [if_pos hi, hi]
        exact iff_of_true ⟨_, rfl⟩ h.1
      · rw [if_neg hi, ← Dict.mem_keys]
    rw [withSessions_cons, ih fun x hx => (hset _).mpr (h.2 x hx), hset]

end Sessions

/-! ## An advance that answers -/

section Digest

variable {F : OrchestratorDigest} {m m' : Mission} {source : SchedulerSource}
  {config : RuntimeConfig} {now : Instant} {disk : Disk} {target workspace : Root}
  {scheduler : SchedulerState}

/-- The steps of an advance: its goals, the sessions it makes, and the mission it settles on. -/
structure Advances (F : OrchestratorDigest) (m : Mission) (source : SchedulerSource)
    (config : RuntimeConfig) (now : Instant) (disk : Disk) (target workspace : Root)
    (scheduler : SchedulerState) (goals : Goals) (created : List NewSession)
    (scheduler' : SchedulerState) (settled : Mission) : Prop where
  refreshed : refreshedGoals F m disk target workspace now = .ok goals
  made : ∀ n ∈ created, n.For F (m.withGoals goals) config target workspace now
  needed : created.map NewSession.goalId = needing goals m.goalOrder
  queued : enqueueAll F target workspace now created scheduler = .ok scheduler'
  settles : settleStatus F (relisted (withSessions (m.withGoals goals) created)) now = .ok settled
  answer : advanceMission F m source config now disk =
    ⟨created.map NewSession.write ++ (schedulerWrites F source settled scheduler' ++
      missionWrites F settled), .ok (sealMission F.toMissionDigest settled)⟩

variable {goals : Goals} {created : List NewSession}

theorem keys_of_made (hgoals : refreshedGoals F m disk target workspace now = .ok goals)
    (hmade : ∀ n ∈ created, n.For F (m.withGoals goals) config target workspace now) :
    ∀ id ∈ (withSessions (m.withGoals goals) created).goalOrder,
      id ∈ (withSessions (m.withGoals goals) created).goals.keys := by
  intro id hid
  have hgoal : ∀ n ∈ created, n.goalId ∈ (m.withGoals goals).goals.keys := fun n hn =>
    Dict.mem_keys.mpr ⟨_, (hmade n hn).goal⟩
  rw [goalOrder_withSessions] at hid
  rw [mem_keys_withSessions hgoal]
  exact (mem_keys_refreshedGoals hgoals).1 id hid

theorem advances_of_ok (hentered : Entered F m source config now disk target workspace scheduler)
    (horder : m.goalOrder.Nodup)
    (h : (advanceMission F m source config now disk).result = .ok m') :
    ∃ goals created scheduler' settled,
      Advances F m source config now disk target workspace scheduler goals created scheduler'
        settled := by
  rw [advanceMission_of_entered hentered] at h
  unfold advanceGoals at h
  obtain ⟨goals, hgoals, h⟩ := Logged.result_bind.mp h
  obtain ⟨r, hr, h⟩ := Logged.result_bind.mp h
  change refreshedGoals F m disk target workspace now = .ok goals at hgoals
  obtain ⟨created, hmakes⟩ : ∃ created, Makes F (m.withGoals goals) config target workspace now
      scheduler m.goalOrder created (createSessions F target workspace config now m.goalOrder
        (m.withGoals goals) scheduler) := createSessions_makes horder
  obtain ⟨hneeded, hmission, hqueued⟩ := hmakes.ok r hr
  have hmade : ∀ n ∈ created, n.For F (m.withGoals goals) config target workspace now :=
    fun n hn => (hmakes.made n hn).2
  have hkeys := keys_of_made hgoals hmade
  obtain ⟨mission, scheduler'⟩ := r
  change mission = _ at hmission
  subst hmission
  dsimp only at h
  cases hsettle : settleStatus F (relisted (withSessions (m.withGoals goals) created)) now with
  | error e =>
    rw [finishAdvance_error hkeys hsettle] at h
    cases h
  | ok settled =>
    refine ⟨goals, created, scheduler', settled, hgoals, hmade, hneeded, hqueued, hsettle, ?_⟩
    rw [advanceMission_of_entered hentered]
    unfold advanceGoals
    rw [hgoals, Logged.ofExcept_bind_ok, Logged.bind_of_ok hr, hmakes.writes]
    dsimp only
    rw [finishAdvance_ok hkeys hsettle]

variable {scheduler' : SchedulerState}

/-- The steps of an advance, put together. -/
theorem Advances.of_entered {settled : Mission}
    (hentered : Entered F m source config now disk target workspace scheduler)
    (hgoals : refreshedGoals F m disk target workspace now = .ok goals)
    (hmade : ∀ n ∈ created, n.For F (m.withGoals goals) config target workspace now)
    (hneeded : created.map NewSession.goalId = needing goals m.goalOrder)
    (hqueued : enqueueAll F target workspace now created scheduler = .ok scheduler')
    (hloop : createSessions F target workspace config now m.goalOrder (m.withGoals goals)
      scheduler = ⟨created.map NewSession.write,
        .ok (withSessions (m.withGoals goals) created, scheduler')⟩)
    (hsettle : settleStatus F (relisted (withSessions (m.withGoals goals) created)) now =
      .ok settled) :
    Advances F m source config now disk target workspace scheduler goals created scheduler'
      settled where
  refreshed := hgoals
  made := hmade
  needed := hneeded
  queued := hqueued
  settles := hsettle
  answer := by
    rw [advanceMission_of_entered hentered]
    unfold advanceGoals
    rw [hgoals, Logged.ofExcept_bind_ok, hloop, Logged.bind_of_ok rfl]
    dsimp only
    rw [finishAdvance_ok (keys_of_made hgoals hmade) hsettle]

theorem Advances.nodup {settled : Mission} (horder : m.goalOrder.Nodup)
    (h : Advances F m source config now disk target workspace scheduler goals created scheduler'
      settled) : (created.map NewSession.goalId).Nodup := by
  rw [h.needed]
  exact horder.sublist List.filter_sublist

/-- A goal at the end of an advance is as it was refreshed, or it has a new session. -/
theorem get?_withCreated {id : String} {g' : Goal} (hnodup : (created.map NewSession.goalId).Nodup)
    (hg' : (withSessions (m.withGoals goals) created).goals.get? id = some g') :
    (goals.get? id = some g' ∧ id ∉ created.map NewSession.goalId) ∨
      ∃ n ∈ created, n.goalId = id ∧ g' = sessionGoal n.goal n.path n.session := by
  by_cases hid : id ∈ created.map NewSession.goalId
  · obtain ⟨n, hn, rfl⟩ := List.mem_map.mp hid
    rw [get?_withSessions_of_mem hnodup hn, Option.some.injEq] at hg'
    exact .inr ⟨n, hn, rfl, hg'.symm⟩
  · rw [get?_withSessions_of_not_mem hid] at hg'
    exact .inl ⟨hg', hid⟩

theorem writes_advance (hentered : Entered F m source config now disk target workspace scheduler)
    (horder : m.goalOrder.Nodup) {wr : Write}
    (h : wr ∈ (advanceMission F m source config now disk).writes) :
    (∃ goals, ∃ n : NewSession, refreshedGoals F m disk target workspace now = .ok goals ∧
      n.For F (m.withGoals goals) config target workspace now ∧ wr = n.write) ∨
      (∃ path s, wr = .scheduler path s) ∨ ∃ path x, wr = .mission path x := by
  rw [advanceMission_of_entered hentered] at h
  unfold advanceGoals at h
  rcases Logged.mem_writes_bind.mp h with h | ⟨goals, hgoals, h⟩
  · cases h
  change refreshedGoals F m disk target workspace now = .ok goals at hgoals
  obtain ⟨created, hmakes⟩ : ∃ created, Makes F (m.withGoals goals) config target workspace now
      scheduler m.goalOrder created (createSessions F target workspace config now m.goalOrder
        (m.withGoals goals) scheduler) := createSessions_makes horder
  rcases Logged.mem_writes_bind.mp h with h | ⟨r, hr, h⟩
  · rw [hmakes.writes] at h
    obtain ⟨n, hn, rfl⟩ := List.mem_map.mp h
    exact .inl ⟨goals, n, hgoals, (hmakes.made n hn).2, rfl⟩
  obtain ⟨-, hmission, -⟩ := hmakes.ok r hr
  have hkeys := keys_of_made hgoals fun (n : NewSession) hn => (hmakes.made n hn).2
  obtain ⟨mission, scheduler'⟩ := r
  change mission = _ at hmission
  subst hmission
  dsimp only at h
  cases hsettle : settleStatus F (relisted (withSessions (m.withGoals goals) created)) now with
  | error e =>
    rw [finishAdvance_error hkeys hsettle] at h
    cases h
  | ok settled =>
    rw [finishAdvance_ok hkeys hsettle] at h
    rcases List.mem_append.mp h with h | h
    · unfold schedulerWrites at h
      split at h
      · rw [List.mem_singleton.mp h]
        exact .inr (.inl ⟨_, _, rfl⟩)
      · cases h
    · unfold missionWrites at h
      split at h
      · rw [List.mem_singleton.mp h]
        exact .inr (.inr ⟨_, _, rfl⟩)
      · cases h

end Digest

end Missions
end ZeroRuntime
