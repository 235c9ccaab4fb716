import ZeroRuntime.Missions.Advance

/-!
# ZeroRuntime.Missions.Seconds

An advance reads the clock to the second: what it does at two instants of one second is the same.
What is written down are whole seconds, and times that were written down are compared with.
-/

namespace ZeroRuntime
namespace Missions

open Lib Sessions

variable {now later : Instant}

theorem reached_second (h : timeText later = timeText now) (time : ℕ) :
    reached later time = reached now time := by
  unfold timeText at h
  unfold reached
  rw [decide_eq_decide]
  omega

section Session

variable {D : SessionDigest} {s : Session} {target workspace : Root}

theorem validateSession_second (h : timeText later = timeText now) :
    validateSession D s target workspace later = validateSession D s target workspace now := by
  unfold validateSession
  rw [reached_second h]

theorem transition_second (h : timeText later = timeText now) (s : Session)
    (status : SessionStatus) : transition D s status later = transition D s status now := by
  unfold transition
  rw [h]

theorem createRuntimeSession_second (h : timeText later = timeText now) (natural : Entries)
    (config : SessionConfig) : createRuntimeSession D natural target workspace config later =
      createRuntimeSession D natural target workspace config now := by
  unfold createRuntimeSession
  cases target with
  | none => rfl
  | some t =>
    cases workspace with
    | none => rfl
    | some w =>
      have hnew : newSession D natural t w config later = newSession D natural t w config now := by
        unfold newSession
        rw [h]
      have hpause : ∀ s, pause D s .waitingForOperatorApproval .operatorApproval later =
          pause D s .waitingForOperatorApproval .operatorApproval now := by
        intro s
        unfold pause
        rw [transition_second h]
      simp only [hnew, transition_second h, hpause]

end Session

section Digest

variable {F : OrchestratorDigest} {disk : Disk} {target workspace : Root} {m : Mission}
  {config : RuntimeConfig}

theorem checkedSession_second (h : timeText later = timeText now) (s : Session) :
    checkedSession F s target workspace later = checkedSession F s target workspace now := by
  unfold checkedSession
  rw [validateSession_second h]

theorem refreshGoal_second (h : timeText later = timeText now) (g : Goal) :
    refreshGoal F disk target workspace later g = refreshGoal F disk target workspace now g := by
  unfold refreshGoal loadSession
  simp only [checkedSession_second h]

theorem refreshGoals_second (h : timeText later = timeText now) (ids : List String)
    (goals : Goals) : refreshGoals F disk target workspace later ids goals =
      refreshGoals F disk target workspace now ids goals := by
  induction ids generalizing goals with
  | nil => rfl
  | cons id ids ih =>
    rw [refreshGoals, refreshGoals]
    simp only [refreshGoal_second h, ih]

theorem enqueueSession_second (h : timeText later = timeText now) (st : SchedulerState)
    (path : String) (loaded : Except Err Session) (priority : ℤ) :
    enqueueSession F.toQueueDigest st path loaded priority later =
      enqueueSession F.toQueueDigest st path loaded priority now := by
  unfold enqueueSession projection
  simp only [h]

theorem createGoalSession_second (h : timeText later = timeText now) (id : String) (m : Mission)
    (scheduler : SchedulerState) :
    createGoalSession F target workspace config later id m scheduler =
      createGoalSession F target workspace config now id m scheduler := by
  have hattempt : ∀ g, attemptSession F m id g target workspace config later =
      attemptSession F m id g target workspace config now := fun g =>
    createRuntimeSession_second h _ _
  unfold createGoalSession
  simp only [hattempt, checkedSession_second h, enqueueSession_second h]

theorem createSessions_second (h : timeText later = timeText now) (ids : List String) (m : Mission)
    (scheduler : SchedulerState) :
    createSessions F target workspace config later ids m scheduler =
      createSessions F target workspace config now ids m scheduler := by
  induction ids generalizing m scheduler with
  | nil => rfl
  | cons id ids ih =>
    rw [createSessions, createSessions]
    simp only [createGoalSession_second h, ih]

theorem settleStatus_second (h : timeText later = timeText now) (m : Mission) :
    settleStatus F m later = settleStatus F m now := by
  unfold settleStatus transitionMission moved
  simp only [h]

/-- Two advances in one second do the same. -/
theorem advanceMission_second (h : timeText later = timeText now) (source : SchedulerSource) :
    advanceMission F m source config later disk = advanceMission F m source config now disk := by
  have hgoals : ∀ target workspace,
      refreshedGoals F m disk target workspace later =
        refreshedGoals F m disk target workspace now := by
    intro target workspace
    unfold refreshedGoals
    rw [refreshGoals_second h]
  unfold advanceMission validateMissionAt advanceGoals finishAdvance
  simp only [reached_second h, hgoals, createSessions_second h, settleStatus_second h]

end Digest

end Missions
end ZeroRuntime
