import ZeroRuntime.Missions.Staging
import ZeroRuntime.Missions.World

/-!
# ZeroRuntime.Missions.Submitted

What an operator's input does to a mission.

* `Submitted`: the ways in which an input is answered. `submitMissionInput_ok`: there is no other.
* `writes_submit`: an input writes the mission and nothing else.
* `handleGoalInput_ok`: an input for a goal gives it another priority, or lets it start again.
-/

namespace ZeroRuntime
namespace Missions

open Lib Sessions

section Digest

variable {F : OrchestratorDigest} {m m' : Mission} {input : MissionInput} {now : Option Instant}
  {clock : Instant}

/-! ## Inputs for a plan -/

def rejectedPlan (F : OrchestratorDigest) (m : Mission) (now : Instant) : Mission :=
  { sealMission F.toMissionDigest (moved m .blocked now) with
    failure := some { reasons := ["goal_plan_rejected"] } }

def confirmedPlan (F : OrchestratorDigest) (m : Mission) (now : Instant) : Mission :=
  { sealMission F.toMissionDigest
      (moved { m with goalGraph := confirmedGraph F m.goalGraph } .ready now) with
    planningStatus := "confirmed" }

def cancelledMission (F : OrchestratorDigest) (m : Mission) (now : Instant) : Mission :=
  relisted (sealMission F.toMissionDigest
    (moved { m with goals := mapGoals cancelGoal m.goals } .cancelled now))

def recorded (F : OrchestratorDigest) (m : Mission) (input : MissionInput) : Mission :=
  sealMission F.toMissionDigest (recordInput m input)

/-- The ways in which an input is answered. -/
inductive Submitted (F : OrchestratorDigest) (m : Mission) (input : MissionInput)
    (now : Option Instant) (clock : Instant) : Mission → Prop where
  | same : Submitted F m input now clock m
  | rejected (status : m.missionStatus = .waitingForPlanConfirmation)
    (type : input.inputType = .rejectGoalPlan) :
    Submitted F m input now clock (recorded F (rejectedPlan F m (now.getD clock)) input)
  | confirmed (status : m.missionStatus = .waitingForPlanConfirmation)
    (type : input.inputType = .confirmGoalPlan) :
    Submitted F m input now clock (recorded F (confirmedPlan F m (now.getD clock)) input)
  | cancelled (active : m.missionStatus.terminal = false)
    (type : input.inputType = .cancelMission) :
    Submitted F m input now clock
      (sealMission F.toMissionDigest (cancelledMission F m (now.getD clock)))
  | handled (x : Mission) (new : validateInput m input = .ok false)
    (ok : handleInput F m input now clock = .ok x)
    (type : input.inputType ≠ .confirmGoalPlan ∧ input.inputType ≠ .rejectGoalPlan ∧
      input.inputType ≠ .cancelMission) :
    Submitted F m input now clock (recorded F x input)

theorem confirmMissionPlan_ok
    (h : (confirmMissionPlan F m input (now.getD clock)).result = .ok m') :
    Submitted F m input now clock m' := by
  unfold confirmMissionPlan at h
  dsimp only at h
  split at h
  · cases h
  obtain ⟨duplicate, -, h⟩ := Logged.result_bind.mp h
  split at h
  · cases h
    exact .same
  split at h
  · cases h
  rename_i hstatus
  have hwaits := not_not.mp hstatus
  split at h
  · rename_i htype
    obtain ⟨x, hx, h⟩ := Logged.result_bind.mp h
    obtain ⟨-, rfl⟩ := transitionMission_ok hx
    rw [saveIf_eq] at h
    cases h
    exact .rejected hwaits htype
  · rename_i htype
    split at h
    · cases h
    split at h
    · cases h
    obtain ⟨x, hx, h⟩ := Logged.result_bind.mp h
    obtain ⟨-, rfl⟩ := transitionMission_ok hx
    rw [saveIf_eq] at h
    cases h
    exact .confirmed hwaits htype
  · cases h

theorem cancelMission_ok (htype : input.inputType = .cancelMission)
    (h : (cancelMission F m input.operatorId (now.getD clock)).result = .ok m') :
    Submitted F m input now clock m' := by
  unfold cancelMission at h
  split at h
  · cases h
  split at h
  · cases h
    exact .same
  rename_i hactive
  obtain ⟨x, hx, h⟩ := Logged.result_bind.mp h
  obtain ⟨-, rfl⟩ := transitionMission_ok hx
  obtain ⟨y, hy, h⟩ := Logged.result_bind.mp h
  rw [saveIf_eq] at h
  change rebuildLists _ = _ at hy
  unfold rebuildLists at hy
  split at hy
  · cases hy
    cases h
    exact .cancelled (by simpa using hactive) htype
  · cases hy

/-- An input is answered in one of these ways. -/
theorem submitMissionInput_ok (h : (submitMissionInput F m input now clock).result = .ok m') :
    Submitted F m input now clock m' := by
  unfold submitMissionInput at h
  split at h
  · exact confirmMissionPlan_ok h
  · exact confirmMissionPlan_ok h
  · rename_i hconfirm hreject
    obtain ⟨duplicate, hduplicate, h⟩ := Logged.result_bind.mp h
    change validateInput m input = .ok duplicate at hduplicate
    split at h
    · cases h
      exact .same
    · rename_i hnew
      split at h
      · rename_i htype
        exact cancelMission_ok htype h
      · rename_i hcancel
        obtain ⟨x, hx, h⟩ := Logged.result_bind.mp h
        rw [saveIf_eq] at h
        cases h
        rw [Bool.not_eq_true] at hnew
        exact .handled x (hnew ▸ hduplicate) hx ⟨hconfirm, hreject, hcancel⟩

/-- A new input that is handled is answered with what was made of it. -/
theorem submitMissionInput_of_handled {x : Mission} (hnew : validateInput m input = .ok false)
    (hx : handleInput F m input now clock = .ok x)
    (htype : input.inputType ≠ .confirmGoalPlan ∧ input.inputType ≠ .rejectGoalPlan ∧
      input.inputType ≠ .cancelMission) :
    submitMissionInput F m input now clock =
      ⟨missionWrites F (recordInput x input), .ok (recorded F x input)⟩ := by
  unfold submitMissionInput
  split
  · rename_i h
    exact absurd h htype.1
  · rename_i h
    exact absurd h htype.2.1
  · rw [hnew, Logged.ofExcept_bind_ok, if_neg Bool.false_ne_true, if_neg htype.2.2, hx,
      Logged.ofExcept_bind_ok, saveIf_eq]
    rfl

/-! ## What an input writes -/

def Write.isMission : Write → Prop
  | .mission .. => True
  | _ => False

theorem writes_saveIf (x : Mission) : Logged.Writes Write.isMission (saveIf F x) := by
  intro w hw
  rw [saveIf_eq] at hw
  unfold missionWrites at hw
  dsimp only at hw
  split at hw
  · rw [List.mem_singleton.mp hw]
    exact trivial
  · cases hw

theorem writes_confirmMissionPlan (at' : Instant) :
    Logged.Writes Write.isMission (confirmMissionPlan F m input at') := by
  unfold confirmMissionPlan
  dsimp only
  split
  · exact .raise _
  refine .bind (.ofExcept _) fun duplicate _ => ?_
  split
  · exact .pure _
  split
  · exact .raise _
  split
  · exact .bind (.ofExcept _) fun x _ => writes_saveIf _
  · split
    · exact .raise _
    split
    · exact .raise _
    · exact .bind (.ofExcept _) fun x _ => writes_saveIf _
  · exact .raise _

theorem writes_submit : Logged.Writes Write.isMission (submitMissionInput F m input now clock) := by
  unfold submitMissionInput
  split
  · exact writes_confirmMissionPlan _
  · exact writes_confirmMissionPlan _
  refine .bind (.ofExcept _) fun duplicate _ => ?_
  split
  · exact .pure _
  split
  · unfold cancelMission
    split
    · exact .raise _
    split
    · exact .pure _
    · refine .bind (.ofExcept _) fun x _ => .bind (.ofExcept _) fun y _ => writes_saveIf _
  · exact .bind (.ofExcept _) fun x _ => writes_saveIf _

/-! ## Inputs for a goal -/

variable {id : String} {g : Goal}

theorem namedGoal_some {p : InputPayload} :
    namedGoal m p = some (id, g) ↔ p.goalId = some id ∧ m.goals.get? id = some g := by
  unfold namedGoal
  rw [Option.bind_eq_some_iff]
  constructor
  · rintro ⟨i, hi, h⟩
    obtain ⟨x, hx, heq⟩ := Option.map_eq_some_iff.mp h
    cases heq
    exact ⟨hi, hx⟩
  · rintro ⟨hi, hg⟩
    exact ⟨id, hi, by rw [hg]; rfl⟩

/-- A goal may start again. -/
structure Retryable (g : Goal) : Prop where
  status : g.goalStatus = .failed ∨ g.goalStatus = .blocked
  uncritical : isCritical g = false
  attempts : (g.attemptCount : ℤ) < g.maxAttempts

/-- The mission in which a goal starts again. -/
def withRetry (m : Mission) (id : String) (g : Goal) : Mission :=
  { m with
    sessionReferences := m.sessionReferences.modify id archiveLast
    goals := m.goals.set id (retriedGoal g) }

theorem retryGoal_eq (m : Mission) (id : String) (g : Goal) (at' : Instant)
    (h : Retryable g) :
    retryGoal F m id g at' = .ok (if m.missionStatus = .blocked then
      sealMission F.toMissionDigest (moved (withRetry m id g) .running at')
      else withRetry m id g) := by
  unfold retryGoal
  have hstatus : ¬(g.goalStatus ≠ .failed ∧ g.goalStatus ≠ .blocked) := by
    rcases h.status with hg | hg <;> simp [hg]
  rw [if_neg hstatus, if_neg (by simp [h.uncritical]), if_neg (not_le.mpr h.attempts)]
  change (if m.missionStatus = .blocked then _ else _) = _
  split
  · rename_i hblocked
    unfold transitionMission
    rw [if_pos (.inr ⟨rfl, hblocked, rfl⟩)]
    rfl
  · rfl

theorem retryable_of_ok {at' : Instant} (h : retryGoal F m id g at' = .ok m') : Retryable g := by
  unfold retryGoal at h
  split at h
  · cases h
  rename_i hstatus
  split at h
  · cases h
  rename_i hcritical
  split at h
  · cases h
  rename_i hattempts
  refine ⟨?_, by simpa using hcritical, not_le.mp hattempts⟩
  by_cases hfailed : g.goalStatus = .failed
  · exact .inl hfailed
  · exact .inr (not_not.mp fun hblocked => hstatus ⟨hfailed, hblocked⟩)

def withPriority (m : Mission) (id : String) (g : Goal) (priority : ℤ) : Mission :=
  { m with goals := m.goals.set id { g with priority } }

theorem reprioritize_ok {p : InputPayload} :
    reprioritize m id g p = .ok m' ↔ ∃ priority, p.priority = some priority ∧
      (-100 ≤ priority ∧ priority ≤ 100) ∧ g.sessionId = none ∧
        m' = withPriority m id g priority := by
  unfold reprioritize
  cases p.priority with
  | none => simp
  | some priority =>
    simp only [Option.some.injEq, exists_eq_left']
    by_cases hrange : priority < -100 ∨ 100 < priority
    · rw [if_pos hrange]
      refine iff_of_false (by simp) fun h => ?_
      omega
    · rw [if_neg hrange]
      by_cases hsession : g.sessionId.isSome = true
      · rw [if_pos hsession]
        refine iff_of_false (by simp) fun h => ?_
        rw [h.2.1] at hsession
        cases hsession
      · rw [if_neg hsession, Except.ok.injEq]
        have hin : -100 ≤ priority ∧ priority ≤ 100 := by omega
        have hnone : g.sessionId = none := by simpa using hsession
        constructor
        · rintro rfl
          exact ⟨hin, hnone, rfl⟩
        · rintro ⟨-, -, rfl⟩
          rfl

/-! ## Every input that is handled -/

/-- The mission in which a goal starts again, out of its block if it was in one. -/
def retried (F : OrchestratorDigest) (m : Mission) (id : String) (g : Goal) (at' : Instant) :
    Mission :=
  if m.missionStatus = .blocked then
    sealMission F.toMissionDigest (moved (withRetry m id g) .running at')
  else withRetry m id g

/-- The mission whose replan is turned down. -/
def rejectedReplan (F : OrchestratorDigest) (m : Mission) (at' : Instant) : Mission :=
  sealMission F.toMissionDigest (moved
    { m with
      replanRequired := false
      replanningStatus := "rejected"
      replanningHistory := markLast "rejected" m.replanningHistory }
    .blocked at')

/-- What an input makes of a mission that it is handled by. -/
inductive Handled (F : OrchestratorDigest) (m : Mission) (input : MissionInput)
    (now : Option Instant) (clock : Instant) : Mission → Prop where
  | staged (r : ReplanningRequest) (o : ReplannerOutput) (s : Mission)
    (type : input.inputType = .requestReplan)
    (request : createReplanningRequest F.toMissionDigest m input.payload.operatorInstruction
      input.payload.allowedRevisionScope (now.getD clock) = .ok r)
    (output : deterministicReplanner F.toMissionDigest r m = .ok o)
    (staged : stageReplan F.toMissionDigest m r o now clock = .ok s) :
    Handled F m input now clock s
  | confirmed (record : ReplanRecord) (completed : List (String × Goal)) (b : BuiltGraph)
    (c : Mission) (type : input.inputType = .confirmReplan)
    (replans : Replans F.toMissionDigest m input.payload.toReplanConfirmation (now.getD clock)
      record completed b c) :
    Handled F m input now clock c
  | rejected (type : input.inputType = .rejectReplan)
    (status : m.missionStatus = .waitingForReplanConfirmation) :
    Handled F m input now clock (rejectedReplan F m (now.getD clock))
  | clarified (type : input.inputType = .providePlanningClarification) :
    Handled F m input now clock (clarify m input)
  | prioritized (id : String) (g : Goal) (priority : ℤ)
    (type : input.inputType = .reprioritizeGoal)
    (named : namedGoal m input.payload = some (id, g))
    (priority_eq : input.payload.priority = some priority)
    (range : -100 ≤ priority ∧ priority ≤ 100) (inactive : g.sessionId = none) :
    Handled F m input now clock (withPriority m id g priority)
  | retried (id : String) (g : Goal)
    (type : input.inputType = .retryGoal ∨ input.inputType = .unblockGoal)
    (named : namedGoal m input.payload = some (id, g)) (retryable : Retryable g) :
    Handled F m input now clock (retried F m id g (now.getD clock))

theorem handleInput_ok (h : handleInput F m input now clock = .ok m') :
    Handled F m input now clock m' := by
  unfold handleInput at h
  split at h
  · rename_i htype
    obtain ⟨r, hr, h⟩ := bind_eq_ok.mp h
    obtain ⟨o, ho, h⟩ := bind_eq_ok.mp h
    exact .staged r o m' htype hr ho h
  · rename_i htype
    obtain ⟨record, completed, b, hreplans⟩ := replans_of_ok h
    exact .confirmed record completed b m' htype hreplans
  · rename_i htype
    unfold rejectReplan at h
    split at h
    · cases h
    rename_i hstatus
    split at h
    · cases h
    obtain ⟨-, rfl⟩ := transitionMission_ok h
    exact .rejected htype (not_not.mp hstatus)
  · rename_i htype
    cases h
    exact .clarified htype
  · unfold handleGoalInput at h
    split at h
    · cases h
    rename_i id g hnamed
    split at h
    · rename_i htype
      obtain ⟨priority, hpriority, hrange, hinactive, rfl⟩ := reprioritize_ok.mp h
      exact .prioritized id g priority htype hnamed hpriority hrange hinactive
    · rename_i htype
      have hretryable := retryable_of_ok h
      rw [retryGoal_eq m id g _ hretryable] at h
      cases h
      exact .retried id g (.inl htype) hnamed hretryable
    · rename_i htype
      have hretryable := retryable_of_ok h
      rw [retryGoal_eq m id g _ hretryable] at h
      cases h
      exact .retried id g (.inr htype) hnamed hretryable
    · cases h

theorem handleInput_clarify (htype : input.inputType = .providePlanningClarification) :
    handleInput F m input now clock = .ok (clarify m input) := by
  unfold handleInput
  rw [htype]

theorem handleInput_prioritize {priority : ℤ} (htype : input.inputType = .reprioritizeGoal)
    (hnamed : namedGoal m input.payload = some (id, g))
    (hpriority : input.payload.priority = some priority) (hrange : -100 ≤ priority ∧ priority ≤ 100)
    (hinactive : g.sessionId = none) :
    handleInput F m input now clock = .ok (withPriority m id g priority) := by
  unfold handleInput
  rw [htype]
  dsimp only
  unfold handleGoalInput
  rw [hnamed, htype]
  exact reprioritize_ok.mpr ⟨priority, hpriority, hrange, hinactive, rfl⟩

theorem handleInput_retry (htype : input.inputType = .retryGoal ∨ input.inputType = .unblockGoal)
    (hnamed : namedGoal m input.payload = some (id, g)) (h : Retryable g) :
    handleInput F m input now clock = .ok (retried F m id g (now.getD clock)) := by
  have hgoal : handleInput F m input now clock = handleGoalInput F m input (now.getD clock) := by
    unfold handleInput
    rcases htype with htype | htype <;> rw [htype]
  rw [hgoal]
  unfold handleGoalInput
  rw [hnamed]
  rcases htype with htype | htype <;> rw [htype] <;> exact retryGoal_eq m id g _ h

end Digest

end Missions
end ZeroRuntime
