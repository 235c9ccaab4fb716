import ZeroRuntime.Missions.Refreshed
import ZeroRuntime.Missions.Submitted

/-!
# ZeroRuntime.Missions.Gates

The gates that an operator holds: no goal gets a session while a plan or a replan waits to be
confirmed, a replan is only answered by the operator, and a mission that has ended stays as it is.

* `Gated`: a call keeps to the gates.
* `Careful`: what a call must be like for that. An advance does not look at a replan that waits, and
  inputs for goals and clarifications do not look at the status of the mission.
* `gated_iff_careful`: one call. `run_gated_iff`: a whole run.
-/

namespace ZeroRuntime
namespace Missions

open Lib Sessions

/-! ## The gates -/

def waitsForConfirmation (status : MissionStatus) : Prop :=
  status = .waitingForPlanConfirmation ∨ status = .waitingForReplanConfirmation

def hasEnded (status : MissionStatus) : Prop :=
  status = .completed ∨ status = .cancelled ∨ status = .expired

/-- Calls on the mission, unlike those on the session of a goal. -/
def Event.onMission : Event → Bool
  | .advance .. | .submit .. => true
  | .resume .. | .cancel .. => false

/-- The operator answers a replan, or gives the mission up. -/
def Event.answersReplan : Event → Bool
  | .submit input _ _ =>
    input.inputType = .confirmReplan || input.inputType = .rejectReplan ||
      input.inputType = .cancelMission
  | _ => false

/-- Every session that the mission `m'` knows of is known to `m`. -/
structure SameSessions (m m' : Mission) : Prop where
  goals : ∀ id g', m'.goals.get? id = some g' → g'.sessionId = none ∨
    ∃ g, m.goals.get? id = some g ∧ g.sessionId = g'.sessionId
  references : ∀ id refs', m'.sessionReferences.get? id = some refs' →
    ∃ refs, m.sessionReferences.get? id = some refs ∧
      refs'.map SessionReference.sessionId = refs.map SessionReference.sessionId

/-- The sessions of the queue that a call opens. -/
def queuedIds (F : OrchestratorDigest) (w : World) : Event → List String
  | .advance source _ _ =>
    match openScheduler F w.mission source w.disk with
    | .ok s => s.entries.map QueueEntry.sessionId
    | .error _ => []
  | _ => []

/-- No session is created: not as a file, not in a queue, not in the mission. -/
structure NoNewSession (F : OrchestratorDigest) (w : World) (e : Event) : Prop where
  file : ∀ path s, Write.session path s ∉ (e.call F w).writes
  queue : ∀ path st, Write.scheduler path st ∈ (e.call F w).writes →
    ∀ entry ∈ st.entries, entry.sessionId ∈ queuedIds F w e
  mission : SameSessions w.mission (w.after (e.call F w)).mission

structure Gated (F : OrchestratorDigest) (w : World) (e : Event) : Prop where
  creates : waitsForConfirmation w.mission.missionStatus → e.onMission = true →
    NoNewSession F w e
  leaves : w.mission.missionStatus = .waitingForReplanConfirmation → e.answersReplan = false →
    (w.after (e.call F w)).mission.missionStatus = .waitingForReplanConfirmation
  keeps : hasEnded w.mission.missionStatus → (w.after (e.call F w)).mission = w.mission

/-! ## What it takes -/

def goalsStatus (goals : Goals) : MissionStatus := nextStatus (goals.values.map Goal.goalStatus)

/-- An advance has nothing to do: no session can be made for a goal, or no goal needs one and the
mission would neither run nor be blocked. -/
def Quiet (F : OrchestratorDigest) (w : World) (source : SchedulerSource) (config : RuntimeConfig)
    (now : Instant) : Prop :=
  ∀ target workspace scheduler goals,
    Entered F w.mission source config now w.disk target workspace scheduler →
    refreshedGoals F w.mission w.disk target workspace now = .ok goals →
      ((∃ id ∈ w.mission.goalOrder, ∃ g, goals.get? id = some g ∧ needsSession g = true) →
        ¬CanCreate w.mission config target workspace) ∧
      ((∀ id ∈ w.mission.goalOrder, ∀ g, goals.get? id = some g → needsSession g = false) →
        goalsStatus goals ≠ .running ∧ goalsStatus goals ≠ .blocked)

/-- The input is one for a goal that is taken whatever the mission is doing. -/
def takesGoalInput (m : Mission) (input : MissionInput) : Prop :=
  ∃ id g, namedGoal m input.payload = some (id, g) ∧
    match input.inputType with
    | .reprioritizeGoal =>
      (∃ p, input.payload.priority = some p ∧ -100 ≤ p ∧ p ≤ 100) ∧ g.sessionId = none
    | .retryGoal | .unblockGoal =>
      (g.goalStatus = .failed ∨ g.goalStatus = .blocked) ∧ isCritical g = false ∧
        (g.attemptCount : ℤ) < g.maxAttempts
    | _ => False

/-- The input is new and taken whatever the mission is doing. -/
def TakenLate (m : Mission) (input : MissionInput) : Prop :=
  validateInput m input = .ok false ∧
    (input.inputType = .providePlanningClarification ∨ takesGoalInput m input)

/-- No advance with something to do while a replan waits, and no clarification and no input for a
goal that is taken once the mission has ended. -/
def Careful (F : OrchestratorDigest) (w : World) : Event → Prop
  | .advance source config now =>
    w.mission.missionStatus = .waitingForReplanConfirmation → Quiet F w source config now
  | .submit input _ _ => hasEnded w.mission.missionStatus → ¬TakenLate w.mission input
  | .resume .. | .cancel .. => True

/-! ## Missions that know the same sessions -/

theorem SameSessions.refl (m : Mission) : SameSessions m m where
  goals := fun _ g hg => .inr ⟨g, hg, rfl⟩
  references := fun _ refs hrefs => ⟨refs, hrefs, rfl⟩

section Digest

variable {F : OrchestratorDigest} {w : World}

/-- A call that writes nothing and answers the mission as it is changes nothing. -/
theorem mission_after_of_same {answer : Logged Write Mission}
    (h : ∀ m, answer.result = .ok m → m = w.mission) : (w.after answer).mission = w.mission := by
  unfold World.after
  cases hresult : answer.result with
  | error e => rfl
  | ok m => exact h m hresult

/-! ## Events on sessions -/

theorem mission_after_onSession (path : String) (f : Session → Except Err Session) :
    (w.after (onSession F w path f)).mission = w.mission := by
  refine mission_after_of_same fun m hm => ?_
  unfold onSession at hm
  split at hm
  · cases hm
  · obtain ⟨s, -, hm⟩ := Logged.result_bind.mp hm
    obtain ⟨u, -, hm⟩ := Logged.result_bind.mp hm
    cases hm
    rfl

/-! ## An advance -/

theorem nextStatus_cases (statuses : List GoalStatus) :
    nextStatus statuses ∈ [MissionStatus.completed, .partiallyCompleted, .failed, .blocked,
      .waitingForOperator, .running] := by
  unfold nextStatus
  dsimp only
  repeat' split
  all_goals simp

theorem status_sealed (m : Mission) (status : MissionStatus) (now : Instant) :
    (sealMission F.toMissionDigest (moved m status now)).missionStatus = status := by
  unfold moved sealMission
  dsimp only
  split <;> rfl

theorem goalsStatus_ne {goals : Goals} : goalsStatus goals ≠ .waitingForReplanConfirmation ∧
    goalsStatus goals ≠ .cancelled ∧ goalsStatus goals ≠ .expired := by
  have hcases := nextStatus_cases (goals.values.map Goal.goalStatus)
  unfold goalsStatus
  generalize nextStatus (goals.values.map Goal.goalStatus) = status at hcases
  refine ⟨?_, ?_, ?_⟩ <;> rintro rfl <;> simp at hcases

variable {m : Mission}

theorem settleStatus_leaves (hm : m.missionStatus = .waitingForReplanConfirmation) (now : Instant)
    (h : goalsStatus m.goals = .running ∨ goalsStatus m.goals = .blocked) :
    ∃ m', settleStatus F m now = .ok m' ∧ m'.missionStatus ≠ .waitingForReplanConfirmation := by
  have hmem : goalsStatus m.goals ∈ m.missionStatus.transitions := by
    rw [hm]
    rcases h with h | h <;> rw [h] <;> decide
  have hne : goalsStatus m.goals ≠ m.missionStatus := hm ▸ goalsStatus_ne.1
  refine ⟨sealMission F.toMissionDigest (moved m (goalsStatus m.goals) now), ?_, ?_⟩
  · unfold settleStatus
    exact (if_pos hne).trans (transitionMission_of_mem now hmem)
  · rw [status_sealed]
    exact goalsStatus_ne.1

theorem settleStatus_stays (hm : m.missionStatus = .waitingForReplanConfirmation) (now : Instant)
    (h : goalsStatus m.goals ≠ .running ∧ goalsStatus m.goals ≠ .blocked) :
    ∃ e, settleStatus F m now = .error e := by
  obtain ⟨hwaiting, hcancelled, hexpired⟩ := @goalsStatus_ne m.goals
  have hmem : goalsStatus m.goals ∉ m.missionStatus.transitions := by
    rw [hm]
    simp only [MissionStatus.transitions, List.mem_cons, List.not_mem_nil, or_false, not_or]
    exact ⟨h.1, h.2, hcancelled, hexpired⟩
  unfold settleStatus
  change ∃ e, (if goalsStatus m.goals ≠ m.missionStatus then
    transitionMission F.toMissionDigest m (goalsStatus m.goals) now else _) = _
  rw [if_pos (hm ▸ hwaiting)]
  unfold transitionMission
  rw [if_neg]
  · exact ⟨_, rfl⟩
  · rintro (hin | ⟨hrecovery, -⟩)
    · exact hmem hin
    · cases hrecovery

/-- An advance while a replan waits keeps to the gates exactly when it has nothing to do. -/
theorem advance_waiting (source : SchedulerSource) (config : RuntimeConfig) (now : Instant)
    (hw : w.mission.missionStatus = .waitingForReplanConfirmation)
    (hquiet : Quiet F w source config now) :
    (advanceMission F w.mission source config now w.disk).writes = [] ∧
      ∀ m', (advanceMission F w.mission source config now w.disk).result = .ok m' →
        m' = w.mission := by
  by_cases hentered : ∃ target workspace scheduler,
      Entered F w.mission source config now w.disk target workspace scheduler
  · obtain ⟨target, workspace, scheduler, hentered⟩ := hentered
    rw [advanceMission_of_entered hentered]
    unfold advanceGoals
    cases hgoals : refreshedGoals F w.mission w.disk target workspace now with
    | error e => exact ⟨rfl, fun m' h' => by cases h'⟩
    | ok goals =>
      rw [Logged.ofExcept_bind_ok]
      obtain ⟨hcannot, hstatus⟩ := hquiet target workspace scheduler goals hentered hgoals
      have hkeys := (mem_keys_refreshedGoals hgoals).1
      by_cases hneeds : ∃ id ∈ w.mission.goalOrder, ∃ g,
          goals.get? id = some g ∧ needsSession g = true
      · obtain ⟨id, hid, g, hg, hneed⟩ := hneeds
        obtain ⟨e, he⟩ : ∃ e, createSessions F target workspace config now w.mission.goalOrder
            (w.mission.withGoals goals) scheduler = .raise e :=
          createSessions_fails hkeys hid hg hneed (hcannot ⟨id, hid, g, hg, hneed⟩)
        rw [he]
        exact ⟨rfl, fun m' h' => by cases h'⟩
      · have hidle : ∀ id ∈ w.mission.goalOrder, ∃ g, goals.get? id = some g ∧
            needsSession g = false := by
          intro id hid
          obtain ⟨g, hg⟩ := Dict.mem_keys.mp (hkeys id hid)
          exact ⟨g, hg, by simpa using fun hneed => hneeds ⟨id, hid, g, hg, hneed⟩⟩
        have hnone : createSessions F target workspace config now w.mission.goalOrder
            (w.mission.withGoals goals) scheduler = pure (w.mission.withGoals goals, scheduler) :=
          createSessions_idle hidle
        rw [hnone]
        have hquiet := hstatus fun id hid g hg => by
          simpa using fun hneed => hneeds ⟨id, hid, g, hg, hneed⟩
        have hwaits : (relisted (w.mission.withGoals goals)).missionStatus =
            .waitingForReplanConfirmation := hw
        obtain ⟨e, he⟩ : ∃ e, settleStatus F (relisted (w.mission.withGoals goals)) now =
            .error e := settleStatus_stays hwaits now hquiet
        have hraises : finishAdvance F source now (w.mission.withGoals goals) scheduler =
            .raise e := finishAdvance_error hkeys he
        change (finishAdvance F source now (w.mission.withGoals goals) scheduler).writes = [] ∧
          ∀ m', (finishAdvance F source now (w.mission.withGoals goals) scheduler).result =
            .ok m' → _
        rw [hraises]
        exact ⟨rfl, fun m' h' => by cases h'⟩
  · exact advanceMission_of_not_entered hentered

variable {source : SchedulerSource} {config : RuntimeConfig}

/-- An advance that has something to do while a replan waits makes a session or leaves the
replan. -/
theorem quiet_of_gated {now : Instant}
    (hw : w.mission.missionStatus = .waitingForReplanConfirmation)
    (h : Gated F w (.advance source config now)) : Quiet F w source config now := by
  intro target workspace scheduler goals hentered hgoals
  have hkeys := (mem_keys_refreshedGoals hgoals).1
  have hcall : (Event.advance source config now).call F w =
      createSessions F target workspace config now w.mission.goalOrder
        (w.mission.withGoals goals) scheduler >>= fun r => finishAdvance F source now r.1 r.2 := by
    change advanceMission F w.mission source config now w.disk = _
    rw [advanceMission_of_entered hentered]
    unfold advanceGoals
    rw [hgoals]
    rfl
  constructor
  · rintro ⟨id, hid, g, hg, hneed⟩ hcan
    obtain ⟨path, s, hmem⟩ : ∃ path s, Write.session path s ∈
        (createSessions F target workspace config now w.mission.goalOrder
          (w.mission.withGoals goals) scheduler).writes :=
      createSessions_writes hkeys hid hg hneed hcan
    refine (h.creates (.inr hw) rfl).file path s ?_
    rw [hcall]
    exact Logged.mem_writes_bind.mpr (.inl hmem)
  · intro hidle
    have hnone : createSessions F target workspace config now w.mission.goalOrder
        (w.mission.withGoals goals) scheduler = pure (w.mission.withGoals goals, scheduler) := by
      refine createSessions_idle fun id hid => ?_
      obtain ⟨g, hg⟩ := Dict.mem_keys.mp (hkeys id hid)
      exact ⟨g, hg, hidle id hid g hg⟩
    rw [← not_or]
    intro hleaves
    have hwaits : (relisted (w.mission.withGoals goals)).missionStatus =
        .waitingForReplanConfirmation := hw
    obtain ⟨m', hm', hne⟩ : ∃ m', settleStatus F (relisted (w.mission.withGoals goals)) now =
        .ok m' ∧ m'.missionStatus ≠ .waitingForReplanConfirmation :=
      settleStatus_leaves hwaits now hleaves
    have hstays := h.leaves hw rfl
    rw [hcall, hnone] at hstays
    change (w.after (finishAdvance F source now (w.mission.withGoals goals)
      scheduler)).mission.missionStatus = _ at hstays
    rw [finishAdvance_ok hkeys hm'] at hstays
    exact hne hstays

/-! ## An input -/

theorem get?_mapGoals (f : Goal → Goal) (goals : Goals) (id : String) :
    (mapGoals f goals).get? id = (goals.get? id).map f := by
  unfold Dict.get? mapGoals
  dsimp only
  induction goals.entries with
  | nil => rfl
  | cons e es ih =>
    rw [List.map_cons, Dict.find, Dict.find]
    split
    · rfl
    · exact ih

theorem sessionId_cancelGoal (g : Goal) : (cancelGoal g).sessionId = g.sessionId := by
  unfold cancelGoal
  split <;> rfl

theorem SameSessions.trans {a b c : Mission} (h : SameSessions a b) (h' : SameSessions b c) :
    SameSessions a c where
  goals := by
    intro id g'' hg''
    rcases h'.goals id g'' hg'' with hnone | ⟨g', hg', heq⟩
    · exact .inl hnone
    · rcases h.goals id g' hg' with hnone | ⟨g, hg, heq'⟩
      · exact .inl (heq ▸ hnone)
      · exact .inr ⟨g, hg, heq'.trans heq⟩
  references := by
    intro id refs'' hrefs''
    obtain ⟨refs', hrefs', heq⟩ := h'.references id refs'' hrefs''
    obtain ⟨refs, hrefs, heq'⟩ := h.references id refs' hrefs'
    exact ⟨refs, hrefs, heq.trans heq'⟩

variable {m' : Mission}

theorem SameSessions.of_eq (hgoals : m'.goals = m.goals)
    (hrefs : m'.sessionReferences = m.sessionReferences) : SameSessions m m' where
  goals := by
    rw [hgoals]
    exact fun _ g hg => .inr ⟨g, hg, rfl⟩
  references := by
    rw [hrefs]
    exact fun _ refs h => ⟨refs, h, rfl⟩

theorem SameSessions.of_set {id : String} {g g' : Goal} (hg : m.goals.get? id = some g)
    (hsession : g'.sessionId = none ∨ g.sessionId = g'.sessionId)
    (hgoals : m'.goals = m.goals.set id g')
    (hrefs : ∀ i refs', m'.sessionReferences.get? i = some refs' →
      ∃ refs, m.sessionReferences.get? i = some refs ∧
        refs'.map SessionReference.sessionId = refs.map SessionReference.sessionId) :
    SameSessions m m' where
  goals := by
    intro i x hx
    rw [hgoals, Dict.get?_set] at hx
    split at hx
    · rename_i hi
      cases hx
      exact hsession.imp_right fun heq => ⟨g, hi ▸ hg, heq⟩
    · exact .inr ⟨x, hx, rfl⟩
  references := hrefs

theorem sessionIds_archiveLast (refs : List SessionReference) :
    (archiveLast refs).map SessionReference.sessionId = refs.map SessionReference.sessionId := by
  unfold archiveLast
  cases hlast : refs.getLast? with
  | none => rw [List.getLast?_eq_none_iff.mp hlast]
  | some last =>
    obtain ⟨front, rfl⟩ := List.getLast?_eq_some_iff.mp hlast
    simp

theorem sameSessions_withRetry {id : String} {g : Goal} (hg : m.goals.get? id = some g) :
    SameSessions m (withRetry m id g) := by
  refine SameSessions.of_set hg (.inl rfl) rfl fun i refs' hrefs' => ?_
  change (m.sessionReferences.modify id archiveLast).get? i = some refs' at hrefs'
  rw [Dict.get?_modify] at hrefs'
  split at hrefs'
  · rename_i hi
    obtain ⟨refs, hrefs, rfl⟩ := Option.map_eq_some_iff.mp hrefs'
    exact ⟨refs, hi ▸ hrefs, sessionIds_archiveLast refs⟩
  · exact ⟨refs', hrefs', rfl⟩

theorem sameSessions_replans {c : Mission} {p : ReplanConfirmation} {now : Instant}
    {record : ReplanRecord} {completed : List (String × Goal)} {b : BuiltGraph}
    (h : Replans F.toMissionDigest m p now record completed b c) : SameSessions m c where
  goals := by
    intro id g hg
    obtain ⟨-, hget⟩ := goalsNamed_ok h.named
    rw [h.result] at hg
    change (putBack completed b.goals).get? id = some g at hg
    rw [get?_putBack hget] at hg
    split at hg
    · exact .inr ⟨g, hg, rfl⟩
    · rw [← Dict.mem_entries, h.built.entries] at hg
      rcases List.mem_append.mp hg with hkept | hnew
      · exact .inr ⟨g, (mem_keptGoals.mp hkept).2, rfl⟩
      · obtain ⟨x, -, heq⟩ := List.mem_map.mp hnew
        cases heq
        exact .inl rfl
  references := by
    rw [h.result]
    exact fun _ refs hrefs => ⟨refs, hrefs, rfl⟩

variable {input : MissionInput} {now : Option Instant} {clock : Instant}

theorem retried_cases (m : Mission) (id : String) (g : Goal) (at' : Instant) :
    (retried F m id g at').goals = (withRetry m id g).goals ∧
      (retried F m id g at').sessionReferences = (withRetry m id g).sessionReferences ∧
        (retried F m id g at').processedInputIds = m.processedInputIds := by
  unfold retried
  split <;> exact ⟨rfl, rfl, rfl⟩

theorem sameSessions_handled {x : Mission} (h : Handled F m input now clock x) :
    SameSessions m x := by
  cases h with
  | staged r o s type request output staged =>
    obtain ⟨-, -, hstaged⟩ := stageReplan_ok staged
    exact .of_eq hstaged.goals hstaged.sessionReferences
  | confirmed record completed b c type replans => exact sameSessions_replans replans
  | rejected type status => exact .of_eq rfl rfl
  | clarified type => exact .of_eq rfl rfl
  | prioritized id g priority type named priority_eq range inactive =>
    have hsession : ({ g with priority } : Goal).sessionId = none ∨
        g.sessionId = ({ g with priority } : Goal).sessionId := .inr rfl
    refine .of_set (namedGoal_some.mp named).2 hsession rfl ?_
    exact fun _ refs hrefs => ⟨refs, hrefs, rfl⟩
  | retried id g type named retryable =>
    obtain ⟨hgoals, hrefs, -⟩ := retried_cases m id g (now.getD clock)
    exact (sameSessions_withRetry (namedGoal_some.mp named).2).trans (.of_eq hgoals hrefs)

theorem sameSessions_submitted (h : Submitted F m input now clock m') : SameSessions m m' := by
  cases h with
  | same => exact .refl m
  | rejected status type => exact .of_eq rfl rfl
  | confirmed status type => exact .of_eq rfl rfl
  | cancelled active type =>
    refine ⟨fun id g' hg' => ?_, fun _ refs hrefs => ⟨refs, hrefs, rfl⟩⟩
    change (mapGoals cancelGoal m.goals).get? id = some g' at hg'
    rw [get?_mapGoals] at hg'
    obtain ⟨g, hg, rfl⟩ := Option.map_eq_some_iff.mp hg'
    exact .inr ⟨g, hg, (sessionId_cancelGoal g).symm⟩
  | handled x new ok type =>
    exact (sameSessions_handled (handleInput_ok ok)).trans (.of_eq rfl rfl)

theorem noNewSession_submit : NoNewSession F w (.submit input now clock) where
  file := fun path s hmem => writes_submit _ hmem
  queue := fun path st hmem => absurd (writes_submit _ hmem) (by simp [Write.isMission])
  mission := by
    change SameSessions w.mission (w.after (submitMissionInput F w.mission input now clock)).mission
    unfold World.after
    cases hresult : (submitMissionInput F w.mission input now clock).result with
    | error e => exact .refl w.mission
    | ok m' => exact sameSessions_submitted (submitMissionInput_ok hresult)

theorem status_submitted (h : Submitted F m input now clock m')
    (hm : m.missionStatus = .waitingForReplanConfirmation)
    (hanswer : (Event.submit input now clock).answersReplan = false) :
    m'.missionStatus = .waitingForReplanConfirmation := by
  unfold Event.answersReplan at hanswer
  simp only [Bool.or_eq_false_iff, decide_eq_false_iff_not] at hanswer
  obtain ⟨⟨hconfirm, hreject⟩, hcancel⟩ := hanswer
  cases h with
  | same => exact hm
  | rejected status type =>
    rw [hm] at status
    cases status
  | confirmed status type =>
    rw [hm] at status
    cases status
  | cancelled active type => exact absurd type hcancel
  | handled x new ok type =>
    change x.missionStatus = _
    cases handleInput_ok ok with
    | staged r o s type request output staged => exact (stageReplan_ok staged).2.2.status
    | confirmed record completed b c type replans => exact absurd type hconfirm
    | rejected type status => exact absurd type hreject
    | clarified type => exact hm
    | prioritized id g priority type named priority_eq range inactive => exact hm
    | retried id g type named retryable =>
      unfold retried
      rw [if_neg (by rw [hm]; decide)]
      exact hm

/-! ## A mission that has ended -/

variable {status : MissionStatus}

theorem terminal_of_ended (h : hasEnded status) : status.terminal = true := by
  rcases h with rfl | rfl | rfl <;> rfl

theorem not_waiting_of_ended (h : hasEnded status) :
    status ≠ .waitingForPlanConfirmation ∧ status ≠ .waitingForReplanConfirmation ∧
      status ≠ .blocked := by
  rcases h with rfl | rfl | rfl <;> decide

theorem createReplanningRequest_ended {D : MissionDigest} (h : hasEnded m.missionStatus)
    (instruction : String) (scope : List String) (at' : Instant) (r : ReplanningRequest) :
    createReplanningRequest D m instruction scope at' ≠ .ok r := by
  have h' : m.missionStatus = .completed ∨ m.missionStatus = .cancelled ∨
      m.missionStatus = .expired := h
  unfold createReplanningRequest
  rw [if_pos h']
  intro hr
  cases hr

theorem takenLate_of_handled {x : Mission} (hended : hasEnded m.missionStatus)
    (hnew : validateInput m input = .ok false) (h : Handled F m input now clock x) :
    TakenLate m input := by
  refine ⟨hnew, ?_⟩
  cases h with
  | staged r o s type request output staged =>
    exact absurd request (createReplanningRequest_ended hended _ _ _ _)
  | confirmed record completed b c type replans =>
    exact absurd replans.status (not_waiting_of_ended hended).2.1
  | rejected type status => exact absurd status (not_waiting_of_ended hended).2.1
  | clarified type => exact .inl type
  | prioritized id g priority type named priority_eq range inactive =>
    refine .inr ⟨id, g, named, ?_⟩
    rw [type]
    exact ⟨⟨priority, priority_eq, range⟩, inactive⟩
  | retried id g type named retryable =>
    refine .inr ⟨id, g, named, ?_⟩
    rcases type with type | type <;> rw [type] <;>
      exact ⟨retryable.status, retryable.uncritical, retryable.attempts⟩

/-- What is taken late is handled, and its id is recorded. -/
theorem handled_of_takenLate (h : TakenLate m input) :
    ∃ x, handleInput F m input now clock = .ok x ∧
      x.processedInputIds = m.processedInputIds ∧
        (input.inputType ≠ .confirmGoalPlan ∧ input.inputType ≠ .rejectGoalPlan ∧
          input.inputType ≠ .cancelMission) := by
  rcases h.2 with htype | ⟨id, g, hnamed, hgoal⟩
  · exact ⟨_, handleInput_clarify htype, rfl, by rw [htype]; decide⟩
  · split at hgoal
    · rename_i htype
      obtain ⟨⟨priority, hpriority, hrange⟩, hinactive⟩ := hgoal
      exact ⟨_, handleInput_prioritize htype hnamed hpriority hrange hinactive, rfl,
        by rw [htype]; decide⟩
    · rename_i htype
      obtain ⟨hstatus, hcritical, hattempts⟩ := hgoal
      exact ⟨_, handleInput_retry (.inl htype) hnamed ⟨hstatus, hcritical, hattempts⟩,
        (retried_cases m id g _).2.2, by rw [htype]; decide⟩
    · rename_i htype
      obtain ⟨hstatus, hcritical, hattempts⟩ := hgoal
      exact ⟨_, handleInput_retry (.inr htype) hnamed ⟨hstatus, hcritical, hattempts⟩,
        (retried_cases m id g _).2.2, by rw [htype]; decide⟩
    · exact hgoal.elim

/-! ## One call, and a run -/

theorem gated_submit_iff : Gated F w (.submit input now clock) ↔
    Careful F w (.submit input now clock) := by
  constructor
  · intro h hended hlate
    obtain ⟨x, hx, hids, htype⟩ : ∃ x, handleInput F w.mission input now clock = .ok x ∧
        x.processedInputIds = w.mission.processedInputIds ∧
          (input.inputType ≠ .confirmGoalPlan ∧ input.inputType ≠ .rejectGoalPlan ∧
            input.inputType ≠ .cancelMission) := handled_of_takenLate hlate
    have hkept := h.keeps hended
    change (w.after (submitMissionInput F w.mission input now clock)).mission = w.mission at hkept
    rw [submitMissionInput_of_handled hlate.1 hx htype] at hkept
    change recorded F x input = w.mission at hkept
    have hlonger := congrArg (fun m => m.processedInputIds.length) hkept
    change (x.processedInputIds ++ [input.inputId]).length = _ at hlonger
    rw [hids, List.length_append] at hlonger
    simp at hlonger
  · intro hcareful
    refine ⟨fun _ _ => noNewSession_submit, fun hwaits hanswer => ?_, fun hended => ?_⟩
    · change (w.after (submitMissionInput F w.mission input now clock)).mission.missionStatus = _
      unfold World.after
      cases hresult : (submitMissionInput F w.mission input now clock).result with
      | error e => exact hwaits
      | ok m' => exact status_submitted (submitMissionInput_ok hresult) hwaits hanswer
    · refine mission_after_of_same fun m' hm' => ?_
      cases submitMissionInput_ok hm' with
      | same => rfl
      | rejected status type => exact absurd status (not_waiting_of_ended hended).1
      | confirmed status type => exact absurd status (not_waiting_of_ended hended).1
      | cancelled active type =>
        rw [terminal_of_ended hended] at active
        cases active
      | handled x new ok type =>
        exact absurd (takenLate_of_handled hended new (handleInput_ok ok)) (hcareful hended)

theorem gated_advance_iff {at' : Instant} :
    Gated F w (.advance source config at') ↔ Careful F w (.advance source config at') := by
  constructor
  · intro h hw
    exact quiet_of_gated hw h
  · intro hcareful
    have hquiet : waitsForConfirmation w.mission.missionStatus →
        (advanceMission F w.mission source config at' w.disk).writes = [] ∧
          ∀ m', (advanceMission F w.mission source config at' w.disk).result = .ok m' →
            m' = w.mission := by
      rintro (hplan | hreplan)
      · refine advanceMission_of_not_entered ?_
        rintro ⟨target, workspace, scheduler, hentered⟩
        exact hentered.confirmed hplan
      · exact advance_waiting source config at' hreplan (hcareful hreplan)
    refine ⟨fun hwaits _ => ?_, fun hreplan _ => ?_, fun hended => ?_⟩
    · obtain ⟨hwrites, hsame⟩ := hquiet hwaits
      have hnone : ∀ wr, wr ∉ ((Event.advance source config at').call F w).writes := by
        intro wr hmem
        change wr ∈ (advanceMission F w.mission source config at' w.disk).writes at hmem
        rw [hwrites] at hmem
        cases hmem
      refine ⟨fun path s => hnone _, fun path st hmem => absurd hmem (hnone _), ?_⟩
      change SameSessions _
        (w.after (advanceMission F w.mission source config at' w.disk)).mission
      rw [mission_after_of_same hsame]
      exact .refl w.mission
    · change (w.after
        (advanceMission F w.mission source config at' w.disk)).mission.missionStatus = _
      rw [mission_after_of_same (hquiet (.inr hreplan)).2]
      exact hreplan
    · refine mission_after_of_same (advanceMission_of_not_entered ?_).2
      rintro ⟨target, workspace, scheduler, hentered⟩
      have hactive := hentered.active
      rw [terminal_of_ended hended] at hactive
      cases hactive

theorem gated_onSession {e : Event} (he : e.onMission = false)
    (hsame : (w.after (e.call F w)).mission = w.mission) : Gated F w e := by
  refine ⟨fun _ hcall => ?_, fun hwaits _ => ?_, fun _ => hsame⟩
  · rw [he] at hcall
    cases hcall
  · rw [hsame]
    exact hwaits

theorem gated_iff_careful (e : Event) : Gated F w e ↔ Careful F w e := by
  cases e with
  | advance source config at' => exact gated_advance_iff
  | submit input now clock => exact gated_submit_iff
  | resume path input decision target workspace at' =>
    exact iff_of_true (gated_onSession rfl (mission_after_onSession _ _)) trivial
  | cancel path operatorId at' =>
    exact iff_of_true (gated_onSession rfl (mission_after_onSession _ _)) trivial

/-- In every run of a mission the calls keep to the gates exactly when each of them is careful. -/
theorem run_gated_iff (w : World) (events : List Event) :
    (missionMachine F).Guarded (Gated F) w events ↔
      (missionMachine F).Guarded (Careful F) w events :=
  Machine.guarded_congr fun _ e => gated_iff_careful e

end Digest

/-! ## A replan that waits -/

def sampleRuntime : OrchestratorDigest where
  toMissionDigest := sampleDigest
  session s := "session:" ++ s.sessionId
  value := Val.toText
  entry e := "entry:" ++ e.sessionId
  scheduler s := "scheduler:" ++ toString s.entries.length

def sampleItem (id : String) (dependsOn : List String) : GoalItem where
  goalId := id
  goalTitle := id
  goalDescription := id
  goalType := "modify"
  dependsOn := dependsOn

def samplePaths : MissionConfig where
  missionPath := "/data/mission.json"
  schedulerStatePath := "/data/scheduler.json"

def sampleConfig : RuntimeConfig where
  targetRoot := some (some "/target")
  workspaceRoot := some (some "/workspace")
  proposal _ := [("proposal_id", .str "proposal")]

def sampleInput (m : Mission) (id : String) (type : InputType) (payload : InputPayload) :
    MissionInput where
  contract := missionInputContract
  missionId := m.missionId
  inputId := id
  operatorId := "operator"
  inputType := type
  payload := payload

def Write.isSession : Write → Bool
  | .session .. => true
  | _ => false

theorem Quiet.not_ready {F : OrchestratorDigest} {w : World} {source : SchedulerSource}
    {config : RuntimeConfig} {now : Instant} {target workspace : Root}
    (h : Quiet F w source config now) (hvalid : validateMissionAt F.toMissionDigest w.mission now = [])
    (hstatus : w.mission.missionStatus = .waitingForReplanConfirmation)
    (hopen : (openScheduler F w.mission source w.disk).toOption.map
      (validateSchedulerState F.toQueueDigest) = some [])
    (htarget : config.targetRoot = some target) (hworkspace : config.workspaceRoot = some workspace)
    (hcan : CanCreate w.mission config target workspace)
    (hgoals : (refreshedGoals F w.mission w.disk target workspace now).toOption.map
      (fun goals => w.mission.goalOrder.any fun id => (goals.get? id).any needsSession) =
        some true) : False := by
  cases hscheduler : openScheduler F w.mission source w.disk with
  | error e =>
    rw [hscheduler] at hopen
    cases hopen
  | ok scheduler =>
    cases hrefreshed : refreshedGoals F w.mission w.disk target workspace now with
    | error e =>
      rw [hrefreshed] at hgoals
      cases hgoals
    | ok goals =>
      rw [hscheduler] at hopen
      rw [hrefreshed] at hgoals
      obtain ⟨id, hid, hneeds⟩ := List.any_eq_true.mp (Option.some.inj hgoals)
      obtain ⟨g, hg, hneeds⟩ := (Option.any_eq_true _ _).mp hneeds
      have hentered := (⟨hvalid, by rw [hstatus]; rfl, by rw [hstatus]; decide, hscheduler,
        Option.some.inj hopen, htarget, hworkspace⟩ :
          Entered F w.mission source config now w.disk target workspace scheduler)
      exact (h target workspace scheduler goals hentered hrefreshed).1 ⟨id, hid, g, hg, hneeds⟩ hcan

/-- The plan is turned down, a replan is asked for, and while it waits an advance makes a session;
and a mission that was cancelled takes a clarification. -/
theorem session_made_while_replan_waits : ∃ answer m,
    createMission sampleRuntime "task" (some [sampleItem "a" []]) (some "/target")
      (some "/workspace") "/target" samplePaths 0 {} = answer ∧ answer.result = .ok m ∧
    ¬(missionMachine sampleRuntime).Guarded (Gated sampleRuntime)
      ⟨m, ({} : Disk).after answer.writes⟩
      [.submit (sampleInput m "1" .rejectGoalPlan {}) none 0,
        .submit (sampleInput m "2" .requestReplan { operatorInstruction := "again" }) none 0,
        .advance .fromMission sampleConfig 0] ∧
    ¬(missionMachine sampleRuntime).Guarded (Gated sampleRuntime)
      ⟨m, ({} : Disk).after answer.writes⟩
      [.submit (sampleInput m "1" .cancelMission {}) none 0,
        .submit (sampleInput m "2" .providePlanningClarification {}) none 0] := by
  refine ⟨_, _, rfl, rfl, fun h => ?_, fun h => ?_⟩
  · obtain ⟨-, -, h, -⟩ := h
    exact (quiet_of_gated (by decide +kernel) h).not_ready (by decide +kernel) (by decide +kernel)
      (by decide +kernel) rfl rfl ⟨⟨_, rfl⟩, rfl, rfl⟩ (by decide +kernel)
  · obtain ⟨-, h, -⟩ := h
    have hkept := congrArg (fun m => m.planningRevision) (h.keeps (.inr (.inl (by decide +kernel))))
    revert hkept
    decide +kernel

end Missions
end ZeroRuntime
