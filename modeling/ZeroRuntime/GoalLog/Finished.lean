import ZeroRuntime.GoalLog.Repository

/-!
# ZeroRuntime.GoalLog.Finished

When goals finish once and only with their work done.

* `Finished`: over a run from the empty log, a completed or failed goal keeps its status, a goal is
  completed only by an accepted attestation while it is active and its subgoals are completed, and no
  uncompleted subgoal is added to it later.
* `Careless`: a goal is appended as completed, an accepted attestation completes a goal that is not
  active or has subgoals to do, or an uncompleted subgoal is appended to a completed goal.
* `finished_iff_careful`: a run is finished if and only if none of its calls is careless.
-/

namespace ZeroRuntime
namespace GoalLog

open Lib Goals

variable {N : Numbers} {s : GoalState} {log : List LogRecord} {record : LogRecord}

/-! ## Replaying -/

theorem replay_snoc (log : List LogRecord) (record : LogRecord) :
    replay (log ++ [record]) = (replay log).add record := by
  unfold replay
  rw [List.foldl_append]
  rfl

/-- Goals and subgoals stand under their own ids. -/
structure Keyed (s : GoalState) : Prop where
  goal : ∀ id g, s.goals.get? id = some g → g.goalId = id
  subgoal : ∀ id sub, s.subgoals.get? id = some sub → sub.subgoalId = id

theorem keyed_add (h : Keyed s) (record : LogRecord) : Keyed (s.add record) := by
  cases record with
  | goal g =>
    refine ⟨fun id g' hget => ?_, h.subgoal⟩
    change (s.goals.set g.goalId g).get? id = some g' at hget
    rw [Dict.get?_set] at hget
    split at hget
    · rename_i hid
      cases hget
      exact hid.symm
    · exact h.goal id g' hget
  | subgoal sub =>
    refine ⟨h.goal, fun id sub' hget => ?_⟩
    change (s.subgoals.set sub.subgoalId sub).get? id = some sub' at hget
    rw [Dict.get?_set] at hget
    split at hget
    · rename_i hid
      cases hget
      exact hid.symm
    · exact h.subgoal id sub' hget
  | progress p => exact ⟨h.goal, h.subgoal⟩

theorem keyed_replay (log : List LogRecord) : Keyed (replay log) := by
  induction log using List.reverseRecOn with
  | nil => exact ⟨(fun id g hget => by cases hget), (fun id sub hget => by cases hget)⟩
  | append_singleton log record ih =>
    rw [replay_snoc]
    exact keyed_add ih record

/-! ## What each call appends -/

theorem append_ok {record' : LogRecord} (h : append record = .ok record') :
    record' = record ∧ record.writable = true := by
  unfold append at h
  split at h
  · rename_i hwritable
    cases h
    exact ⟨rfl, hwritable⟩
  · cases h

variable {now : RequiredText}

theorem appendGoal_ok {goal : Input GoalFields} (h : appendGoal s goal now = .ok record) :
    ∃ g, record = .goal g ∧ goal.read PersistentGoal.make (PersistentGoal.fromMapping now) = .ok g ∧
      s.goals.get? g.goalId = none ∧ record.writable = true := by
  unfold appendGoal at h
  obtain ⟨g, hread, h⟩ := bind_eq_ok.mp h
  cases hnew : s.goals.get? g.goalId with
  | some existing =>
    rw [hnew] at h
    cases h
  | none =>
    rw [hnew] at h
    obtain ⟨rfl, hwritable⟩ := append_ok h
    exact ⟨g, rfl, hread, hnew, hwritable⟩

theorem appendSubgoal_ok {subgoal : Input SubgoalFields}
    (h : appendSubgoal N s subgoal now = .ok record) :
    ∃ sub g, record = .subgoal sub ∧
      subgoal.read (PersistentSubgoal.make N) (PersistentSubgoal.fromMapping N now) = .ok sub ∧
      s.goals.get? sub.goalId = some g ∧ s.subgoals.get? sub.subgoalId = none ∧
      record.writable = true := by
  unfold appendSubgoal at h
  obtain ⟨sub, hread, h⟩ := bind_eq_ok.mp h
  cases hgoal : s.goals.get? sub.goalId with
  | none =>
    rw [hgoal] at h
    cases h
  | some g =>
    rw [hgoal] at h
    dsimp only at h
    cases hnew : s.subgoals.get? sub.subgoalId with
    | some existing =>
      rw [hnew] at h
      cases h
    | none =>
      rw [hnew] at h
      obtain ⟨rfl, hwritable⟩ := append_ok h
      exact ⟨sub, g, rfl, hread, hgoal, hnew, hwritable⟩

theorem clean_terminal (targetType : TargetType) {status : GoalStatus} (h : status.terminal = true) :
    ∃ state, cleanLifecycleState targetType (.str status.value) = .ok state ∧
      state ∈ [LifecycleState.completed, .failed] := by
  cases status with
  | completed => exact ⟨.completed, by cases targetType <;> decide, by decide⟩
  | failed => exact ⟨.failed, by cases targetType <;> decide, by decide⟩
  | _ => cases h

/-- What is terminal is not moved. -/
theorem validateTransition_ok {targetType : TargetType} {targetId : Val}
    {fromStatus toStatus : GoalStatus} {action reason resumePoint evidenceRefs : Val}
    {subgoals : Option Bool} (h : validateTransition targetType targetId fromStatus toStatus action
      reason resumePoint evidenceRefs subgoals = .ok ()) : fromStatus.terminal = false := by
  unfold validateTransition at h
  obtain ⟨t, hmake, h⟩ := bind_eq_ok.mp h
  obtain ⟨refs, -, h⟩ := bind_eq_ok.mp h
  dsimp only at h
  split at h
  · rename_i haccepted
    have hgood := (transition_accepted_iff.mp haccepted).2
    obtain ⟨-, -, hfrom, -⟩ := make_ok hmake
    have hopen : t.fromState ∉ [LifecycleState.completed, .failed] := by
      intro hterminal
      unfold violations at hgood
      simp only [List.append_eq_nil_iff] at hgood
      rw [if_pos hterminal] at hgood
      cases hgood.1.1.1.1.1
    refine (Bool.not_eq_true _).mp fun hterminal => ?_
    obtain ⟨state, hclean, hstate⟩ := clean_terminal targetType hterminal
    rw [hclean] at hfrom
    cases hfrom
    exact hopen hstate
  · cases h

/-- A completion that the repository accepts. -/
structure Attested (u : GoalUpdate) : Prop where
  status : cleanStatus u.status = .ok .completed
  accepted : acceptedFor u.completionAttestation u.goalId = true

theorem updateGoalStatus_ok {u : GoalUpdate} (h : updateGoalStatus s u now = .ok record) :
    ∃ goalId existing status refs, RequiredText.read u.goalId "goal_id" = .ok goalId ∧
      s.goals.get? goalId = some existing ∧ cleanStatus u.status = .ok status ∧
      newEvidence u.evidenceRefs existing.evidenceRefs = .ok refs ∧
      record = .goal { existing with status := status, updatedAt := now, evidenceRefs := refs } ∧
      record.writable = true ∧
      (status = .completed ∧ Attested u ∨
        status ≠ .completed ∧ existing.status.terminal = false) := by
  unfold updateGoalStatus at h
  obtain ⟨goalId, hid, h⟩ := bind_eq_ok.mp h
  cases hexisting : s.goals.get? goalId with
  | none =>
    rw [hexisting] at h
    cases h
  | some existing =>
    rw [hexisting] at h
    obtain ⟨target, htarget, h⟩ := bind_eq_ok.mp h
    by_cases hcompleted : target = .completed
    · rw [if_pos hcompleted] at h
      split at h
      · rename_i haccepted
        obtain ⟨refs, hrefs, h⟩ := bind_eq_ok.mp h
        obtain ⟨rfl, hwritable⟩ := append_ok h
        rw [hcompleted] at htarget
        exact ⟨goalId, existing, .completed, refs, hid, hexisting, htarget, hrefs, rfl, hwritable,
          .inl ⟨rfl, htarget, haccepted⟩⟩
      · cases h
    · rw [if_neg hcompleted] at h
      obtain ⟨u', hvalid, h⟩ := bind_eq_ok.mp h
      obtain ⟨refs, hrefs, h⟩ := bind_eq_ok.mp h
      obtain ⟨rfl, hwritable⟩ := append_ok h
      exact ⟨goalId, existing, target, refs, hid, hexisting, htarget, hrefs, rfl, hwritable,
        .inr ⟨hcompleted, validateTransition_ok hvalid⟩⟩

theorem updateSubgoalStatus_ok {u : SubgoalUpdate} (h : updateSubgoalStatus N s u now = .ok record)
    :
    ∃ subgoalId existing sub, s.subgoals.get? subgoalId = some existing ∧ record = .subgoal sub ∧
      sub.subgoalId = existing.subgoalId ∧ sub.goalId = existing.goalId ∧
      existing.status.terminal = false := by
  unfold updateSubgoalStatus at h
  obtain ⟨subgoalId, hid, h⟩ := bind_eq_ok.mp h
  cases hexisting : s.subgoals.get? subgoalId with
  | none =>
    rw [hexisting] at h
    cases h
  | some existing =>
    rw [hexisting] at h
    obtain ⟨target, htarget, h⟩ := bind_eq_ok.mp h
    obtain ⟨u', hvalid, h⟩ := bind_eq_ok.mp h
    obtain ⟨progress, hprogress, h⟩ := bind_eq_ok.mp h
    obtain ⟨refs, hrefs, h⟩ := bind_eq_ok.mp h
    obtain ⟨rfl, -⟩ := append_ok h
    exact ⟨subgoalId, existing, _, hexisting, rfl, rfl, rfl, validateTransition_ok hvalid⟩

theorem recordProgress_ok {progress : Input ProgressFields}
    (h : recordProgress N s progress now = .ok record) : ∃ p, record = .progress p := by
  unfold recordProgress at h
  obtain ⟨incoming, hread, h⟩ := bind_eq_ok.mp h
  split at h
  · cases h
  · split at h
    · exact ⟨_, (append_ok h).1⟩
    · exact ⟨_, (append_ok h).1⟩

/-! ## Runs -/

def reached (N : Numbers) (calls : List Call) : GoalState := replay ((goalLog N).run [] calls)

/-- The goal is there with a status. -/
def HasStatus (s : GoalState) (id : RequiredText) (status : GoalStatus) : Prop :=
  ∃ g, s.goals.get? id = some g ∧ g.status = status

instance (s : GoalState) (id : RequiredText) (status : GoalStatus) : Decidable (HasStatus s id status) :=
  decidable_of_iff ((s.goals.get? id).any (fun g => g.status = status) = true) (by
    rw [Option.any_eq_true]
    simp only [decide_eq_true_eq]
    exact Iff.rfl)

/-- All subgoals of the goal are completed. -/
def WorkDone (s : GoalState) (id : RequiredText) : Prop :=
  ∀ subgoalId sub, s.subgoals.get? subgoalId = some sub → sub.goalId = id → sub.status = .completed

/-- The call completes the goal as it should be. -/
structure Completes (N : Numbers) (calls : List Call) (c : Call) (id : RequiredText) : Prop where
  active : HasStatus (reached N calls) id .active
  done : WorkDone (reached N calls) id
  attested : ∃ u now, c = .updateGoalStatus u now ∧ RequiredText.read u.goalId "goal_id" = .ok id ∧
    Attested u
  completed : HasStatus (reached N (calls ++ [c])) id .completed

structure Finished (N : Numbers) (calls : List Call) : Prop where
  terminal : ∀ before after, before <+: after → after <+: calls → ∀ id status,
    status.terminal = true → HasStatus (reached N before) id status →
      HasStatus (reached N after) id status
  completed : ∀ before, before <+: calls → ∀ id, HasStatus (reached N before) id .completed →
    ∃ earlier c, earlier ++ [c] <+: before ∧ Completes N earlier c id
  attached : ∀ before after, before <+: after → after <+: calls → ∀ id,
    HasStatus (reached N before) id .completed → ∀ subgoalId sub,
      (reached N before).subgoals.get? subgoalId = none →
      (reached N after).subgoals.get? subgoalId = some sub → sub.goalId = id → sub.status = .completed

variable (N) in
/-- The call gets through and spoils a goal. -/
def Careless (s : GoalState) : Call → Prop
  | .appendGoal goal now => ∃ g,
    goal.read PersistentGoal.make (PersistentGoal.fromMapping now) = .ok g ∧
      (LogRecord.goal g).writable = true ∧ s.goals.get? g.goalId = none ∧ g.status = .completed
  | .appendSubgoal subgoal now => ∃ sub,
    subgoal.read (PersistentSubgoal.make N) (PersistentSubgoal.fromMapping N now) = .ok sub ∧
      (LogRecord.subgoal sub).writable = true ∧ s.subgoals.get? sub.subgoalId = none ∧
      HasStatus s sub.goalId .completed ∧ sub.status ≠ .completed
  | .updateGoalStatus u _ => ∃ goalId existing refs,
    RequiredText.read u.goalId "goal_id" = .ok goalId ∧ s.goals.get? goalId = some existing ∧
      Attested u ∧ newEvidence u.evidenceRefs existing.evidenceRefs = .ok refs ∧
      Val.writableItems refs = true ∧ existing.status ≠ .completed ∧
      (existing.status = .active → ¬ WorkDone s goalId)
  | .updateSubgoalStatus .. => False
  | .recordProgress .. => False

/-! ## One call -/

theorem careless_ok {c : Call} (h : Careless N s c) : ∃ record, result N s c = .ok record := by
  cases c with
  | appendGoal goal now =>
    obtain ⟨g, hread, hwritable, hnew, -⟩ := h
    refine ⟨.goal g, bind_eq_ok.mpr ⟨g, hread, ?_⟩⟩
    rw [hnew]
    exact if_pos hwritable
  | appendSubgoal subgoal now =>
    obtain ⟨sub, hread, hwritable, hnew, ⟨g, hgoal, -⟩, -⟩ := h
    refine ⟨.subgoal sub, bind_eq_ok.mpr ⟨sub, hread, ?_⟩⟩
    rw [hgoal]
    dsimp only
    rw [hnew]
    exact if_pos hwritable
  | updateGoalStatus u now =>
    obtain ⟨goalId, existing, refs, hid, hexisting, hattested, hrefs, hwritable, -, -⟩ := h
    refine ⟨.goal { existing with status := .completed, updatedAt := now, evidenceRefs := refs },
      bind_eq_ok.mpr ⟨goalId, hid, ?_⟩⟩
    rw [hexisting]
    refine bind_eq_ok.mpr ⟨.completed, hattested.status, ?_⟩
    rw [if_pos rfl, if_pos hattested.accepted]
    exact bind_eq_ok.mpr ⟨refs, hrefs, if_pos hwritable⟩
  | updateSubgoalStatus u now => exact h.elim
  | recordProgress progress now => exact h.elim

variable (N) in
/-- What becomes of the goals and subgoals when a call gets through, and when it is careless. -/
inductive Step (s : GoalState) (c : Call) (s' : GoalState) : Prop where
  | quiet (goals : s'.goals = s.goals) (subgoals : s'.subgoals = s.subgoals)
      (careful : ¬ Careless N s c)
  | appended (g : PersistentGoal) (goals : s'.goals = s.goals.set g.goalId g)
      (subgoals : s'.subgoals = s.subgoals) (new : s.goals.get? g.goalId = none)
      (careless : Careless N s c ↔ g.status = .completed)
  | attached (sub : PersistentSubgoal) (goals : s'.goals = s.goals)
      (subgoals : s'.subgoals = s.subgoals.set sub.subgoalId sub)
      (new : s.subgoals.get? sub.subgoalId = none)
      (careless : Careless N s c ↔ HasStatus s sub.goalId .completed ∧ sub.status ≠ .completed)
  | moved (id : RequiredText) (g g' : PersistentGoal) (goals : s'.goals = s.goals.set id g')
      (subgoals : s'.subgoals = s.subgoals) (existing : s.goals.get? id = some g)
      (opened : g.status.terminal = false) (unfinished : g'.status ≠ .completed)
      (careful : ¬ Careless N s c)
  | completed (id : RequiredText) (g g' : PersistentGoal) (goals : s'.goals = s.goals.set id g')
      (subgoals : s'.subgoals = s.subgoals) (existing : s.goals.get? id = some g)
      (finished : g'.status = .completed)
      (attested : ∃ u now, c = .updateGoalStatus u now ∧
        RequiredText.read u.goalId "goal_id" = .ok id ∧ Attested u)
      (careless : Careless N s c ↔
        g.status ≠ .completed ∧ (g.status = .active → ¬ WorkDone s id))
  | worked (id : RequiredText) (sub sub' : PersistentSubgoal) (goals : s'.goals = s.goals)
      (subgoals : s'.subgoals = s.subgoals.set id sub')
      (existing : s.subgoals.get? id = some sub) (opened : sub.status.terminal = false)
      (parent : sub'.goalId = sub.goalId) (careful : ¬ Careless N s c)

theorem step_of_ok (hkeyed : Keyed s) {c : Call} (h : result N s c = .ok record) :
    Step N s c (s.add record) := by
  cases c with
  | appendGoal goal now =>
    obtain ⟨g, rfl, hread, hnew, hwritable⟩ := appendGoal_ok h
    refine .appended g rfl rfl hnew ⟨?_, fun hcompleted => ⟨g, hread, hwritable, hnew, hcompleted⟩⟩
    rintro ⟨g', hread', -, -, hcompleted⟩
    rw [hread] at hread'
    cases hread'
    exact hcompleted
  | appendSubgoal subgoal now =>
    obtain ⟨sub, g, rfl, hread, hgoal, hnew, hwritable⟩ := appendSubgoal_ok h
    refine .attached sub rfl rfl hnew ⟨?_, fun hbad => ⟨sub, hread, hwritable, hnew, hbad⟩⟩
    rintro ⟨sub', hread', -, -, hbad⟩
    rw [hread] at hread'
    cases hread'
    exact hbad
  | updateGoalStatus u now =>
    obtain ⟨goalId, g, status, refs, hid, hexisting, hstatus, hrefs, rfl, hwritable, hcases⟩ :=
      updateGoalStatus_ok h
    have hgoals : (s.add (.goal { g with status := status, updatedAt := now, evidenceRefs := refs })).goals =
        s.goals.set goalId { g with status := status, updatedAt := now, evidenceRefs := refs } := by
      rw [← hkeyed.goal goalId g hexisting]
      rfl
    -- a careless update is attested and finds the same goal
    have hcareless : Careless N s (.updateGoalStatus u now) ↔ Attested u ∧
        g.status ≠ .completed ∧ (g.status = .active → ¬ WorkDone s goalId) := by
      constructor
      · rintro ⟨goalId', g', refs', hid', hexisting', hattested, -, -, hbad⟩
        rw [hid] at hid'
        cases hid'
        rw [hexisting] at hexisting'
        cases hexisting'
        exact ⟨hattested, hbad⟩
      · rintro ⟨hattested, hbad⟩
        exact ⟨goalId, g, refs, hid, hexisting, hattested, hrefs, hwritable, hbad⟩
    rcases hcases with ⟨rfl, hattested⟩ | ⟨hunfinished, hopened⟩
    · refine .completed goalId g _ hgoals rfl hexisting rfl ⟨u, now, rfl, hid, hattested⟩ ?_
      rw [hcareless]
      exact ⟨fun h => h.2, fun h => ⟨hattested, h⟩⟩
    · refine .moved goalId g _ hgoals rfl hexisting hopened hunfinished fun hbad => ?_
      have hattested := (hcareless.mp hbad).1
      rw [hattested.status] at hstatus
      cases hstatus
      exact hunfinished rfl
  | updateSubgoalStatus u now =>
    obtain ⟨subgoalId, existing, sub, hexisting, rfl, hsame, hparent, hopened⟩ := updateSubgoalStatus_ok h
    have hsubgoals : (s.add (.subgoal sub)).subgoals = s.subgoals.set subgoalId sub := by
      rw [← hkeyed.subgoal subgoalId existing hexisting, ← hsame]
      rfl
    exact .worked subgoalId existing sub rfl hsubgoals hexisting hopened hparent id
  | recordProgress progress now =>
    obtain ⟨p, rfl⟩ := recordProgress_ok h
    exact .quiet rfl rfl id

/-- Where a call raises nothing changes, and it was not careless. -/
theorem step_of_error {e : Err} {c : Call} (h : result N s c = .error e) : Step N s c s := by
  refine .quiet rfl rfl fun hcareless => ?_
  obtain ⟨record, hok⟩ := careless_ok hcareless
  rw [h] at hok
  cases hok

theorem step_call (N : Numbers) (log : List LogRecord) (c : Call) :
    Step N (replay log) c (replay ((goalLog N).step log c).2) := by
  cases hresult : result N (replay log) c with
  | error e =>
    simp only [goalLog, hresult]
    exact step_of_error hresult
  | ok record =>
    simp only [goalLog, hresult]
    rw [replay_snoc]
    exact step_of_ok (keyed_replay log) hresult

theorem step_reached (calls : List Call) (c : Call) :
    Step N (reached N calls) c (reached N (calls ++ [c])) := by
  unfold reached
  rw [Machine.run_snoc]
  exact step_call N _ c

/-! ## What careful calls keep -/

variable {s' : GoalState} {c : Call} {id : RequiredText} {status : GoalStatus}

theorem hasStatus_congr (h : s'.goals = s.goals) : HasStatus s' id status ↔ HasStatus s id status := by
  unfold HasStatus
  rw [h]

theorem hasStatus_set {id' : RequiredText} {g : PersistentGoal} (h : s'.goals = s.goals.set id' g) :
    HasStatus s' id status ↔ if id = id' then g.status = status else HasStatus s id status := by
  unfold HasStatus
  rw [h, Dict.get?_set]
  split
  · constructor
    · rintro ⟨g', hg', hstatus⟩
      cases hg'
      exact hstatus
    · exact fun hstatus => ⟨g, rfl, hstatus⟩
  · exact Iff.rfl

theorem HasStatus.of_get {g : PersistentGoal} (h : HasStatus s id status)
    (hget : s.goals.get? id = some g) : g.status = status := by
  obtain ⟨g', hget', hstatus⟩ := h
  rw [hget] at hget'
  cases hget'
  exact hstatus

/-- A goal that has finished keeps its status. -/
theorem Step.keeps_terminal (h : Step N s c s') (hcareful : ¬ Careless N s c)
    (hterminal : status.terminal = true) (hstatus : HasStatus s id status) :
    HasStatus s' id status := by
  cases h with
  | quiet goals => exact (hasStatus_congr goals).mpr hstatus
  | attached sub goals => exact (hasStatus_congr goals).mpr hstatus
  | worked id' sub sub' goals => exact (hasStatus_congr goals).mpr hstatus
  | appended g goals subgoals new =>
    rw [hasStatus_set goals, if_neg]
    · exact hstatus
    · rintro rfl
      obtain ⟨g', hget, -⟩ := hstatus
      rw [new] at hget
      cases hget
  | moved id' g g' goals subgoals existing opened =>
    rw [hasStatus_set goals, if_neg]
    · exact hstatus
    · rintro rfl
      rw [hstatus.of_get existing, hterminal] at opened
      cases opened
  | completed id' g g' goals subgoals existing finished attested careless =>
    rw [hasStatus_set goals]
    split
    · rename_i hid
      subst hid
      have hg := hstatus.of_get existing
      -- a failed goal could be completed by a careless call only
      by_cases hcompleted : g.status = .completed
      · rw [finished, ← hg, hcompleted]
      · refine absurd (careless.mpr ⟨hcompleted, fun hactive => ?_⟩) hcareful
        rw [← hg, hactive] at hterminal
        cases hterminal
    · exact hstatus

/-- A goal becomes completed as it should be. -/
theorem Step.completes (h : Step N s c s') (hcareful : ¬ Careless N s c)
    (hbefore : ¬ HasStatus s id .completed) (hafter : HasStatus s' id .completed) :
    HasStatus s id .active ∧ WorkDone s id ∧ ∃ u now, c = .updateGoalStatus u now ∧
      RequiredText.read u.goalId "goal_id" = .ok id ∧ Attested u := by
  cases h with
  | quiet goals => exact absurd ((hasStatus_congr goals).mp hafter) hbefore
  | attached sub goals => exact absurd ((hasStatus_congr goals).mp hafter) hbefore
  | worked id' sub sub' goals => exact absurd ((hasStatus_congr goals).mp hafter) hbefore
  | appended g goals subgoals new careless =>
    rw [hasStatus_set goals] at hafter
    split at hafter
    · exact absurd (careless.mpr hafter) hcareful
    · exact absurd hafter hbefore
  | moved id' g g' goals subgoals existing opened unfinished =>
    rw [hasStatus_set goals] at hafter
    split at hafter
    · exact absurd hafter unfinished
    · exact absurd hafter hbefore
  | completed id' g g' goals subgoals existing finished attested careless =>
    rw [hasStatus_set goals] at hafter
    split at hafter
    · rename_i hid
      subst hid
      have hopen : g.status ≠ .completed := fun hg => hbefore ⟨g, existing, hg⟩
      have hno : ¬ (g.status = .active → ¬ WorkDone s id) :=
        fun h => hcareful (careless.mpr ⟨hopen, h⟩)
      rw [Classical.not_imp, not_not] at hno
      exact ⟨⟨g, existing, hno.1⟩, hno.2, attested⟩
    · exact absurd hafter hbefore

/-- The subgoals that a completed goal was given since a moment are completed. -/
structure AddedDone (s₀ s : GoalState) (id : RequiredText) : Prop where
  status : HasStatus s id .completed
  added : ∀ subgoalId sub, s₀.subgoals.get? subgoalId = none →
    s.subgoals.get? subgoalId = some sub → sub.goalId = id → sub.status = .completed

theorem Step.keeps_added {s₀ : GoalState} (h : Step N s c s') (hcareful : ¬ Careless N s c)
    (hadded : AddedDone s₀ s id) : AddedDone s₀ s' id := by
  refine ⟨h.keeps_terminal hcareful rfl hadded.status, fun subgoalId sub' hnew hget hid => ?_⟩
  have hold : s'.subgoals = s.subgoals → sub'.status = .completed := by
    intro hsame
    rw [hsame] at hget
    exact hadded.added subgoalId sub' hnew hget hid
  cases h with
  | quiet goals subgoals => exact hold subgoals
  | appended g goals subgoals => exact hold subgoals
  | moved id' g g' goals subgoals => exact hold subgoals
  | completed id' g g' goals subgoals => exact hold subgoals
  | attached sub goals subgoals new careless =>
    rw [subgoals, Dict.get?_set] at hget
    split at hget
    · cases hget
      by_contra hundone
      refine hcareful (careless.mpr ⟨?_, hundone⟩)
      rw [hid]
      exact hadded.status
    · exact hadded.added subgoalId sub' hnew hget hid
  | worked id' sub sub'' goals subgoals existing opened parent =>
    rw [subgoals, Dict.get?_set] at hget
    split at hget
    · rename_i heq
      subst heq
      cases hget
      -- the subgoal was completed before, so it could not be moved
      rw [hadded.added subgoalId sub hnew existing (parent.symm.trans hid)] at opened
      cases opened
    · exact hadded.added subgoalId sub' hnew hget hid

/-! ## Whole runs -/

variable {calls : List Call}

/-- What every careful call keeps holds until the end of a run. -/
theorem keeps_reached {P : GoalState → Prop}
    (hkeeps : ∀ log c, ¬ Careless N (replay log) c → P (replay log) →
      P (replay ((goalLog N).step log c).2))
    (hguarded : (goalLog N).Guarded (fun log c => ¬ Careless N (replay log) c) [] calls)
    {before after : List Call} (hbefore : before <+: after) (hafter : after <+: calls)
    (h : P (reached N before)) : P (reached N after) := by
  obtain ⟨rest, rfl⟩ := hbefore
  obtain ⟨more, rfl⟩ := hafter
  have hrest := (Machine.guarded_append.mp (Machine.guarded_append.mp hguarded).1).2
  have hstep : ∀ log c, P (replay log) → ¬ Careless N (replay log) c →
      P (replay ((goalLog N).step log c).2) := fun log c hP hcareful => hkeeps log c hcareful hP
  unfold reached
  rw [Machine.run_append]
  exact @Machine.Guarded.invariant _ _ _ (goalLog N) _ (fun log => P (replay log)) hstep _ _ hrest h

theorem finished_of_careful
    (hguarded : (goalLog N).Guarded (fun log c => ¬ Careless N (replay log) c) [] calls) :
    Finished N calls := by
  refine ⟨?_, ?_, ?_⟩
  · intro before after hbefore hafter id status hterminal hstatus
    exact keeps_reached (P := fun s => HasStatus s id status)
      (fun log c hcareful h => (step_call N log c).keeps_terminal hcareful hterminal h)
      hguarded hbefore hafter hstatus
  · intro before hbefore id hstatus
    induction before using List.reverseRecOn with
    | nil =>
      obtain ⟨g, hget, -⟩ := hstatus
      cases hget
    | append_singleton before c ih =>
      by_cases hold : HasStatus (reached N before) id .completed
      · obtain ⟨earlier, c', hbegin, hcompletes⟩ :=
          ih ((List.prefix_append before [c]).trans hbefore) hold
        exact ⟨earlier, c', hbegin.trans (List.prefix_append before [c]), hcompletes⟩
      · have hcareful := Machine.guarded_iff_prefix.mp hguarded before c hbefore
        obtain ⟨hactive, hdone, hattested⟩ := (step_reached before c).completes hcareful hold hstatus
        exact ⟨before, c, List.prefix_rfl, hactive, hdone, hattested, hstatus⟩
  · intro before after hbefore hafter id hstatus subgoalId sub hnew hget hid
    have hstart : AddedDone (reached N before) (reached N before) id := by
      refine ⟨hstatus, fun subgoalId' sub' hnone hsome => ?_⟩
      rw [hnone] at hsome
      cases hsome
    have hadded := keeps_reached (P := fun s => AddedDone (reached N before) s id)
      (fun log c hcareful h => (step_call N log c).keeps_added hcareful h) hguarded hbefore hafter hstart
    exact hadded.added subgoalId sub hnew hget hid

/-- A goal that a call has just completed was completed by this call, if all goals finish as they
should. -/
theorem Finished.completes_now (h : Finished N calls) {before : List Call} {c : Call}
    (hbegin : before ++ [c] <+: calls) {id : RequiredText}
    (hbefore : ¬ HasStatus (reached N before) id .completed)
    (hafter : HasStatus (reached N (before ++ [c])) id .completed) :
    HasStatus (reached N before) id .active ∧ WorkDone (reached N before) id := by
  obtain ⟨earlier, c', hearlier, hcompletes⟩ := h.completed _ hbegin id hafter
  rcases List.prefix_concat_iff.mp hearlier with heq | hinside
  · obtain ⟨rfl, -⟩ := List.append_inj' heq rfl
    exact ⟨hcompletes.active, hcompletes.done⟩
  · have hbefore' := (List.prefix_append before [c]).trans hbegin
    exact absurd (h.terminal _ _ hinside hbefore' id .completed rfl hcompletes.completed) hbefore

theorem careful_of_finished (h : Finished N calls) :
    (goalLog N).Guarded (fun log c => ¬ Careless N (replay log) c) [] calls := by
  refine Machine.guarded_iff_prefix.mpr fun before c hbegin hcareless => ?_
  have hcareless' : Careless N (reached N before) c := hcareless
  cases @step_reached N before c with
  | quiet goals subgoals careful => exact careful hcareless'
  | moved id g g' goals subgoals existing opened unfinished careful => exact careful hcareless'
  | worked id sub sub' goals subgoals existing opened parent careful => exact careful hcareless'
  | appended g goals subgoals new careless =>
    have hafter : HasStatus (reached N (before ++ [c])) g.goalId .completed := by
      rw [hasStatus_set goals, if_pos rfl]
      exact careless.mp hcareless'
    have hnew : ∀ status, ¬ HasStatus (reached N before) g.goalId status := by
      rintro status ⟨g', hget, -⟩
      rw [new] at hget
      cases hget
    exact hnew _ (h.completes_now hbegin (hnew _) hafter).1
  | completed id g g' goals subgoals existing finished attested careless =>
    obtain ⟨hopen, hundone⟩ := careless.mp hcareless'
    have hafter : HasStatus (reached N (before ++ [c])) id .completed := by
      rw [hasStatus_set goals, if_pos rfl]
      exact finished
    obtain ⟨hactive, hdone⟩ := h.completes_now hbegin (fun hstatus => hopen (hstatus.of_get existing)) hafter
    exact hundone (hactive.of_get existing) hdone
  | attached sub goals subgoals new careless =>
    obtain ⟨hstatus, hundone⟩ := careless.mp hcareless'
    refine hundone (h.attached before (before ++ [c]) (List.prefix_append before [c]) hbegin sub.goalId
      hstatus sub.subgoalId sub new ?_ rfl)
    rw [subgoals, Dict.get?_set, if_pos rfl]

/-- Goals finish once and only with their work done, if and only if no call is careless. -/
theorem finished_iff_careful (N : Numbers) (calls : List Call) :
    Finished N calls ↔
      (goalLog N).Guarded (fun log c => ¬ Careless N (replay log) c) [] calls :=
  ⟨careful_of_finished, finished_of_careful⟩

def attestation : GoalCompletionResult where
  accepted := true
  goalId := "g"
  toState := "completed"
  evidenceRefs := [.record "g" true]
  sessionId := ""
  goalLineage := .dict []
  issued := true

def plainNumbers : Numbers where
  ratio := .ok
  truncate _ := .error .typeError

def noon : RequiredText := ⟨"2026-07-12T12:00:00+00:00", by decide, by decide⟩

/-- A goal fails after its completion was attested. -/
def failedGoal : List Call :=
  [.appendGoal
      (.object
        { goalId := .str "g", title := .str "t", status := .str "active", createdAt := .str noon.text,
          updatedAt := .str noon.text }) noon,
    .updateGoalStatus { goalId := .str "g", status := .str "failed" } noon]

def lateCompletion : Call :=
  .updateGoalStatus
    { goalId := .str "g", status := .str "completed", completionAttestation := some attestation } noon

/-- The attestation completes a goal that has failed in the meantime. -/
theorem failed_goal_completed : ¬ Finished plainNumbers (failedGoal ++ [lateCompletion]) := by
  intro h
  have hfailed : HasStatus (reached plainNumbers failedGoal) ⟨"g", by decide, by decide⟩ .failed := by
    decide +kernel
  have hstill := h.terminal failedGoal _ (List.prefix_append failedGoal [lateCompletion]) List.prefix_rfl
    _ _ rfl hfailed
  revert hstill
  decide +kernel

end GoalLog
end ZeroRuntime
