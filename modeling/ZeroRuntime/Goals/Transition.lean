import ZeroRuntime.Lib.Reasons
import ZeroRuntime.Lib.Value

/-!
# ZeroRuntime.Goals.Transition

Transitions in the life of a goal, and the machine that decides on them
(`core/goals/goal_state_machine.py`).

* `GoalTransition.make` cleans what it is given: a goal that is pending counts as planned.
* `transition`: a goal is completed only by the holder of the completion token.
-/

namespace ZeroRuntime
namespace Goals

open Lib

/-- `GoalState` and `SubgoalState` -/
inductive LifecycleState where
  | created | pending | planned | active | blocked | resumable | completed | failed
deriving DecidableEq, Repr

def LifecycleState.value : LifecycleState → String
  | created => "created"
  | pending => "pending"
  | planned => "planned"
  | active => "active"
  | blocked => "blocked"
  | resumable => "resumable"
  | completed => "completed"
  | failed => "failed"

inductive TargetType where
  | goal | subgoal
deriving DecidableEq, Repr

def TargetType.value : TargetType → String
  | goal => "goal"
  | subgoal => "subgoal"

def TargetType.states : TargetType → List LifecycleState
  | goal => [.created, .planned, .active, .blocked, .resumable, .completed, .failed]
  | subgoal => [.pending, .active, .blocked, .resumable, .completed, .failed]

inductive TransitionAction where
  | create | plan | start | block | resumeReady | complete | fail | pause | retry
deriving DecidableEq, Repr

def TransitionAction.value : TransitionAction → String
  | create => "create"
  | plan => "plan"
  | start => "start"
  | block => "block"
  | resumeReady => "resume_ready"
  | complete => "complete"
  | fail => "fail"
  | pause => "pause"
  | retry => "retry"

def allActions : List TransitionAction :=
  [.create, .plan, .start, .block, .resumeReady, .complete, .fail, .pause, .retry]

/-- A piece of evidence: a record of a goal that the evidence validator has or has not validated,
or any other value. -/
inductive EvidenceRef where
  | record (goalId : String) (validated : Bool)
  | value (x : Val)

/-- `is_provenance_validated_evidence` -/
def EvidenceRef.isProvenanceValidated (goalId : String) : EvidenceRef → Bool
  | record g validated => validated && g == goalId
  | value _ => false

/-! ## Cleaning -/

/-- `str(value or "").strip().lower()` -/
def lowered (value : Val) : String := Text.lower value.text

def cleanLifecycleState (t : TargetType) (value : Val) : Except Err LifecycleState :=
  let raw := if t = .goal ∧ lowered value = "pending" then "planned" else lowered value
  match t.states.find? fun state => state.value = raw with
  | some state => .ok state
  | none => .error (.valueError (t.value ++ "_transition_requires_valid_state"))

def cleanTransitionAction (value : Val) : Except Err TransitionAction :=
  match allActions.find? fun action => action.value = lowered value with
  | some action => .ok action
  | none => .error (.valueError "goal_transition_requires_valid_action")

def cleanRequiredText (value : Val) (fieldName : String) : Except Err String :=
  if value.text = "" then .error (.valueError ("goal_requires_" ++ fieldName)) else .ok value.text

def cleanOptionalText : Val → Option String
  | .none => none
  | value => if Text.strip value.toText = "" then none else some (Text.strip value.toText)

/-! ## Transitions -/

structure GoalTransition where
  targetType : TargetType
  targetId : String
  fromState : LifecycleState
  toState : LifecycleState
  action : TransitionAction
  reason : Option String
  resumePoint : Val
  evidenceRefs : List EvidenceRef

/-- `GoalTransition.__post_init__` -/
def GoalTransition.make (targetType : TargetType) (targetId fromState toState action reason : Val)
    (resumePoint : Val) (evidenceRefs : List EvidenceRef) : Except Err GoalTransition := do
  let targetId ← cleanRequiredText targetId "transition_target_id"
  let fromState ← cleanLifecycleState targetType fromState
  let toState ← cleanLifecycleState targetType toState
  let action ← cleanTransitionAction action
  .ok
    { targetType, targetId, fromState, toState, action, reason := cleanOptionalText reason
      resumePoint, evidenceRefs }

structure GoalTransitionResult where
  accepted : Bool
  fromState : LifecycleState
  toState : LifecycleState
  reason : String
  blockedReason : Option String := none

def goalTransitions : List (LifecycleState × LifecycleState × TransitionAction) :=
  [(.created, .planned, .plan), (.planned, .active, .start), (.pending, .active, .start),
    (.blocked, .resumable, .resumeReady), (.active, .completed, .complete),
    (.created, .blocked, .block), (.planned, .blocked, .block), (.pending, .blocked, .block),
    (.active, .blocked, .block), (.resumable, .blocked, .block), (.created, .blocked, .pause),
    (.planned, .blocked, .pause), (.pending, .blocked, .pause), (.active, .blocked, .pause),
    (.resumable, .blocked, .pause), (.created, .failed, .fail), (.planned, .failed, .fail),
    (.pending, .failed, .fail), (.active, .failed, .fail), (.blocked, .failed, .fail),
    (.resumable, .failed, .fail)]

def subgoalTransitions : List (LifecycleState × LifecycleState × TransitionAction) :=
  [(.pending, .active, .start), (.pending, .blocked, .block), (.pending, .blocked, .pause),
    (.pending, .failed, .fail), (.blocked, .resumable, .resumeReady),
    (.active, .completed, .complete), (.active, .blocked, .block), (.active, .blocked, .pause),
    (.active, .failed, .fail)]

def TargetType.transitions : TargetType → List (LifecycleState × LifecycleState × TransitionAction)
  | goal => goalTransitions
  | subgoal => subgoalTransitions

def allEvidenceRefsValidated (refs : List EvidenceRef) (goalId : String) : Bool :=
  !refs.isEmpty && refs.all (·.isProvenanceValidated goalId)

/-- `x is None` -/
def isAbsent : Val → Bool
  | .none => true
  | _ => false

/-- `GoalStateValidator.validate`: what is wrong with a transition. -/
def violations (t : GoalTransition) (allSubgoalsCompleted : Option Bool) : List String :=
  let completing : Bool := t.targetType = .goal ∧ t.toState = .completed
  (if t.fromState ∈ [LifecycleState.completed, .failed] then
    [t.fromState.value ++ "_state_is_terminal"] else []) ++
  (if (t.fromState, t.toState, t.action) ∉ t.targetType.transitions then
    ["transition_not_allowed"] else []) ++
  (if t.toState = .resumable ∧ isAbsent t.resumePoint then
    ["resumable_requires_resume_point"] else []) ++
  (if t.toState = .blocked ∧ t.reason = none then ["blocked_requires_reason"] else []) ++
  (if completing then
    (if t.evidenceRefs.isEmpty then ["completed_goal_requires_evidence"]
      else if !allEvidenceRefsValidated t.evidenceRefs t.targetId then
        ["completed_goal_requires_validated_evidence"] else []) ++
    (if allSubgoalsCompleted ≠ some true then
      ["completed_goal_requires_completed_subgoals"] else [])
    else []) ++
  (if t.fromState = .resumable ∧ t.toState = .active then
    ["resumable_activation_requires_runtime_adaptive"] else [])

/-- `GoalStateMachine.transition`; `token` says whether the completion token is given. -/
def transition (t : GoalTransition) (allSubgoalsCompleted : Option Bool) (token : Bool) :
    GoalTransitionResult :=
  let refused (why : String) : GoalTransitionResult :=
    { accepted := false, fromState := t.fromState, toState := t.toState
      reason := "goal_lifecycle_contract_violation", blockedReason := some why }
  if t.targetType = .goal ∧ t.toState = .completed ∧ !token then
    refused "canonical_completion_authority_required"
  else if violations t allSubgoalsCompleted ≠ [] then
    refused (";".intercalate (violations t allSubgoalsCompleted))
  else
    { accepted := true, fromState := t.fromState, toState := t.toState
      reason := t.reason.getD "goal_lifecycle_transition_accepted" }

/-! ## What the machine accepts -/

/-- The machine accepts some transition of a goal from one stored status to another. -/
def AcceptsChange (goalId status status' : String) : Prop :=
  ∃ action reason resumePoint refs t allSubgoalsCompleted token,
    GoalTransition.make .goal (.str goalId) (.str status) (.str status') action reason resumePoint
      refs = .ok t ∧ (transition t allSubgoalsCompleted token).accepted = true

variable {t : GoalTransition}

variable {allSubgoalsCompleted : Option Bool}

theorem transition_accepted_iff {token : Bool} :
    (transition t allSubgoalsCompleted token).accepted = true ↔
      ¬(t.targetType = .goal ∧ t.toState = .completed ∧ (!token) = true) ∧
        violations t allSubgoalsCompleted = [] := by
  unfold transition
  split
  · rename_i hrefused
    exact ⟨(fun h => by cases h), fun h => absurd hrefused h.1⟩
  · rename_i hfree
    split
    · rename_i hbad
      exact ⟨(fun h => by cases h), fun h => absurd h.2 hbad⟩
    · rename_i hgood
      exact ⟨fun _ => ⟨hfree, not_not.mp hgood⟩, fun _ => rfl⟩

/-- What the machine asks of a transition that completes no goal. -/
theorem violations_eq_nil (hopen : ¬(t.targetType = .goal ∧ t.toState = .completed)) :
    violations t allSubgoalsCompleted = [] ↔
      t.fromState ∉ [LifecycleState.completed, .failed] ∧
      (t.fromState, t.toState, t.action) ∈ t.targetType.transitions ∧
      ¬(t.toState = .resumable ∧ isAbsent t.resumePoint = true) ∧
      ¬(t.toState = .blocked ∧ t.reason = none) ∧
      ¬(t.fromState = .resumable ∧ t.toState = .active) := by
  have hcompleting : ¬decide (t.targetType = .goal ∧ t.toState = .completed) = true := by
    rw [decide_eq_true_eq]
    exact hopen
  unfold violations
  simp only [if_neg hcompleting, List.append_nil, List.append_eq_nil_iff, found_eq_nil, not_not,
    and_assoc]

variable {s : LifecycleState} {a : TransitionAction}

theorem planned_of_active (h : (.active, s, a) ∈ goalTransitions) (hs : s ≠ .completed) :
    (.planned, s, a) ∈ goalTransitions := by
  revert h
  cases s <;> cases a <;> first | exact absurd rfl hs | decide

variable {targetType : TargetType} {refs : List EvidenceRef}

theorem make_ok {targetId fromState toState action reason resumePoint : Val}
    (h : GoalTransition.make targetType targetId fromState toState action reason resumePoint refs =
      .ok t) :
    t.targetType = targetType ∧ targetId.text ≠ "" ∧
      cleanLifecycleState targetType fromState = .ok t.fromState ∧
      cleanLifecycleState targetType toState = .ok t.toState ∧
      cleanTransitionAction action = .ok t.action ∧ t.reason = cleanOptionalText reason ∧
      t.resumePoint = resumePoint := by
  unfold GoalTransition.make at h
  obtain ⟨id, hid, h⟩ := bind_eq_ok.mp h
  obtain ⟨from', hfrom, h⟩ := bind_eq_ok.mp h
  obtain ⟨to', hto, h⟩ := bind_eq_ok.mp h
  obtain ⟨action', haction, h⟩ := bind_eq_ok.mp h
  cases h
  refine ⟨rfl, fun hblank => ?_, hfrom, hto, haction, rfl, rfl⟩
  unfold cleanRequiredText at hid
  rw [if_pos hblank] at hid
  cases hid

theorem make_isOk {targetId fromState toState action : Val} {f : LifecycleState}
    (hid : targetId.text ≠ "") (hfrom : cleanLifecycleState targetType fromState = .ok f)
    (hto : cleanLifecycleState targetType toState = .ok s)
    (haction : cleanTransitionAction action = .ok a) (reason resumePoint : Val)
    (refs : List EvidenceRef) :
    ∃ t, GoalTransition.make targetType targetId fromState toState action reason resumePoint refs =
      .ok t ∧ t.targetType = targetType ∧ t.fromState = f ∧ t.toState = s ∧ t.action = a ∧
        t.reason = cleanOptionalText reason ∧ t.resumePoint = resumePoint := by
  unfold GoalTransition.make cleanRequiredText
  rw [if_neg hid, hfrom, hto, haction]
  exact ⟨_, rfl, rfl, rfl, rfl, rfl, rfl, rfl⟩

variable {goalId : String}

/-- A pending goal counts as active when it is updated; whatever is accepted then is accepted of a
pending goal as well. -/
theorem acceptsChange_of_pending {status' : String} {action reason resumePoint : Val}
    (hmake : GoalTransition.make .goal (.str goalId) (.str "active") (.str status') action reason
      resumePoint refs = .ok t) (haccepted : (transition t none false).accepted = true) :
    AcceptsChange goalId "pending" status' := by
  obtain ⟨htype, hid, hfrom, hto, haction, hreason, hpoint⟩ := make_ok hmake
  have hactive : t.fromState = .active := by
    have hclean : cleanLifecycleState .goal (.str "active") = .ok .active := by decide
    rw [hclean] at hfrom
    exact (Except.ok.inj hfrom).symm
  obtain ⟨hfree, hgood⟩ := transition_accepted_iff.mp haccepted
  have hopen : t.toState ≠ .completed := fun h => hfree ⟨htype, h, rfl⟩
  obtain ⟨-, htable, hresume, hblock, -⟩ := (violations_eq_nil fun h => hopen h.2).mp hgood
  rw [htype, hactive] at htable
  obtain ⟨t', hmake', htype', hfrom', hto', haction', hreason', hpoint'⟩ :=
    make_isOk hid (show cleanLifecycleState .goal (.str "pending") = .ok .planned by decide) hto
      haction reason resumePoint refs
  refine ⟨action, reason, resumePoint, refs, t', none, false, hmake',
    transition_accepted_iff.mpr ⟨?_, (violations_eq_nil ?_).mpr ⟨?_, ?_, ?_, ?_, ?_⟩⟩⟩
  · rw [hto']
    exact fun h => hopen h.2.1
  · rw [hto']
    exact fun h => hopen h.2
  · rw [hfrom']
    decide
  · rw [htype', hfrom', hto', haction']
    exact planned_of_active htable hopen
  · rw [hto', hpoint', ← hpoint]
    exact hresume
  · rw [hto', hreason', ← hreason]
    exact hblock
  · rw [hfrom']
    exact fun h => absurd h.1 (by decide)

/-- A state that a text is cleaned to has that name, unless the text is `pending`. -/
theorem value_of_clean {s : String} {state : LifecycleState} (hs : lowered (.str s) = s)
    (h : cleanLifecycleState .goal (.str s) = .ok state) :
    state.value = s ∨ s = "pending" ∧ state = .planned := by
  unfold cleanLifecycleState at h
  rw [hs] at h
  dsimp only at h
  generalize hfind : (TargetType.goal.states.find? fun state' => decide (state'.value =
    if TargetType.goal = .goal ∧ s = "pending" then "planned" else s)) = found at h
  cases found with
  | none => cases h
  | some found =>
    rw [← Except.ok.inj h]
    have hfound := List.find?_some hfind
    have hvalue := of_decide_eq_true hfound
    by_cases hpending : s = "pending"
    · rw [if_pos ⟨rfl, hpending⟩] at hvalue
      refine .inr ⟨hpending, ?_⟩
      cases found <;> first | rfl | exact absurd hvalue (by decide)
    · rw [if_neg fun hboth => hpending hboth.2] at hvalue
      exact .inl hvalue

theorem created_of_planned (h : (s, .planned, a) ∈ goalTransitions) : s = .created := by
  revert h
  cases s <;> cases a <;> first | exact fun _ => rfl | decide

/-- Only a goal that was just created can become pending. -/
theorem created_of_acceptsChange {status : String} (hs : lowered (.str status) = status)
    (h : AcceptsChange goalId status "pending") : status = "created" := by
  obtain ⟨action, reason, resumePoint, refs, t, subgoals, token, hmake, haccepted⟩ := h
  obtain ⟨htype, -, hfrom, hto, -⟩ := make_ok hmake
  have hplanned : t.toState = .planned := by
    have hclean : cleanLifecycleState .goal (.str "pending") = .ok .planned := by decide
    rw [hclean] at hto
    exact (Except.ok.inj hto).symm
  have hgood := (transition_accepted_iff.mp haccepted).2
  rw [violations_eq_nil fun h => by rw [hplanned] at h; exact absurd h.2 (by decide)] at hgood
  have htable := hgood.2.1
  rw [htype, hplanned] at htable
  have hcreated := created_of_planned htable
  rw [hcreated] at hfrom
  rcases value_of_clean hs hfrom with hvalue | ⟨-, hno⟩
  · exact hvalue.symm
  · cases hno

theorem acceptsChange_of_created (hid : (Val.str goalId).text ≠ "") :
    AcceptsChange goalId "created" "pending" := by
  obtain ⟨t, hmake, htype, hfrom, hto, haction, -, -⟩ :=
    make_isOk hid (show cleanLifecycleState .goal (.str "created") = .ok .created by decide)
      (show cleanLifecycleState .goal (.str "pending") = .ok .planned by decide)
      (show cleanTransitionAction (.str "plan") = .ok .plan by decide) .none .none []
  refine ⟨_, _, _, _, t, none, false, hmake, transition_accepted_iff.mpr ⟨?_, ?_⟩⟩
  · rw [hto]
    exact fun h => absurd h.2.1 (by decide)
  · rw [violations_eq_nil (by rw [hto]; exact fun h => absurd h.2 (by decide)), hfrom, hto, htype,
      haction]
    refine ⟨by decide, by decide, ?_, ?_, ?_⟩
    · exact fun h => absurd h.1 (by decide)
    · exact fun h => absurd h.1 (by decide)
    · exact fun h => absurd h.1 (by decide)

theorem not_acceptsChange_complete {status : String} : ¬AcceptsChange goalId status "complete" := by
  rintro ⟨action, reason, resumePoint, refs, t, subgoals, token, hmake, -⟩
  obtain ⟨-, -, -, hto, -⟩ := make_ok hmake
  have hclean : cleanLifecycleState .goal (.str "complete") =
      .error (.valueError "goal_transition_requires_valid_state") := by decide
  rw [hclean] at hto
  cases hto

end Goals
end ZeroRuntime
