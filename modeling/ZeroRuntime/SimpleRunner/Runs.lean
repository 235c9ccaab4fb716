import ZeroRuntime.SimpleRunner.Model

/-!
# ZeroRuntime.SimpleRunner.Runs

The runs of the simple runner: every step once, in order, and only when it may.

A result reports a failure if it says so itself or wraps one that does, through however many
containers (`Reports`); the runner looks through five levels (`extract_found`). A call is `Fair` if
the dependencies of a task that is not terminal are done, and what an executed step reports is
reported within these levels. In a run of fair calls the index of the task counts the steps that
succeeded (`Progress`), and with this every call keeps the law of the runner (`Lawful`).
-/

namespace ZeroRuntime
namespace SimpleRunner

open Lib

variable {buildFinalAnswer : List Val → String}

/-! ## What a result reports -/

/-- The result itself, or one that it wraps so many times over, reports that the step was blocked or
failed. -/
def ReportsAt : Nat → Val → Prop
  | 0, result => (levelSignal result.entries).found = true
  | depth + 1, result => ∃ key ∈ containers, ReportsAt depth (Val.getIn key result.entries)

def Reports (result : Val) : Prop := ∃ depth, ReportsAt depth result

variable {result : Val}

theorem not_reportsAt_nil (depth : Nat) (h : result.entries = []) : ¬ReportsAt depth result := by
  induction depth generalizing result with
  | zero =>
    unfold ReportsAt
    rw [h]
    decide +kernel
  | succ depth ih =>
    rintro ⟨key, -, hnested⟩
    rw [h] at hnested
    exact ih rfl hnested

/-- The search finds what is reported within the depth it is given. -/
theorem extract_found {depth : Nat} :
    (extractSimpleStepFailureSignal depth result).found = true ↔ ∃ d < depth, ReportsAt d result := by
  induction depth generalizing result with
  | zero => exact ⟨fun h => (by cases h), fun ⟨d, hd, _⟩ => absurd hd (Nat.not_lt_zero d)⟩
  | succ depth ih =>
    cases result with
    | dict payload =>
      unfold extractSimpleStepFailureSignal
      by_cases hlevel : (levelSignal payload).found = true
      · rw [if_pos hlevel]
        exact ⟨fun _ => ⟨0, Nat.succ_pos depth, hlevel⟩, fun _ => hlevel⟩
      · rw [if_neg hlevel]
        have hnested : ((List.find? Signal.found (containers.map fun key =>
            extractSimpleStepFailureSignal depth (Val.getIn key payload))).getD noSignal).found = true ↔
            ∃ key ∈ containers,
              (extractSimpleStepFailureSignal depth (Val.getIn key payload)).found = true := by
          cases hfind : List.find? Signal.found (containers.map fun key =>
              extractSimpleStepFailureSignal depth (Val.getIn key payload)) with
          | none =>
            rw [List.find?_eq_none] at hfind
            refine ⟨fun h => (by cases h), fun ⟨key, hkey, h⟩ => ?_⟩
            exact absurd h (hfind _ (List.mem_map.mpr ⟨key, hkey, rfl⟩))
          | some signal =>
            obtain ⟨key, hkey, hsignal⟩ := List.mem_map.mp (List.mem_of_find?_eq_some hfind)
            have hfound : signal.found = true := List.find?_some hfind
            exact ⟨fun _ => ⟨key, hkey, by rw [hsignal]; exact hfound⟩, fun _ => hfound⟩
        rw [hnested]
        constructor
        · rintro ⟨key, hkey, h⟩
          obtain ⟨d, hd, hreports⟩ := ih.mp h
          exact ⟨d + 1, Nat.succ_lt_succ hd, key, hkey, hreports⟩
        · rintro ⟨d, hd, hreports⟩
          cases d with
          | zero => exact absurd hreports hlevel
          | succ d =>
            obtain ⟨key, hkey, h⟩ := hreports
            exact ⟨key, hkey, ih.mpr ⟨d, Nat.lt_of_succ_lt_succ hd, h⟩⟩
    | _ =>
      refine ⟨fun h => (by cases h), fun ⟨d, _, hreports⟩ => ?_⟩
      exact absurd hreports (not_reportsAt_nil d rfl)

/-! ## The law -/

/-- The call executed the step at `i`, and its result reports no failure. -/
def Succeeded (i : Nat) (call : Call × Ticked) : Prop :=
  ∃ step result, call.2.executed = some (i, step) ∧ call.1.outcome = .returned result ∧
    ¬Reports result

/-- What a call comes to, after the calls of `history`, on a task that was given `steps`. -/
structure Lawful (steps : List Val) (history : List (Call × Ticked)) (s : Scheduler) (call : Call)
    (after : Ticked × Scheduler) : Prop where
  /-- It does not raise. -/
  returns : ∃ payload, after.1.answer = .ok payload
  /-- While a dependency is not done it executes nothing and returns status blocked. -/
  waits : s.task.terminal = false → call.waiting ≠ none →
    after.1.executed = none ∧
      ∃ payload, after.1.answer = .ok payload ∧
        Val.getIn "status" payload = .str statusBlocked
  /-- It executes a step only after each step before it succeeded. -/
  ordered : ∀ i step, after.1.executed = some (i, step) →
    steps[i]? = some step ∧ ∀ j < i, ∃ earlier ∈ history, Succeeded j earlier
  /-- It executes no step that succeeded before. -/
  once : ∀ i step, after.1.executed = some (i, step) →
    ∀ earlier ∈ history, ¬Succeeded i earlier
  /-- It executes nothing of a terminal task. -/
  terminal : s.task.terminal = true → after.1.executed = none
  /-- The task becomes finished if its last step succeeds, or if it has no steps, and not else. -/
  finishes : (s.task.status ≠ "finished" ∧
      after.2.task.status = "finished") ↔
    (∃ i, i + 1 = steps.length ∧ Succeeded i (call, after.1)) ∨
      (steps = [] ∧ s.task.terminal = false ∧ call.waiting = none)

/-- The dependencies of a task that is not terminal are done, and a failure that the result of its
step reports is within the levels that the runner looks through. -/
def Fair (s : Scheduler) (call : Call) : Prop :=
  s.task.terminal = false → call.waiting = none ∧
    ∀ step result, s.task.steps[s.task.currentStepIndex]? = some step → step.isDict = true →
      call.outcome = .returned result → Reports result → ∃ depth < maxDepth, ReportsAt depth result

/-- The replanner accepts nothing. -/
def Call.refused (call : Call) : Prop := (Val.getIn "replanned" call.replan.result).truthy = false

/-! ## One call -/

/-- What a handler leaves of a task whose step did not succeed. -/
structure Held (task : SimpleTask) (handled : Except Err Entries × SimpleTask) : Prop where
  returns : ∃ payload, handled.1 = .ok payload
  steps : handled.2.steps = task.steps
  index : handled.2.currentStepIndex = task.currentStepIndex
  status : handled.2.status ≠ "finished"

variable {task : SimpleTask}

theorem held_exception {tick : Int} {step : Val} {error : String} {replan : Replan}
    (h : (Val.getIn "replanned" replan.result).truthy = false) :
    Held task (handleSimpleStepException tick task step error replan) := by
  unfold handleSimpleStepException
  rw [if_neg (by rw [h]; exact Bool.false_ne_true)]
  exact ⟨⟨_, rfl⟩, rfl, rfl, show "failed" ≠ "finished" by decide⟩

theorem held_blockedOrFailed (tick : Int) (task : SimpleTask) (step result : Val) (signal : Signal) :
    Held task (handleSimpleStepBlockedOrFailedResult tick task step result signal) := by
  refine ⟨⟨_, rfl⟩, rfl, rfl, ?_⟩
  change (if signal.blocked then statusBlocked else "failed") ≠ "finished"
  split <;> decide

theorem held_invalid (tick : Int) (task : SimpleTask) :
    Held task (handleSimpleInvalidStep tick task) :=
  ⟨⟨_, rfl⟩, rfl, rfl, show "failed" ≠ "finished" by decide⟩

/-- What a step that succeeded leaves. -/
theorem advanceStep_spec (tick : Int) (task : SimpleTask) (step result : Val) :
    (∃ payload, (advanceStep tick task buildFinalAnswer step result).1 = .ok payload) ∧
    (advanceStep tick task buildFinalAnswer step result).2.steps = task.steps ∧
    (advanceStep tick task buildFinalAnswer step result).2.currentStepIndex =
      task.currentStepIndex + 1 ∧
    (advanceStep tick task buildFinalAnswer step result).2.status =
      if task.steps.length ≤ task.currentStepIndex + 1 then "finished" else "queued" := by
  unfold advanceStep
  dsimp only
  split
  · exact ⟨⟨_, rfl⟩, rfl, rfl, rfl⟩
  · exact ⟨⟨_, rfl⟩, rfl, rfl, rfl⟩

/-- What one call does: the task moves on by one step, or it does not. -/
structure Went (call : Call) (task : SimpleTask) (moved : Bool) (ticked : Ticked)
    (task' : SimpleTask) : Prop where
  returns : ∃ payload, ticked.answer = .ok payload
  steps : task'.steps = task.steps
  index : task'.currentStepIndex = task.currentStepIndex + moved.toNat
  executed : ∀ i step, ticked.executed = some (i, step) →
    task.terminal = false ∧ i = task.currentStepIndex ∧ task.steps[i]? = some step
  succeeded : ∀ j, Succeeded j (call, ticked) ↔ moved = true ∧ j = task.currentStepIndex
  finishes : (task.status ≠ "finished" ∧ task'.status = "finished") ↔
    task.terminal = false ∧ task.steps.length ≤ task.currentStepIndex + moved.toNat
  runs : task'.terminal = false → task'.currentStepIndex < task.steps.length

theorem status_ne_finished (h : task.terminal = false) : task.status ≠ "finished" := by
  intro hstatus
  unfold SimpleTask.terminal at h
  rw [hstatus] at h
  exact absurd h (by decide +kernel)

theorem terminal_of_finished (h : task.status = "finished") : task.terminal = true := by
  by_contra hterminal
  exact status_ne_finished (Bool.eq_false_iff.mpr hterminal) h

variable {call : Call}

theorem not_succeeded_none {j : ℕ} {answer : Except Err Entries} :
    ¬Succeeded j (call, ⟨none, answer⟩) := by
  rintro ⟨step, result, h, -⟩
  cases h

/-- A step that did not succeed leaves the task where it is. -/
theorem went_held {executed : Option (Nat × Val)} {step : Val}
    {handled : Except Err Entries × SimpleTask} (hterminal : task.terminal = false)
    (hstep : task.steps[task.currentStepIndex]? = some step) (hheld : Held task handled)
    (hexecuted : executed = none ∨ executed = some (task.currentStepIndex, step))
    (hfailed : ∀ j, ¬Succeeded j (call, ⟨executed, handled.1⟩)) :
    Went call task false ⟨executed, handled.1⟩ handled.2 := by
  have hlt := (List.getElem?_eq_some_iff.mp hstep).1
  refine ⟨hheld.returns, hheld.steps, hheld.index, fun i step' h => ?_, fun j => ?_, ?_, fun _ => ?_⟩
  · rcases hexecuted with hnone | hsome
    · rw [hnone] at h
      cases h
    · rw [hsome] at h
      cases h
      exact ⟨hterminal, rfl, hstep⟩
  · exact ⟨fun h => absurd h (hfailed j), fun h => (by cases h.1)⟩
  · refine ⟨fun h => absurd h.2 hheld.status, fun ⟨_, hle⟩ => ?_⟩
    rw [Bool.toNat_false] at hle
    omega
  · rw [hheld.index]
    exact hlt

/-- A step that succeeded moves the task on. -/
theorem went_advanced {tick : Int} {step : Val} (hterminal : task.terminal = false)
    (hstep : task.steps[task.currentStepIndex]? = some step)
    (houtcome : call.outcome = .returned result) (hreports : ¬Reports result) :
    Went call task true
      ⟨some (task.currentStepIndex, step), (advanceStep tick task buildFinalAnswer step result).1⟩
      (advanceStep tick task buildFinalAnswer step result).2 := by
  obtain ⟨hreturns, hsteps, hindex, hstatus⟩ := @advanceStep_spec buildFinalAnswer tick task step result
  refine ⟨hreturns, hsteps, hindex, fun i step' h => ?_, fun j => ?_, ?_, fun hruns => ?_⟩
  · cases h
    exact ⟨hterminal, rfl, hstep⟩
  · constructor
    · rintro ⟨step', result', h, -⟩
      cases h
      exact ⟨rfl, rfl⟩
    · rintro ⟨-, rfl⟩
      exact ⟨step, result, rfl, houtcome, hreports⟩
  · rw [hstatus, Bool.toNat_true]
    split
    · rename_i hle
      exact ⟨fun _ => ⟨hterminal, hle⟩, fun _ => ⟨status_ne_finished hterminal, rfl⟩⟩
    · rename_i hlt
      exact ⟨fun h => absurd h.2 (by decide), fun h => absurd h.2 hlt⟩
  · rw [hindex]
    by_contra hle
    rw [if_pos (Nat.le_of_not_lt hle)] at hstatus
    rw [terminal_of_finished hstatus] at hruns
    cases hruns

/-- What a fair call does, unless the replanner accepts. -/
theorem went {s : Scheduler} {call : Call} (hrefused : call.refused) (hfair : Fair s call) :
    ∃ moved, Went call s.task moved (runSimpleTaskTick buildFinalAnswer s call).1
      (runSimpleTaskTick buildFinalAnswer s call).2.task := by
  unfold runSimpleTaskTick runSimpleTask
  dsimp only
  generalize call.tick.getD s.currentTick = tick
  cases hterminal : s.task.terminal with
  | true =>
    refine ⟨false, ⟨_, rfl⟩, rfl, rfl, fun i step h => (by cases h), fun j => ?_, ?_, fun h => ?_⟩
    · exact ⟨fun h => absurd h not_succeeded_none, fun h => (by cases h.1)⟩
    · exact ⟨fun h => absurd h.2 h.1, fun h => absurd (hterminal.symm.trans h.1) (by decide)⟩
    · exact absurd (hterminal.symm.trans h) (by decide)
  | false =>
    obtain ⟨hwaiting, hwithin⟩ := hfair hterminal
    rw [if_neg Bool.false_ne_true, hwaiting]
    cases hstep : s.task.steps[s.task.currentStepIndex]? with
    | none =>
      have hle := List.getElem?_eq_none_iff.mp hstep
      refine ⟨false, ⟨_, rfl⟩, rfl, rfl, fun i step h => (by cases h), fun j => ?_, ?_, fun h => ?_⟩
      · exact ⟨fun h => absurd h not_succeeded_none, fun h => (by cases h.1)⟩
      · exact ⟨fun _ => ⟨hterminal, hle⟩, fun _ => ⟨status_ne_finished hterminal, rfl⟩⟩
      · exact absurd (h.symm.trans (terminal_of_finished rfl)) (by decide)
    | some step =>
      dsimp only
      cases hdict : step.isDict with
      | false =>
        rw [if_neg Bool.false_ne_true]
        exact ⟨false, went_held hterminal hstep (held_invalid tick s.task) (.inl rfl)
          fun j => not_succeeded_none⟩
      | true =>
        rw [if_pos rfl]
        unfold executeStep
        cases houtcome : call.outcome with
        | raised error =>
          refine ⟨false, went_held hterminal hstep (held_exception hrefused) (.inr rfl) ?_⟩
          rintro j ⟨step', result, -, h, -⟩
          rw [houtcome] at h
          cases h
        | returned result =>
          dsimp only
          unfold handleSimpleStepSuccess
          dsimp only
          split
          · rename_i hfound
            refine ⟨false, went_held hterminal hstep
              (held_blockedOrFailed tick s.task step result _) (.inr rfl) ?_⟩
            rintro j ⟨step', result', -, h, hreports⟩
            rw [houtcome] at h
            cases h
            obtain ⟨depth, -, h⟩ := extract_found.mp hfound
            exact hreports ⟨depth, h⟩
          · rename_i hfound
            refine ⟨true, went_advanced hterminal hstep houtcome fun hreports => hfound ?_⟩
            exact extract_found.mpr (hwithin step result hstep hdict houtcome hreports)

/-! ## Runs -/

/-- The index of the task counts the steps that succeeded so far. -/
structure Progress (steps : List Val) (history : List (Call × Ticked)) (s : Scheduler) : Prop where
  same : s.task.steps = steps
  counts : ∀ j, (∃ earlier ∈ history, Succeeded j earlier) ↔ j < s.task.currentStepIndex
  within : s.task.terminal = false → steps = [] ∨ s.task.currentStepIndex < steps.length

section Runs

variable {steps : List Val} {history : List (Call × Ticked)} {s : Scheduler} {call : Call}
  {after : Ticked × Scheduler} {moved : Bool}

theorem Progress.next (h : Progress steps history s)
    (hwent : Went call s.task moved after.1 after.2.task) :
    Progress steps (history ++ [(call, after.1)]) after.2 := by
  refine ⟨hwent.steps.trans h.same, fun j => ?_, fun hruns => ?_⟩
  · simp only [List.mem_append, List.mem_singleton, or_and_right, exists_or, exists_eq_left]
    rw [h.counts, hwent.succeeded, hwent.index]
    cases moved with
    | true => simp; omega
    | false => simp
  · rw [← h.same]
    exact .inr (hwent.runs hruns)

theorem Progress.lawful (h : Progress steps history s) (hfair : Fair s call)
    (hwent : Went call s.task moved after.1 after.2.task) :
    Lawful steps history s call after where
  returns := hwent.returns
  waits hterminal hwaiting := absurd (hfair hterminal).1 hwaiting
  ordered i step hexecuted := by
    obtain ⟨-, rfl, hstep⟩ := hwent.executed i step hexecuted
    rw [← h.same]
    exact ⟨hstep, fun j hj => (h.counts j).mpr hj⟩
  once i step hexecuted earlier hmem hsucceeded := by
    obtain ⟨-, rfl, -⟩ := hwent.executed i step hexecuted
    exact Nat.lt_irrefl _ ((h.counts _).mp ⟨earlier, hmem, hsucceeded⟩)
  terminal hterminal := by
    rw [Option.eq_none_iff_forall_not_mem]
    rintro ⟨i, step⟩ hexecuted
    rw [(hwent.executed i step hexecuted).1] at hterminal
    cases hterminal
  finishes := by
    rw [hwent.finishes, h.same]
    constructor
    · rintro ⟨hterminal, hle⟩
      cases moved with
      | true =>
        have hsucceeded := (hwent.succeeded _).mpr ⟨rfl, rfl⟩
        obtain ⟨step, -, hexecuted, -⟩ := hsucceeded
        obtain ⟨-, -, hstep⟩ := hwent.executed _ step hexecuted
        rw [h.same] at hstep
        have hlt := (List.getElem?_eq_some_iff.mp hstep).1
        exact .inl ⟨_, Nat.le_antisymm hlt hle, (hwent.succeeded _).mpr ⟨rfl, rfl⟩⟩
      | false =>
        rw [Bool.toNat_false] at hle
        rcases h.within hterminal with hnil | hlt
        · exact .inr ⟨hnil, hterminal, (hfair hterminal).1⟩
        · omega
    · rintro (⟨i, hi, hsucceeded⟩ | ⟨hnil, hterminal, -⟩)
      · obtain ⟨rfl, rfl⟩ := (hwent.succeeded i).mp hsucceeded
        obtain ⟨step, -, hexecuted, -⟩ := hsucceeded
        exact ⟨(hwent.executed _ step hexecuted).1, Nat.le_of_eq hi.symm⟩
      · rw [hnil]
        exact ⟨hterminal, Nat.zero_le _⟩

end Runs

theorem ticks_step (s : Scheduler) (call : Call) :
    (ticks buildFinalAnswer).step s call = runSimpleTaskTick buildFinalAnswer s call := rfl

/-- In a run of fair calls, with a replanner that accepts nothing, every call keeps the law. -/
theorem ticks_lawful (buildFinalAnswer : List Val → String) (s : Scheduler) (calls : List Call)
    (hstart : s.task.currentStepIndex = 0) (hrefused : ∀ call ∈ calls, call.refused)
    (hfair : (ticks buildFinalAnswer).Guarded Fair s calls) :
    ∀ before call, before ++ [call] <+: calls →
      Lawful s.task.steps ((ticks buildFinalAnswer).outputs s before)
        ((ticks buildFinalAnswer).run s before) call
        (runSimpleTaskTick buildFinalAnswer ((ticks buildFinalAnswer).run s before) call) := by
  have hguarded :
      (ticks buildFinalAnswer).Guarded (fun s call => call.refused ∧ Fair s call) s calls := by
    refine Machine.guarded_iff_prefix.mpr fun before call hpre => ⟨?_, ?_⟩
    · exact hrefused call (hpre.subset (List.mem_append_right _ List.mem_cons_self))
    · exact Machine.guarded_iff_prefix.mp hfair before call hpre
  have hopen : Progress s.task.steps [] s := by
    refine ⟨rfl, fun j => ?_, fun _ => ?_⟩
    · rw [hstart]
      exact ⟨fun ⟨_, h, _⟩ => (by cases h), fun h => absurd h (Nat.not_lt_zero j)⟩
    · rw [hstart]
      exact (List.eq_nil_or_concat s.task.steps).imp id fun ⟨_, _, h⟩ => (by rw [h]; simp)
  intro before call hpre
  obtain ⟨suffix, rfl⟩ := hpre
  obtain ⟨hbefore, hrefused, hfair⟩ := (Machine.guarded_append.mp hguarded).1.snoc
  have hprogress : Progress s.task.steps ((ticks buildFinalAnswer).outputs s before)
      ((ticks buildFinalAnswer).run s before) := by
    refine Machine.Guarded.invariant_outputs (fun history s' call h hok => ?_) hbefore hopen
    obtain ⟨moved, hwent⟩ := @went buildFinalAnswer s' call hok.1 hok.2
    rw [ticks_step]
    exact h.next hwent
  obtain ⟨moved, hwent⟩ := @went buildFinalAnswer _ call hrefused hfair
  exact hprogress.lawful hfair hwent

def oneStep : Scheduler where
  task := { taskId := "t", status := "queued", steps := [.dict [("type", .str "noop")]] }

def twoCalls : List Call := [{ outcome := .returned .none }, { outcome := .raised "boom" }]

theorem ticks_lawful_oneStep :
    Lawful oneStep.task.steps
      ((ticks fun _ => "done").outputs oneStep [{ outcome := .returned .none }])
      ((ticks fun _ => "done").run oneStep [{ outcome := .returned .none }])
      { outcome := .raised "boom" }
      (runSimpleTaskTick (fun _ => "done")
        ((ticks fun _ => "done").run oneStep [{ outcome := .returned .none }])
        { outcome := .raised "boom" }) := by
  refine ticks_lawful (fun _ => "done") oneStep twoCalls rfl ?_ ⟨?_, ?_, trivial⟩
    [{ outcome := .returned .none }] _ (List.prefix_refl _)
  · intro call hcall
    rcases List.mem_pair.mp hcall with rfl | rfl <;> rfl
  · refine fun _ => ⟨rfl, fun _ result _ _ h ⟨depth, hreports⟩ => ?_⟩
    cases h
    exact absurd hreports (not_reportsAt_nil depth rfl)
  · exact fun _ => ⟨rfl, fun _ _ _ _ h => (by cases h)⟩

def waitingCall : Call := { waiting := some "waiting dependency: d", outcome := .returned .none }

/-- The handler of a task that waits raises. -/
theorem waiting_raises :
    oneStep.task.currentStepIndex = 0 ∧ waitingCall.refused ∧
    ¬Lawful oneStep.task.steps [] oneStep waitingCall
      (runSimpleTaskTick (fun _ => "done") oneStep waitingCall) := by
  refine ⟨rfl, rfl, fun h => ?_⟩
  obtain ⟨payload, hpayload⟩ := h.returns
  cases hpayload

end SimpleRunner
end ZeroRuntime
