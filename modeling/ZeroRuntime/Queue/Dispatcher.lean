import ZeroRuntime.Lib.Machine
import ZeroRuntime.Queue.Pool

/-!
# ZeroRuntime.Queue.Dispatcher

The dispatcher (`core/tasks/scheduler_core/task_dispatcher.py`): it moves tasks from the queue to
the worker pool and back, by task id alone.

A call answers with its result or the exception that leaves it, and the dispatcher as it then is.
`dispatchUntilFull` is a loop with a bound; `dispatchLoop_bound` says that the number of free slots
is bound enough.
-/

namespace ZeroRuntime
namespace Queue

open Lib TaskSchedulerQueue

inductive DispatchResult where
  | dispatched (workerId : String) (task : ScheduledTask)
  | refused (reason : String)

inductive FailResult where
  | refused (reason : String)
  | ended (finalStatus : String) (retryCount maxRetries : ℤ) (requeued : Bool)

structure TaskDispatcher where
  queue : TaskSchedulerQueue
  workerPool : WorkerPool

namespace TaskDispatcher

abbrev Completion := Option (TaskCompletionAuthority × Bool)

def dispatchOnce (d : TaskDispatcher) (now : ℚ) : Except Err DispatchResult × TaskDispatcher :=
  if d.workerPool.hasFreeSlot = false then (.ok (.refused "no_free_worker_slot"), d)
  else match d.queue.popNext now with
    | (none, queue) => (.ok (.refused "no_queued_task"), { d with queue := queue })
    | (some task, queue) =>
      match d.workerPool.acquire task now with
      | (some workerId, pool) => (.ok (.dispatched workerId task), ⟨queue, pool⟩)
      | (none, pool) =>
        let r := queue.requeue task.taskId (some task.priority) none {}
        (r.1.map fun _ => .refused "worker_acquire_failed", ⟨r.2, pool⟩)

/-- At most `n` rounds of the loop of `dispatch_until_full`. -/
def dispatchLoop (now : ℚ) : ℕ → TaskDispatcher → List DispatchResult →
    Except Err (List DispatchResult) × TaskDispatcher
  | 0, d, results => (.ok results, d)
  | n + 1, d, results =>
    if d.workerPool.hasFreeSlot then
      match d.dispatchOnce now with
      | (.error e, d) => (.error e, d)
      | (.ok (.refused _), d) => (.ok results, d)
      | (.ok (.dispatched workerId task), d) =>
        dispatchLoop now n d (results ++ [.dispatched workerId task])
    else (.ok results, d)

def dispatchUntilFull (d : TaskDispatcher) (now : ℚ) :
    Except Err (List DispatchResult) × TaskDispatcher :=
  dispatchLoop now d.workerPool.freeCount.toNat d []

def completeTask (d : TaskDispatcher) (taskId : String) (result : Val) (authority : Completion)
    (now : ℚ) : Except Err Bool × TaskDispatcher :=
  match d.workerPool.getRunningTask taskId with
  | none => (.ok false, d)
  | some _ =>
    match d.workerPool.releaseByTask taskId with
    | (none, pool) => (.ok false, { d with workerPool := pool })
    | (some _, pool) =>
      let r := d.queue.markFinished taskId result authority {} now
      (r.1, ⟨r.2, pool⟩)

/-- `fail_task` once the retry is counted: the task is queued again or failed. -/
def retryOrFail (q : TaskSchedulerQueue) (task : ScheduledTask) (taskId error : String)
    (requeueOnRetry : Bool) (now : ℚ) : Except Err FailResult × TaskSchedulerQueue :=
  if requeueOnRetry ∧ task.retryCount ≤ task.maxRetries then
    let r := q.requeue taskId (some task.priority) (some error) {}
    (r.1.map fun _ => .ended statusQueued task.retryCount task.maxRetries true, r.2)
  else
    let r := q.markFailed taskId error {} now
    (r.1.map fun _ => .ended statusFailed task.retryCount task.maxRetries false, r.2)

/-- What `fail_task` does to the queue. -/
def failQueued (q : TaskSchedulerQueue) (taskId error : String) (requeueOnRetry : Bool) (now : ℚ) :
    Except Err FailResult × TaskSchedulerQueue :=
  match q.getTask taskId {} with
  | .error e => (.error e, q)
  | .ok none => (.ok (.refused "task_not_found_in_queue_storage"), q)
  | .ok (some _) =>
    match q.incrementRetry taskId {} with
    | (.error e, q) => (.error e, q)
    | (.ok _, q) =>
      match q.getTask taskId {} with
      | .error e => (.error e, q)
      | .ok none => (.ok (.refused "task_not_found_after_retry_increment"), q)
      | .ok (some task) => retryOrFail q task taskId error requeueOnRetry now

def failTask (d : TaskDispatcher) (taskId error : String) (requeueOnRetry : Bool) (now : ℚ) :
    Except Err FailResult × TaskDispatcher :=
  match d.workerPool.getRunningTask taskId with
  | none => (.ok (.refused "task_not_running"), d)
  | some _ =>
    match d.workerPool.releaseByTask taskId with
    | (none, pool) => (.ok (.refused "worker_release_failed"), { d with workerPool := pool })
    | (some _, pool) =>
      let r := failQueued d.queue taskId error requeueOnRetry now
      (r.1, ⟨r.2, pool⟩)

inductive DispatchCall where
  | enqueue (task : ScheduledTask) (overwrite : Bool)
  | dispatchOnce (now : ℚ)
  | dispatchUntilFull (now : ℚ)
  | completeTask (taskId : String) (result : Val) (authority : Completion) (now : ℚ)
  | failTask (taskId error : String) (requeueOnRetry : Bool) (now : ℚ)

inductive DispatchAnswer where
  | flag (r : Except Err Bool)
  | result (r : Except Err DispatchResult)
  | results (r : Except Err (List DispatchResult))
  | failure (r : Except Err FailResult)

def call (digest : Val → String) (d : TaskDispatcher) :
    DispatchCall → DispatchAnswer × TaskDispatcher
  | .enqueue task overwrite =>
    (d.queue.enqueue digest task overwrite).map .flag fun queue => { d with queue := queue }
  | .dispatchOnce now => (d.dispatchOnce now).map .result id
  | .dispatchUntilFull now => (d.dispatchUntilFull now).map .results id
  | .completeTask taskId result authority now =>
    (d.completeTask taskId result authority now).map .flag id
  | .failTask taskId error requeueOnRetry now =>
    (d.failTask taskId error requeueOnRetry now).map .failure id

def machine (digest : Val → String) : Machine TaskDispatcher DispatchCall DispatchAnswer :=
  ⟨call digest⟩

/-! ## One dispatch -/

section Once

variable {d : TaskDispatcher} {now : ℚ}

/-- The queue of a dispatch that took the task of `key` out. -/
def taken (d : TaskDispatcher) (now : ℚ) (key : String) (t : ScheduledTask) :
    TaskSchedulerQueue :=
  d.queue.afterPop.setTask key (started now t)

/-- Everything a dispatch can do. -/
theorem dispatchOnce_cases (h : d.workerPool.Consistent) (now : ℚ) :
    (d.workerPool.hasFreeSlot = false ∧
      d.dispatchOnce now = (.ok (.refused "no_free_worker_slot"), d)) ∨
    (d.queue.nextEntry = none ∧
      d.dispatchOnce now = (.ok (.refused "no_queued_task"), { d with queue := d.queue.afterPop })) ∨
    ∃ key t, d.workerPool.hasFreeSlot = true ∧ d.queue.nextEntry = some (key, t) ∧
      ((d.workerPool.runningByTask.contains t.taskId = true ∧
        d.dispatchOnce now =
          (((d.taken now key t).requeue t.taskId (some t.priority) none {}).1.map
              fun _ => .refused "worker_acquire_failed",
            ⟨((d.taken now key t).requeue t.taskId (some t.priority) none {}).2, d.workerPool⟩)) ∨
      (d.workerPool.runningByTask.contains t.taskId = false ∧
        ∃ w s, d.workerPool.freeSlot = some (w, s) ∧
          d.dispatchOnce now = (.ok (.dispatched w (started now t)),
            ⟨d.taken now key t, d.workerPool.occupy w s (started now t) now⟩))) := by
  unfold dispatchOnce
  cases hfree : d.workerPool.hasFreeSlot with
  | false => exact .inl ⟨rfl, rfl⟩
  | true =>
    refine .inr ?_
    unfold popNext popEntry
    cases hn : d.queue.nextEntry with
    | none => exact .inl ⟨rfl, rfl⟩
    | some f =>
      obtain ⟨key, t⟩ := f
      refine .inr ⟨key, t, rfl, rfl, ?_⟩
      rcases h.acquire_eq hfree (started now t) now with ⟨hc, ha⟩ | ⟨hnew, w, s, hs, ha⟩
      · simp only [Option.map_some, ha]
        exact .inl ⟨hc, rfl⟩
      · simp only [Option.map_some, ha]
        exact .inr ⟨hnew, w, s, hs, rfl⟩

theorem map_ne_dispatched {r : Except Err Bool} {reason w : String} {t : ScheduledTask} :
    (r.map fun _ => DispatchResult.refused reason) ≠ .ok (.dispatched w t) := by
  cases r <;> intro h <;> cases h

/-- A dispatch leaves the pool as it is, or gives one free slot to the task it answers with. -/
theorem dispatchOnce_pool (h : d.workerPool.Consistent) (now : ℚ) :
    ((d.dispatchOnce now).2.workerPool = d.workerPool ∧
      ∀ w t, (d.dispatchOnce now).1 ≠ .ok (.dispatched w t)) ∨
    ∃ w s t, d.workerPool.freeSlot = some (w, s) ∧
      d.workerPool.runningByTask.contains t.taskId = false ∧
      (d.dispatchOnce now).2.workerPool = d.workerPool.occupy w s t now ∧
      (d.dispatchOnce now).1 = .ok (.dispatched w t) := by
  rcases dispatchOnce_cases h now with ⟨-, he⟩ | ⟨-, he⟩ | ⟨key, t, -, -, hrun⟩
  · rw [he]
    exact .inl ⟨rfl, fun w t hd => by cases hd⟩
  · rw [he]
    exact .inl ⟨rfl, fun w t hd => by cases hd⟩
  · rcases hrun with ⟨-, he⟩ | ⟨hnew, w, s, hs, he⟩
    · rw [he]
      exact .inl ⟨rfl, fun w t => map_ne_dispatched⟩
    · rw [he]
      exact .inr ⟨w, s, started now t, hs, hnew, rfl, rfl⟩

theorem consistent_dispatchOnce (h : d.workerPool.Consistent) (now : ℚ) :
    (d.dispatchOnce now).2.workerPool.Consistent := by
  rcases dispatchOnce_pool h now with ⟨hp, -⟩ | ⟨w, s, t, hs, hnew, hp, -⟩
  · rw [hp]; exact h
  · rw [hp]; exact h.occupy hs hnew

theorem freeCount_dispatchOnce (h : d.workerPool.Consistent) {w : String} {t : ScheduledTask}
    (hr : (d.dispatchOnce now).1 = .ok (.dispatched w t)) :
    (d.dispatchOnce now).2.workerPool.freeCount = d.workerPool.freeCount - 1 := by
  rcases dispatchOnce_pool h now with ⟨-, hne⟩ | ⟨w, s, t, hs, -, hp, -⟩
  · exact absurd hr (hne w t)
  · rw [hp]; exact h.freeCount_occupy hs

/-- A loop that may run as often as there are free slots ends by itself: one more round changes
nothing. -/
theorem dispatchLoop_bound {n : ℕ} {results : List DispatchResult}
    (h : d.workerPool.Consistent) (hn : d.workerPool.freeCount ≤ n) :
    dispatchLoop now (n + 1) d results = dispatchLoop now n d results := by
  induction n generalizing d results with
  | zero =>
    have hfull : d.workerPool.hasFreeSlot = false := by
      simp only [WorkerPool.hasFreeSlot, decide_eq_false_iff_not]
      omega
    simp only [dispatchLoop, hfull, Bool.false_eq_true, if_false]
  | succ n ih =>
    rw [dispatchLoop, dispatchLoop]
    split
    · split
      · rfl
      · rfl
      · rename_i w t d' hd
        have hr : (d.dispatchOnce now).1 = .ok (.dispatched w t) := by rw [hd]
        have hfc := freeCount_dispatchOnce h hr
        have hc := consistent_dispatchOnce h now
        rw [hd] at hfc hc
        refine ih hc ?_
        simp only at hfc
        omega
    · rfl

/-- The loop of the source has no bound, and needs none: as many rounds as there are free slots are
as good as any number that is greater. -/
theorem dispatchUntilFull_eq {n : ℕ} (h : d.workerPool.Consistent)
    (hn : d.workerPool.freeCount ≤ n) :
    d.dispatchUntilFull now = dispatchLoop now n d [] := by
  obtain ⟨k, rfl⟩ := Nat.exists_eq_add_of_le (Int.toNat_le.mpr hn)
  unfold dispatchUntilFull
  clear hn
  induction k with
  | zero => rfl
  | succ k ih =>
    have hbound : dispatchLoop now (d.workerPool.freeCount.toNat + k + 1) d [] =
        dispatchLoop now (d.workerPool.freeCount.toNat + k) d [] :=
      dispatchLoop_bound h (by omega)
    exact ih.trans hbound.symm

theorem dispatchUntilFull_eq_idle : ∃ pool, WorkerPool.init 2 = .ok pool ∧
    dispatchUntilFull ⟨.init, pool⟩ 0 = dispatchLoop 0 9 ⟨.init, pool⟩ [] :=
  ⟨_, rfl, dispatchUntilFull_eq (@WorkerPool.consistent_init 2 _ rfl) (by decide)⟩

end Once

end TaskDispatcher
end Queue
end ZeroRuntime
