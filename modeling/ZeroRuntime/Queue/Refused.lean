import ZeroRuntime.Queue.Assign
import ZeroRuntime.Queue.Listing
import ZeroRuntime.Queue.NoLoss

/-!
# ZeroRuntime.Queue.Refused

What is left of a completion or a failure that the dispatcher refuses with an exception.

`complete_task` and `fail_task` release the worker first; what can raise is the queue, which they
call afterwards. The queue is as it was when it raises, and the pool never is: the worker had the
task and is idle now.

* `Accepted`: the task of a running id can be looked up, and the authority is good for it.
* `raisesClean_iff`: a call meets "what raises changes nothing" if and only if it is accepted.
* `refused_unchanged_iff`: the same of runs, in which queue and pool are also used directly.
-/

namespace ZeroRuntime
namespace Queue

open Lib TaskSchedulerQueue

namespace TaskDispatcher

/-- Calls to the dispatcher, and to its queue and its pool behind its back. -/
inductive SystemCall where
  | dispatcher (c : DispatchCall)
  | queue (o : QueueOperation)
  | pool (c : WorkerPool.PoolCall)

inductive SystemAnswer where
  | dispatcher (a : DispatchAnswer)
  | queue (a : OperationAnswer)
  | pool (a : WorkerPool.PoolAnswer)

def system (digest : Val → String) : Machine TaskDispatcher SystemCall SystemAnswer where
  step d
    | .dispatcher c => (call digest d c).map .dispatcher id
    | .queue o => (operate digest d.queue o).map .queue fun queue => { d with queue := queue }
    | .pool c => (WorkerPool.workerPool.step d.workerPool c).map .pool fun pool =>
        { d with workerPool := pool }

/-- If the call is to end a task and raises, queue and pool are as before. -/
def RaisesClean (d : TaskDispatcher) : SystemCall → Prop
  | .dispatcher (.completeTask taskId result authority now) =>
    ∀ e, (d.completeTask taskId result authority now).1 = .error e →
      (d.completeTask taskId result authority now).2 = d
  | .dispatcher (.failTask taskId error requeueOnRetry now) =>
    ∀ e, (d.failTask taskId error requeueOnRetry now).1 = .error e →
      (d.failTask taskId error requeueOnRetry now).2 = d
  | _ => True

/-- Some worker has the task. -/
def Runs (d : TaskDispatcher) (taskId : String) : Prop :=
  ∃ r, d.workerPool.runningByTask.get? taskId = some r ∧
    d.workerPool.runningByWorker.contains r.workerId = true

/-- The look-up of a running task id succeeds, and the authority is good for the task it finds. -/
def Accepted (d : TaskDispatcher) : SystemCall → Prop
  | .dispatcher (.completeTask taskId _ authority _) => d.Runs taskId →
    ∃ found, d.queue.resolved taskId {} = .ok found ∧
      ∀ f ∈ found, authorityAccepted authority taskId f.2 = true
  | .dispatcher (.failTask taskId _ _ _) => d.Runs taskId →
    ∃ found, d.queue.resolved taskId {} = .ok found
  | _ => True

section Calls

variable {d : TaskDispatcher}

theorem release_cases (d : TaskDispatcher) (taskId : String) :
    (¬d.Runs taskId ∧ (d.workerPool.releaseByTask taskId) = (none, d.workerPool)) ∨
    (d.Runs taskId ∧ ∃ r record pool, d.workerPool.getRunningTask taskId = some r ∧
      d.workerPool.releaseByTask taskId = (some record, pool) ∧ pool ≠ d.workerPool) := by
  unfold WorkerPool.releaseByTask WorkerPool.getRunningTask
  cases hr : d.workerPool.runningByTask.get? taskId with
  | none =>
    refine .inl ⟨?_, rfl⟩
    rintro ⟨r, hr', -⟩
    rw [hr] at hr'
    cases hr'
  | some r =>
    unfold WorkerPool.releaseByWorker
    simp only
    cases hw : d.workerPool.runningByWorker.get? r.workerId with
    | none =>
      refine .inl ⟨?_, rfl⟩
      rintro ⟨r', hr', hrun⟩
      obtain rfl : r = r' := Option.some.inj (hr.symm.trans hr')
      obtain ⟨record, hrecord⟩ := Dict.contains_iff.mp hrun
      rw [hw] at hrecord
      cases hrecord
    | some record =>
      refine .inr ⟨⟨r, hr, Dict.contains_iff.mpr ⟨record, hw⟩⟩, r, record, _, rfl, rfl, ?_⟩
      intro hsame
      have hgone : (d.workerPool.vacate r.workerId record.task.taskId).runningByWorker.get?
          r.workerId = none := by
        simp [WorkerPool.vacate]
      rw [hsame, hw] at hgone
      cases hgone

def ReleasesFirst {α : Type} (d : TaskDispatcher) (taskId : String)
    (call : Except Err α × TaskDispatcher) (queued : Except Err α × TaskSchedulerQueue) : Prop :=
  (¬d.Runs taskId ∧ ∃ a, call.1 = .ok a) ∨
  (d.Runs taskId ∧ ∃ pool, pool ≠ d.workerPool ∧ call = (queued.1, ⟨queued.2, pool⟩))

theorem completeTask_releases (d : TaskDispatcher) (taskId : String) (result : Val)
    (authority : Completion) (now : ℚ) :
    d.ReleasesFirst taskId (d.completeTask taskId result authority now)
      (d.queue.markFinished taskId result authority {} now) := by
  unfold completeTask
  rcases release_cases d taskId with ⟨hidle, hrelease⟩ | ⟨hruns, r, record, pool, hr, hrelease, hne⟩
  · refine .inl ⟨hidle, ?_⟩
    split
    · exact ⟨_, rfl⟩
    · rw [hrelease]
      exact ⟨_, rfl⟩
  · rw [hr, hrelease]
    exact .inr ⟨hruns, pool, hne, rfl⟩

theorem failTask_releases (d : TaskDispatcher) (taskId error : String) (requeueOnRetry : Bool)
    (now : ℚ) :
    d.ReleasesFirst taskId (d.failTask taskId error requeueOnRetry now)
      (failQueued d.queue taskId error requeueOnRetry now) := by
  unfold failTask
  rcases release_cases d taskId with ⟨hidle, hrelease⟩ | ⟨hruns, r, record, pool, hr, hrelease, hne⟩
  · refine .inl ⟨hidle, ?_⟩
    split
    · exact ⟨_, rfl⟩
    · rw [hrelease]
      exact ⟨_, rfl⟩
  · rw [hr, hrelease]
    exact .inr ⟨hruns, pool, hne, rfl⟩

variable {taskId : String}

/-- After a release, an exception leaves a changed pool behind. -/
theorem ReleasesFirst.clean_iff {α : Type} {call : Except Err α × TaskDispatcher}
    {queued : Except Err α × TaskSchedulerQueue} {ok : Prop}
    (h : d.ReleasesFirst taskId call queued) (hok : (∃ a, queued.1 = .ok a) ↔ ok) :
    (∀ e, call.1 = .error e → call.2 = d) ↔ (d.Runs taskId → ok) := by
  rw [← hok]
  rcases h with ⟨hidle, a, ha⟩ | ⟨hruns, pool, hne, rfl⟩
  · refine ⟨fun _ hruns => absurd hruns hidle, fun _ e he => ?_⟩
    rw [ha] at he
    cases he
  · constructor
    · intro hclean _
      cases hq : queued.1 with
      | ok a => exact ⟨a, rfl⟩
      | error e => exact absurd (congrArg TaskDispatcher.workerPool (hclean e hq)) hne
    · intro hanswers e he
      obtain ⟨a, ha⟩ := hanswers hruns
      cases he.symm.trans ha

variable {q : TaskSchedulerQueue}

/-- What `mark_finished` answers without raising, it answers for a task it may end or for none. -/
theorem markFinished_ok_iff {result : Val} {authority : Completion} {now : ℚ} :
    (∃ b, (q.markFinished taskId result authority {} now).1 = .ok b) ↔
      ∃ found, q.resolved taskId {} = .ok found ∧
        ∀ f ∈ found, authorityAccepted authority taskId f.2 = true := by
  unfold markFinished withTask authorityAccepted
  cases hres : q.resolved taskId {} with
  | error e => simp
  | ok found =>
    cases found with
    | none => simp
    | some f =>
      obtain ⟨key, t⟩ := f
      simp only [Except.ok.injEq, exists_eq_left', Option.mem_some_iff, forall_eq']
      cases hacc : acceptsAuthority authority taskId t with
      | error e => simp
      | ok accepted => cases accepted <;> simp

theorem retryOrFail_ok {task t : ScheduledTask} {error key : String} (requeueOnRetry : Bool)
    (now : ℚ) (hres : q.resolved taskId {} = .ok (some (key, t))) :
    ∃ r, (retryOrFail q task taskId error requeueOnRetry now).1 = .ok r := by
  unfold retryOrFail
  split
  · unfold requeue
    simp only [withTask_resolved hres]
    split <;> exact ⟨_, rfl⟩
  · unfold markFailed
    rw [withTask_resolved hres]
    exact ⟨_, rfl⟩

/-- Once the task is looked up, nothing raises any more. -/
theorem failQueued_ok_iff {error : String} {requeueOnRetry : Bool} {now : ℚ} :
    (∃ r, (failQueued q taskId error requeueOnRetry now).1 = .ok r) ↔
      ∃ found, q.resolved taskId {} = .ok found := by
  cases hres : q.resolved taskId {} with
  | error e =>
    have hget : q.getTask taskId {} = .error e := by
      unfold getTask; rw [hres]; rfl
    unfold failQueued
    simp [hget]
  | ok found =>
    cases found with
    | none =>
      have hget : q.getTask taskId {} = .ok none := by
        unfold getTask; rw [hres]; rfl
      unfold failQueued
      simp [hget]
    | some f =>
      obtain ⟨key, t⟩ := f
      obtain ⟨hres', heq⟩ := failQueued_eq now hres rfl
      rw [heq]
      exact ⟨fun _ => ⟨_, rfl⟩, fun _ => retryOrFail_ok requeueOnRetry now hres'⟩

/-- Whatever the state, a call that raises has changed nothing if and only if it is accepted, and
then it does not raise. -/
theorem raisesClean_iff (d : TaskDispatcher) (c : SystemCall) : RaisesClean d c ↔ Accepted d c := by
  cases c with
  | queue o => exact Iff.rfl
  | pool c => exact Iff.rfl
  | dispatcher c =>
    cases c with
    | enqueue task overwrite => exact Iff.rfl
    | dispatchOnce now => exact Iff.rfl
    | dispatchUntilFull now => exact Iff.rfl
    | completeTask taskId result authority now =>
      exact (completeTask_releases d taskId result authority now).clean_iff markFinished_ok_iff
    | failTask taskId error requeueOnRetry now =>
      exact (failTask_releases d taskId error requeueOnRetry now).clean_iff failQueued_ok_iff

end Calls

/-- In a run of any calls from any dispatcher, no completion or failure that raises leaves a trace,
if and only if each of them is accepted. -/
theorem refused_unchanged_iff (digest : Val → String) (d : TaskDispatcher)
    (calls : List SystemCall) :
    (∀ before c, before ++ [c] <+: calls → RaisesClean ((system digest).run d before) c) ↔
      (system digest).Guarded Accepted d calls := by
  rw [← Machine.guarded_iff_prefix]
  exact Machine.guarded_congr raisesClean_iff

/-- One worker, a task given to it, and a completion without an authority. -/
def refusedCalls : List SystemCall :=
  [.dispatcher (.enqueue { taskId := "a", createdAt := 1 } false),
   .dispatcher (.dispatchOnce 2)]

def oneWorker : TaskDispatcher := ⟨.init, WorkerPool.start 0⟩

theorem refused_completion_releases :
    ¬RaisesClean ((system fun _ => "0").run oneWorker refusedCalls)
      (.dispatcher (.completeTask "a" .none none 3)) := by
  intro h
  let d := (system fun _ => "0").run oneWorker refusedCalls
  have hfacts : (d.completeTask "a" .none none 3).1.isOk = false ∧
      d.workerPool.runningByWorker.contains "worker-1" = true ∧
      (d.completeTask "a" .none none 3).2.workerPool.runningByWorker.contains "worker-1" =
        false := by
    decide +kernel
  obtain ⟨hraises, hbefore, hafter⟩ := hfacts
  cases hr : (d.completeTask "a" .none none 3).1 with
  | ok b =>
    rw [hr] at hraises
    cases hraises
  | error e =>
    have hsame : (d.completeTask "a" .none none 3).2 = d := h e hr
    rw [hsame, hbefore] at hafter
    cases hafter

end TaskDispatcher
end Queue
end ZeroRuntime
