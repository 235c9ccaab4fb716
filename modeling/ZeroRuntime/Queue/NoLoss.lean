import ZeroRuntime.Queue.Dispatcher

/-!
# ZeroRuntime.Queue.NoLoss

Whether a dispatcher loses tasks: `NoTaskLost` says that every stored task is queued, held by a
busy slot, or ended.

The queue files tasks under session, lineage, branch and task id; the dispatcher requeues and ends
them by task id. So a task is kept as long as the id it is known by at the dispatcher finds it
again (`Safe`).

* `Kept`: what a queue operation may do to the tasks that are not queued.
* `noTaskLost_call`: a safe call loses no task.
* `guarded_noTaskLost`: nor does a run of safe calls, and a task whose dispatch is refused is queued
  again.
* `refused_completion_loses`: a completion without authority releases the slot first.
-/

namespace ZeroRuntime
namespace Queue

open Lib

def endedStatuses : List String := [statusFinished, statusFailed, statusCancelled]

theorem finished_ended : statusFinished ∈ endedStatuses := by decide

theorem failed_ended : statusFailed ∈ endedStatuses := by decide

namespace TaskSchedulerQueue

section Resolve

variable {q : TaskSchedulerQueue} {key : String} {t : ScheduledTask}

variable {scope : KeyScope}

theorem scanKeys_setEntries {t' : ScheduledTask} {clean : String}
    {es : List (String × ScheduledTask)} (h : Dict.find key es = some t)
    (hid : t'.taskId = t.taskId) (hp : t'.payload = t.payload) :
    scanKeys clean scope (Dict.setEntries key t' es) = scanKeys clean scope es := by
  induction es with
  | nil => cases h
  | cons e es ih =>
    obtain ⟨k, s⟩ := e
    by_cases hk : k = key
    · subst hk
      obtain rfl : s = t := by simpa [Dict.find] using h
      simp only [Dict.setEntries, if_true, scanKeys, scanMatches, hid, hp]
    · simp only [Dict.setEntries, hk, if_false, scanKeys]
      rw [ih (by simpa [Dict.find, Ne.symm hk] using h)]

/-- A task id resolves by the ids and payloads of the stored tasks, and nothing else. -/
theorem resolveKey_setTask (h : q.tasks.get? key = some t) (t' : ScheduledTask) (hid : t'.taskId = t.taskId)
    (hp : t'.payload = t.payload) (taskId : String) (scope : KeyScope) :
    (q.setTask key t').resolveKey taskId scope = q.resolveKey taskId scope := by
  have hc : ∀ k, (q.tasks.set key t').contains k = q.tasks.contains k := by
    intro k
    by_cases hk : k = key
    · simp [Dict.contains, hk, h]
    · simp [Dict.contains, hk]
  have hs : ∀ clean, scanKeys clean scope (q.tasks.set key t').entries =
      scanKeys clean scope q.tasks.entries := fun clean => scanKeys_setEntries h hid hp
  unfold resolveKey TaskSchedulerQueue.setTask
  simp only [hc, hs]

theorem resolved_of_key {taskId : String} (hr : q.resolveKey taskId scope = .ok (some key))
    (h : q.tasks.get? key = some t) : q.resolved taskId scope = .ok (some (key, t)) := by
  unfold resolved
  rw [hr]
  show Except.ok ((q.tasks.get? key).map fun task => (key, task)) = _
  rw [h]
  rfl

theorem withTask_resolved {taskId : String} {body : String → ScheduledTask → QueueM Bool}
    (h : q.resolved taskId scope = .ok (some (key, t))) :
    q.withTask taskId scope body = body key t := by
  unfold withTask
  rw [h]

end Resolve

/-- Each task stored in `q'` is queued, ended, or was stored in `q`, in the same status, without
being queued. -/
def Kept (q q' : TaskSchedulerQueue) : Prop :=
  ∀ k t', q'.tasks.get? k = some t' → k ∈ q'.queuedIds ∨ t'.status ∈ endedStatuses ∨
    ∃ t, q.tasks.get? k = some t ∧ k ∉ q.queuedIds ∧ SameTask t t' ∧ t.status = t'.status

section Kept

variable {q q' q'' : TaskSchedulerQueue}

theorem Kept.refl (q : TaskSchedulerQueue) : Kept q q := by
  intro k t ht
  by_cases hk : k ∈ q.queuedIds
  · exact .inl hk
  · exact .inr (.inr ⟨t, ht, hk, ⟨rfl, rfl⟩, rfl⟩)

theorem Kept.trans (h : Kept q q') (h' : Kept q' q'') : Kept q q'' := by
  intro k t'' ht''
  rcases h' k t'' ht'' with hk | he | ⟨t', ht', hk, hst, hs⟩
  · exact .inl hk
  · exact .inr (.inl he)
  · rcases h k t' ht' with hk' | he | ⟨t, ht, hk', hst', hs'⟩
    · exact absurd hk' hk
    · exact .inr (.inl (hs ▸ he))
    · exact .inr (.inr ⟨t, ht, hk', hst'.trans hst, hs'.trans hs⟩)

/-- Only the task of `key` changes. -/
theorem Kept.at_key (key : String) (hq : ∀ k ∈ q.queuedIds, k ≠ key → k ∈ q'.queuedIds)
    (ht : ∀ k ≠ key, q'.tasks.get? k = q.tasks.get? k)
    (hkey : ∀ t', q'.tasks.get? key = some t' → key ∈ q'.queuedIds ∨ t'.status ∈ endedStatuses) :
    Kept q q' := by
  intro k t' ht'
  by_cases hk : k = key
  · subst hk
    exact (hkey t' ht').imp_right .inl
  · rw [ht k hk] at ht'
    by_cases hkq : k ∈ q.queuedIds
    · exact .inl (hq k hkq hk)
    · exact .inr (.inr ⟨t', ht', hkq, ⟨rfl, rfl⟩, rfl⟩)

theorem Kept.store (q : TaskSchedulerQueue) (key : String) (t : ScheduledTask) (r : Rank) :
    Kept q ((q.setTask key t).pushEntry key r) := by
  refine Kept.at_key key (fun k hk _ => Finset.mem_insert_of_mem hk) (fun k hk => ?_) ?_
  · simp [pushEntry, TaskSchedulerQueue.setTask, hk]
  · exact fun t' _ => .inl (Finset.mem_insert_self key _)

theorem Kept.discard_store (q : TaskSchedulerQueue) (key : String) (t : ScheduledTask) (r : Rank) :
    Kept q (((q.discard key).setTask key t).pushEntry key r) := by
  refine Kept.at_key key (fun k hk hne => ?_) (fun k hk => ?_) ?_
  · exact Finset.mem_insert_of_mem (Finset.mem_erase.mpr ⟨hne, hk⟩)
  · simp [pushEntry, TaskSchedulerQueue.setTask, TaskSchedulerQueue.discard, hk]
  · exact fun t' _ => .inl (Finset.mem_insert_self key _)

theorem Kept.endTask (q : TaskSchedulerQueue) (key : String) {t : ScheduledTask}
    (he : t.status ∈ endedStatuses) : Kept q ((q.discard key).setTask key t) := by
  refine Kept.at_key key (fun k hk hne => Finset.mem_erase.mpr ⟨hne, hk⟩)
    (fun k hk => ?_) fun t' ht' => .inr ?_
  · simp [TaskSchedulerQueue.setTask, TaskSchedulerQueue.discard, hk]
  · obtain rfl : t = t' := by simpa [TaskSchedulerQueue.setTask] using ht'
    exact he

theorem Kept.withTask {taskId : String} {scope : KeyScope}
    {body : String → ScheduledTask → QueueM Bool}
    (hb : ∀ key t, q.tasks.get? key = some t → Kept q (body key t).2) :
    Kept q (q.withTask taskId scope body).2 := by
  unfold TaskSchedulerQueue.withTask
  split
  · exact .refl q
  · exact .refl q
  · rename_i hr
    exact hb _ _ (resolved_eq_some hr).2

theorem kept_storeTask_snd {key : String} {stored : ScheduledTask} {requeued : Bool}
    {conflicts : List LineageConflict}
    (h : Kept q' ((q.setTask key (cleared stored)).pushEntry key stored.rank)) :
    Kept q' (q.storeTask key stored requeued conflicts).2 := by
  unfold storeTask
  split
  · exact h
  · exact h

theorem storageKey_lineage {task : ScheduledTask} {key : String} (h : storageKey task = .ok key) :
    ∃ lineage, extractQueueLineage (.dict task.payload) = .ok lineage := by
  unfold storageKey at h
  cases hs : task.session with
  | error e => rw [hs] at h; cases h
  | ok s =>
    rw [hs] at h
    cases hl : extractQueueLineage (.dict task.payload) with
    | error e => rw [hl] at h; cases h
    | ok lineage => exact ⟨lineage, rfl⟩

theorem kept_enqueue (digest : Val → String) (task : ScheduledTask) (overwrite : Bool) :
    Kept q (q.enqueue digest task overwrite).2 := by
  unfold enqueue
  cases hkey : storageKey task with
  | error e => exact .refl q
  | ok key =>
    simp only
    cases hdup : duplicateIdentity digest (.dict task.payload) (q.otherPayloads key) with
    | error e => exact .refl q
    | ok found =>
      cases found with
      | some m => exact Kept.refl q
      | none =>
        simp only
        split
        · exact kept_storeTask_snd (.store q key _ _)
        · split
          · rename_i existing _ _
            obtain ⟨lineage, hl⟩ := storageKey_lineage hkey
            obtain ⟨r, hr⟩ := mergeQueueLineage_ok existing.payload hl
            unfold overwriteTask
            simp only [hr]
            exact kept_storeTask_snd (.discard_store q key _ _)
          · unfold answerDuplicate
            split
            · exact .refl q
            · exact Kept.refl q

theorem kept_requeue (taskId : String) (priority : Option ℤ) (error : Option String)
    (scope : KeyScope) : Kept q (q.requeue taskId priority error scope).2 := by
  unfold requeue
  refine .withTask fun key t _ => ?_
  split
  · exact .refl q
  · exact .store q key _ _

theorem kept_markFinished (taskId : String) (result : Val)
    (authority : Option (TaskCompletionAuthority × Bool)) (scope : KeyScope) (now : ℚ) :
    Kept q (q.markFinished taskId result authority scope now).2 := by
  unfold markFinished
  refine .withTask fun key t _ => ?_
  split
  · exact .refl q
  · exact .refl q
  · exact .endTask q key finished_ended

theorem kept_markFailed (taskId error : String) (scope : KeyScope) (now : ℚ) :
    Kept q (q.markFailed taskId error scope now).2 := by
  unfold markFailed
  refine .withTask fun key t _ => ?_
  exact .endTask q key failed_ended

theorem kept_incrementRetry (taskId : String) (scope : KeyScope) :
    Kept q (q.incrementRetry taskId scope).2 := by
  unfold incrementRetry
  refine .withTask fun key t ht k t' ht' => ?_
  by_cases hk : k ∈ q.queuedIds
  · exact .inl hk
  · refine .inr (.inr ?_)
    by_cases hkey : k = key
    · subst hkey
      obtain rfl : _ = t' := by simpa [TaskSchedulerQueue.setTask] using ht'
      exact ⟨t, ht, hk, ⟨rfl, rfl⟩, rfl⟩
    · exact ⟨t', by simpa [TaskSchedulerQueue.setTask, hkey] using ht', hk, ⟨rfl, rfl⟩, rfl⟩

end Kept

/-! ## Taking the next task -/

section Pop

variable {tasks : Dict String ScheduledTask}

variable {t : ScheduledTask}

variable {es : List (HeapEntry Rank String)} {queued : Finset String} {k : String}

/-- The loop of `pop_next` unqueues one stored task: the one it returns. -/
theorem popFrom_keeps (ht : tasks.get? k = some t) (hk : k ∈ queued) :
    k ∈ (popFrom tasks es queued).2.2 ∨ (popFrom tasks es queued).1 = some (k, t) := by
  induction es generalizing queued with
  | nil => exact .inl hk
  | cons e es ih =>
    simp only [popFrom]
    split
    · exact ih hk
    · split
      · rename_i hnone
        have hne : k ≠ e.key := by
          rintro rfl
          rw [ht] at hnone
          cases hnone
        exact ih (Finset.mem_erase.mpr ⟨hne, hk⟩)
      · rename_i s hs
        by_cases hne : k = e.key
        · subst hne
          rw [ht] at hs
          cases hs
          exact .inr rfl
        · exact .inl (Finset.mem_erase.mpr ⟨hne, hk⟩)

theorem popFrom_stored (h : (popFrom tasks es queued).1 = some (k, t)) : tasks.get? k = some t := by
  induction es generalizing queued with
  | nil => cases h
  | cons e es ih =>
    simp only [popFrom] at h
    split at h
    · exact ih h
    · split at h
      · exact ih h
      · rename_i s hs
        cases h
        exact hs

variable {q : TaskSchedulerQueue}

theorem afterPop_keeps (ht : q.tasks.get? k = some t) (hk : k ∈ q.queuedIds) :
    k ∈ q.afterPop.queuedIds ∨ q.nextEntry = some (k, t) := popFrom_keeps ht hk

theorem nextEntry_stored (h : q.nextEntry = some (k, t)) :
    q.tasks.get? k = some t := popFrom_stored h

end Pop

end TaskSchedulerQueue

namespace TaskDispatcher

open TaskSchedulerQueue

/-- Every stored task is queued, held by a busy slot, or ended. -/
def NoTaskLost (d : TaskDispatcher) : Prop :=
  ∀ k t, d.queue.tasks.get? k = some t →
    k ∈ d.queue.queuedIds ∨ d.workerPool.Holds t ∨ t.status ∈ endedStatuses

/-- A task that is taken out and refused by the pool is queued when the dispatch returns. -/
def RequeuesRefused (now : ℚ) (d : TaskDispatcher) : Prop :=
  ∀ f ∈ d.queue.nextEntry, d.workerPool.hasFreeSlot = true →
    (d.workerPool.acquire (started now f.2) now).1 = none →
    f.1 ∈ (d.dispatchOnce now).2.queue.queuedIds

/-! ## Safe calls -/

/-- If a task of the next task's id is running, that id finds the next task. -/
def NextResolves (d : TaskDispatcher) : Prop :=
  ∀ f ∈ d.queue.nextEntry, d.workerPool.hasFreeSlot = true →
    d.workerPool.runningByTask.contains f.2.taskId = true →
    d.queue.resolveKey f.2.taskId {} = .ok (some f.1)

instance (d : TaskDispatcher) : Decidable (NextResolves d) :=
  inferInstanceAs (Decidable (∀ f ∈ d.queue.nextEntry, _ → _ → _))

def granted : Except Err DispatchResult → Bool
  | .ok (.dispatched _ _) => true
  | _ => false

/-- `P` in every state in which the loop of `dispatch_until_full` calls `dispatch_once`. -/
def EachRound (P : TaskDispatcher → Prop) (now : ℚ) : ℕ → TaskDispatcher → Prop
  | 0, _ => True
  | n + 1, d => d.workerPool.hasFreeSlot = true →
      P d ∧ (granted (d.dispatchOnce now).1 = true → EachRound P now n (d.dispatchOnce now).2)

instance decidableEachRound (P : TaskDispatcher → Prop) [DecidablePred P] (now : ℚ) :
    (n : ℕ) → (d : TaskDispatcher) → Decidable (EachRound P now n d)
  | 0, _ => .isTrue trivial
  | n + 1, d =>
    haveI := decidableEachRound P now n (d.dispatchOnce now).2
    inferInstanceAs (Decidable (d.workerPool.hasFreeSlot = true → P d ∧
      (granted (d.dispatchOnce now).1 = true → EachRound P now n (d.dispatchOnce now).2)))

/-- `P` in every state in which a call runs `dispatch_once`. -/
def EachDispatch (P : ℚ → TaskDispatcher → Prop) (d : TaskDispatcher) : DispatchCall → Prop
  | .dispatchOnce now => P now d
  | .dispatchUntilFull now => EachRound (P now) now d.workerPool.freeCount.toNat d
  | _ => True

/-- The tasks that are held only by the slot of `taskId` and have not ended are found under
`taskId`, and `ends` them. -/
def ReleaseResolves (d : TaskDispatcher) (taskId : String) (ends : ScheduledTask → Bool) : Prop :=
  ∀ r ∈ d.workerPool.runningByTask.get? taskId, ∀ e ∈ d.queue.tasks.entries,
    SameTask r.task e.2 → e.1 ∉ d.queue.queuedIds → e.2.status ∉ endedStatuses →
    d.queue.resolveKey taskId {} = .ok (some e.1) ∧ ends e.2 = true

instance (d : TaskDispatcher) (taskId : String) (ends : ScheduledTask → Bool) :
    Decidable (ReleaseResolves d taskId ends) :=
  inferInstanceAs (Decidable (∀ r ∈ d.workerPool.runningByTask.get? taskId, ∀ e ∈ _, _ → _))

def authorityAccepted (authority : Completion) (taskId : String) (t : ScheduledTask) : Bool :=
  acceptsAuthority authority taskId t = .ok true

/-- The task ids the call passes to the queue name the tasks they are meant for. -/
def Safe (d : TaskDispatcher) : DispatchCall → Prop
  | .enqueue _ _ => True
  | .dispatchOnce _ => NextResolves d
  | .dispatchUntilFull now => EachRound NextResolves now d.workerPool.freeCount.toNat d
  | .completeTask taskId _ authority _ =>
    ReleaseResolves d taskId (authorityAccepted authority taskId)
  | .failTask taskId _ _ _ => ReleaseResolves d taskId fun _ => true

instance (d : TaskDispatcher) : (c : DispatchCall) → Decidable (Safe d c)
  | .enqueue _ _ => .isTrue trivial
  | .dispatchOnce _ => inferInstanceAs (Decidable (NextResolves d))
  | .dispatchUntilFull now => decidableEachRound NextResolves now _ d
  | .completeTask taskId _ authority _ =>
    inferInstanceAs (Decidable (ReleaseResolves d taskId (authorityAccepted authority taskId)))
  | .failTask taskId _ _ _ => inferInstanceAs (Decidable (ReleaseResolves d taskId fun _ => true))

/-! ## One call -/

section Step

variable {d : TaskDispatcher} {now : ℚ}

variable {key : String} {t : ScheduledTask}

/-- A task taken out and queued again by its id, when the id finds it. -/
theorem requeue_taken (now : ℚ) (hn : d.queue.nextEntry = some (key, t))
    (hr : d.queue.resolveKey t.taskId {} = .ok (some key)) (priority : Option ℤ) :
    key ∈ ((d.taken now key t).requeue t.taskId priority none {}).2.queuedIds := by
  have hkey : (d.taken now key t).resolveKey t.taskId {} = .ok (some key) := by
    have ht : d.queue.tasks.get? key = some t := nextEntry_stored hn
    exact (resolveKey_setTask (q := d.queue.afterPop) ht (started now t) rfl rfl t.taskId {}).trans hr
  have hget : (d.taken now key t).tasks.get? key = some (started now t) := by
    simp [taken, TaskSchedulerQueue.setTask]
  unfold requeue
  rw [withTask_resolved (resolved_of_key hkey hget)]
  split
  · assumption
  · exact Finset.mem_insert_self key _

theorem requeuesRefused (h : d.workerPool.Consistent) (hs : NextResolves d) (now : ℚ) :
    RequeuesRefused now d := by
  intro f hf hfree hnone
  rcases dispatchOnce_cases h now with ⟨hfull, -⟩ | ⟨hn, -⟩ | ⟨key, t, -, hn, hrun⟩
  · rw [hfree] at hfull; cases hfull
  · rw [hn] at hf; cases hf
  · obtain rfl : (key, t) = f := Option.some.inj (hn.symm.trans hf)
    rcases hrun with ⟨hc, he⟩ | ⟨hnew, w, s, hw, -⟩
    · rw [he]
      exact requeue_taken now hn (hs (key, t) hn hfree hc) (some t.priority)
    · have hnew' : d.workerPool.runningByTask.contains (started now t).taskId = false := hnew
      simp only [WorkerPool.acquire, hnew', hw, Bool.false_eq_true, if_false] at hnone
      cases hnone

/-- Taking a task out leaves it to the caller and keeps every other. -/
theorem noTaskLost_taken (h : NoTaskLost d) (now : ℚ) (hn : d.queue.nextEntry = some (key, t))
    {k : String} {s : ScheduledTask} (hs : (d.taken now key t).tasks.get? k = some s) :
    k ∈ (d.taken now key t).queuedIds ∨ d.workerPool.Holds s ∨ s.status ∈ endedStatuses ∨
      (k = key ∧ s = started now t) := by
  by_cases hk : k = key
  · subst hk
    obtain rfl : started now t = s := by simpa [taken, TaskSchedulerQueue.setTask] using hs
    exact .inr (.inr (.inr ⟨rfl, rfl⟩))
  · have hs' : d.queue.tasks.get? k = some s := by
      simpa [taken, TaskSchedulerQueue.setTask, afterPop, hk] using hs
    rcases h k s hs' with hq | hh | he
    · rcases afterPop_keeps hs' hq with hq' | hsome
      · exact .inl hq'
      · rw [hn] at hsome
        cases hsome
        exact absurd rfl hk
    · exact .inr (.inl hh)
    · exact .inr (.inr (.inl he))

/-- What one slot holds is the same task after its queue record changed. -/
theorem holds_of_same {p : WorkerPool} {s : ScheduledTask} (h : p.Holds s) (hst : SameTask s t) :
    p.Holds t := by
  obtain ⟨w, slot, r, hw, hb, hr, hsame⟩ := h
  exact ⟨w, slot, r, hw, hb, hr, hsame.trans hst⟩

theorem noTaskLost_refused (h : NoTaskLost d) (now : ℚ) (hn : d.queue.nextEntry = some (key, t))
    (hr : d.queue.resolveKey t.taskId {} = .ok (some key)) :
    NoTaskLost
      ⟨((d.taken now key t).requeue t.taskId (some t.priority) none {}).2, d.workerPool⟩ := by
  intro k s hks
  rcases kept_requeue t.taskId (some t.priority) none {} k s hks with hq | hend | hold
  · exact .inl hq
  · exact .inr (.inr hend)
  · obtain ⟨s', hs', hnq, hst, hstat⟩ := hold
    rcases noTaskLost_taken h now hn hs' with hq | hh | hend | ⟨rfl, rfl⟩
    · exact absurd hq hnq
    · exact .inr (.inl (holds_of_same hh hst))
    · exact .inr (.inr (hstat ▸ hend))
    · exact .inl (requeue_taken now hn hr (some t.priority))

theorem noTaskLost_granted (hc : d.workerPool.Consistent) (h : NoTaskLost d) (now : ℚ) {w : String}
    {slot : WorkerSlot} (hn : d.queue.nextEntry = some (key, t))
    (hw : d.workerPool.freeSlot = some (w, slot))
    (hnew : d.workerPool.runningByTask.contains (started now t).taskId = false) :
    NoTaskLost ⟨d.taken now key t, d.workerPool.occupy w slot (started now t) now⟩ := by
  intro k s hks
  rcases noTaskLost_taken h now hn hks with hq | hh | hend | ⟨rfl, rfl⟩
  · exact .inl hq
  · exact .inr (.inl (hc.holds_occupy hw hnew (.inl hh)))
  · exact .inr (.inr hend)
  · exact .inr (.inl (hc.holds_occupy hw hnew (.inr ⟨rfl, rfl⟩)))

theorem noTaskLost_dispatchOnce (hc : d.workerPool.Consistent) (h : NoTaskLost d)
    (hs : NextResolves d) (now : ℚ) : NoTaskLost (d.dispatchOnce now).2 := by
  rcases dispatchOnce_cases hc now with ⟨-, he⟩ | ⟨hn, he⟩ | ⟨key, t, hfree, hn, hrun⟩
  · rw [he]; exact h
  · rw [he]
    intro k s hks
    have hks' : d.queue.tasks.get? k = some s := hks
    rcases h k s hks' with hq | hrest
    · rcases afterPop_keeps hks' hq with hq' | hsome
      · exact .inl hq'
      · rw [hn] at hsome; cases hsome
    · exact .inr hrest
  · rcases hrun with ⟨hrunning, he⟩ | ⟨hnew, w, slot, hw, he⟩
    · rw [he]
      exact noTaskLost_refused h now hn (hs (key, t) hn hfree hrunning)
    · rw [he]
      exact noTaskLost_granted hc h now hn hw hnew

variable {taskId : String} {q : TaskSchedulerQueue}

variable {r : RunningTaskRecord}

/-- A release followed by a change of the queue that ends or queues what the slot alone held. -/
theorem noTaskLost_release (hc : d.workerPool.Consistent) (h : NoTaskLost d)
    (hr : d.workerPool.runningByTask.get? taskId = some r) (hk : Kept d.queue q)
    (hend : ∀ k t, d.queue.tasks.get? k = some t → SameTask r.task t → k ∉ d.queue.queuedIds →
      t.status ∉ endedStatuses → ∀ t', q.tasks.get? k = some t' →
      k ∈ q.queuedIds ∨ t'.status ∈ endedStatuses) :
    NoTaskLost ⟨q, d.workerPool.vacate r.workerId r.task.taskId⟩ := by
  intro k t' ht'
  rcases hk k t' ht' with hq | he | ⟨t, ht, hnq, hst, hstat⟩
  · exact .inl hq
  · exact .inr (.inr he)
  · by_cases he : t.status ∈ endedStatuses
    · exact .inr (.inr (hstat ▸ he))
    · rcases h k t ht with hq | hh | he'
      · exact absurd hq hnq
      · rcases WorkerPool.Holds.of_release hc hr hh with hsame | hh'
        · exact (hend k t ht hsame hnq he t' ht').imp_right .inr
        · exact .inr (.inl (holds_of_same hh' hst))
      · exact absurd he' he

variable {t' : ScheduledTask}

theorem markFinished_ends {result : Val} {authority : Completion} (now : ℚ)
    (hr : q.resolveKey taskId {} = .ok (some key)) (ht : q.tasks.get? key = some t)
    (ha : authorityAccepted authority taskId t = true)
    (ht' : (q.markFinished taskId result authority {} now).2.tasks.get? key = some t') :
    t'.status ∈ endedStatuses := by
  have ha' : acceptsAuthority authority taskId t = .ok true := of_decide_eq_true ha
  unfold markFinished at ht'
  rw [withTask_resolved (resolved_of_key hr ht)] at ht'
  simp only [ha', TaskSchedulerQueue.setTask, Dict.get?_set, if_true] at ht'
  cases ht'
  exact finished_ended

theorem noTaskLost_completeTask (hc : d.workerPool.Consistent) (h : NoTaskLost d)
    (taskId : String) (result : Val) (authority : Completion) (now : ℚ)
    (hs : ReleaseResolves d taskId (authorityAccepted authority taskId)) :
    NoTaskLost (d.completeTask taskId result authority now).2 := by
  unfold completeTask WorkerPool.getRunningTask
  cases hr : d.workerPool.runningByTask.get? taskId with
  | none => exact h
  | some r =>
    simp only [hc.releaseByTask_eq hr]
    refine noTaskLost_release hc h hr (kept_markFinished taskId result authority {} now) ?_
    intro k t ht hsame hnq he t' ht'
    obtain ⟨hkey, ha⟩ := hs r hr (k, t) (Dict.mem_entries.mpr ht) hsame hnq he
    exact .inr (markFinished_ends now hkey ht ha ht')

theorem kept_retryOrFail (q : TaskSchedulerQueue) (task : ScheduledTask) (taskId error : String)
    (requeueOnRetry : Bool) (now : ℚ) :
    Kept q (retryOrFail q task taskId error requeueOnRetry now).2 := by
  unfold retryOrFail
  split
  · exact kept_requeue taskId _ _ {}
  · exact kept_markFailed taskId error {} now

theorem kept_failQueued (q : TaskSchedulerQueue) (taskId error : String) (requeueOnRetry : Bool)
    (now : ℚ) : Kept q (failQueued q taskId error requeueOnRetry now).2 := by
  unfold failQueued
  have hinc : Kept q (q.incrementRetry taskId {}).2 := kept_incrementRetry taskId {}
  split
  · exact .refl q
  · exact .refl q
  · split
    · rename_i hi; rw [hi] at hinc; exact hinc
    · rename_i hi
      rw [hi] at hinc
      split
      · exact hinc
      · exact hinc
      · exact hinc.trans (kept_retryOrFail _ _ taskId error requeueOnRetry now)

variable {requeueOnRetry : Bool}

variable {error : String}

theorem retryOrFail_ends {task : ScheduledTask} (now : ℚ)
    (hr : q.resolveKey taskId {} = .ok (some key)) (ht : q.tasks.get? key = some t)
    (ht' : (retryOrFail q task taskId error requeueOnRetry now).2.tasks.get? key = some t') :
    key ∈ (retryOrFail q task taskId error requeueOnRetry now).2.queuedIds ∨
      t'.status ∈ endedStatuses := by
  have hres := resolved_of_key hr ht
  unfold retryOrFail at ht' ⊢
  split
  · refine .inl ?_
    unfold requeue
    simp only [withTask_resolved hres]
    split
    · assumption
    · exact Finset.mem_insert_self key _
  · rename_i hno
    rw [if_neg hno] at ht'
    unfold markFailed at ht'
    simp only [withTask_resolved hres, TaskSchedulerQueue.setTask, Dict.get?_set, if_true] at ht'
    cases ht'
    exact .inr failed_ended

theorem failQueued_eq {counted : ScheduledTask} (now : ℚ)
    (hres : q.resolved taskId {} = .ok (some (key, t)))
    (hcounted : counted = { t with retryCount := t.retryCount + 1 }) :
    (q.setTask key counted).resolved taskId {} = .ok (some (key, counted)) ∧
      failQueued q taskId error requeueOnRetry now =
        retryOrFail (q.setTask key counted) counted taskId error requeueOnRetry now := by
  obtain ⟨hr, ht⟩ := resolved_eq_some hres
  have hid : counted.taskId = t.taskId := by rw [hcounted]
  have hp : counted.payload = t.payload := by rw [hcounted]
  have hr' := (resolveKey_setTask ht counted hid hp taskId {}).trans hr
  have ht' : (q.setTask key counted).tasks.get? key = some counted := by
    simp [TaskSchedulerQueue.setTask]
  have hres' := resolved_of_key hr' ht'
  have hget : q.getTask taskId {} = .ok (some t) := by
    unfold getTask; rw [hres]; rfl
  have hget' : (q.setTask key counted).getTask taskId {} = .ok (some counted) := by
    unfold getTask; rw [hres']; rfl
  have hinc : q.incrementRetry taskId {} = (.ok true, q.setTask key counted) := by
    unfold incrementRetry; rw [withTask_resolved hres, hcounted]
  refine ⟨hres', ?_⟩
  unfold failQueued
  simp only [hget, hinc, hget']

theorem failQueued_ends (now : ℚ) (hr : q.resolveKey taskId {} = .ok (some key))
    (ht : q.tasks.get? key = some t)
    (ht' : (failQueued q taskId error requeueOnRetry now).2.tasks.get? key = some t') :
    key ∈ (failQueued q taskId error requeueOnRetry now).2.queuedIds ∨
      t'.status ∈ endedStatuses := by
  obtain ⟨hres, heq⟩ := failQueued_eq now (resolved_of_key hr ht) rfl
  obtain ⟨hr', hget⟩ := resolved_eq_some hres
  rw [heq] at ht' ⊢
  exact retryOrFail_ends now hr' hget ht'

theorem noTaskLost_failTask (hc : d.workerPool.Consistent) (h : NoTaskLost d)
    (taskId error : String) (requeueOnRetry : Bool) (now : ℚ)
    (hs : ReleaseResolves d taskId fun _ => true) :
    NoTaskLost (d.failTask taskId error requeueOnRetry now).2 := by
  unfold failTask WorkerPool.getRunningTask
  cases hr : d.workerPool.runningByTask.get? taskId with
  | none => exact h
  | some r =>
    simp only [hc.releaseByTask_eq hr]
    refine noTaskLost_release hc h hr (kept_failQueued _ taskId error requeueOnRetry now) ?_
    intro k t ht hsame hnq he t' ht'
    obtain ⟨hkey, -⟩ := hs r hr (k, t) (Dict.mem_entries.mpr ht) hsame hnq he
    exact failQueued_ends now hkey ht ht'

theorem consistent_releaseByTask {p : WorkerPool} (hc : p.Consistent)
    (hr : p.runningByTask.get? taskId = some r) :
    (p.vacate r.workerId r.task.taskId).Consistent := hc.vacate (hc.byTask taskId r hr).2

theorem consistent_completeTask (hc : d.workerPool.Consistent) (taskId : String) (result : Val)
    (authority : Completion) (now : ℚ) :
    (d.completeTask taskId result authority now).2.workerPool.Consistent := by
  unfold completeTask WorkerPool.getRunningTask
  cases hr : d.workerPool.runningByTask.get? taskId with
  | none => exact hc
  | some r =>
    simp only [hc.releaseByTask_eq hr]
    exact consistent_releaseByTask hc hr

theorem consistent_failTask (hc : d.workerPool.Consistent) (taskId error : String)
    (requeueOnRetry : Bool) (now : ℚ) :
    (d.failTask taskId error requeueOnRetry now).2.workerPool.Consistent := by
  unfold failTask WorkerPool.getRunningTask
  cases hr : d.workerPool.runningByTask.get? taskId with
  | none => exact hc
  | some r =>
    simp only [hc.releaseByTask_eq hr]
    exact consistent_releaseByTask hc hr

theorem dispatchLoop_kept (hc : d.workerPool.Consistent) (h : NoTaskLost d) (now : ℚ) {n : ℕ}
    (results : List DispatchResult) (hs : EachRound NextResolves now n d) :
    (dispatchLoop now n d results).2.workerPool.Consistent ∧
      NoTaskLost (dispatchLoop now n d results).2 := by
  induction n generalizing d results with
  | zero => exact ⟨hc, h⟩
  | succ n ih =>
    rw [dispatchLoop]
    split
    · rename_i hfree
      obtain ⟨hnext, hmore⟩ := hs hfree
      have hc' := consistent_dispatchOnce hc now
      have h' := noTaskLost_dispatchOnce hc h hnext now
      split
      · rename_i hd; rw [hd] at hc' h'; exact ⟨hc', h'⟩
      · rename_i hd; rw [hd] at hc' h'; exact ⟨hc', h'⟩
      · rename_i hd
        rw [hd] at hc' h' hmore
        exact ih hc' h' _ (hmore rfl)
    · exact ⟨hc, h⟩

theorem eachRound_requeues (hc : d.workerPool.Consistent) (now : ℚ) {n : ℕ}
    (hs : EachRound NextResolves now n d) : EachRound (RequeuesRefused now) now n d := by
  induction n generalizing d with
  | zero => trivial
  | succ n ih =>
    intro hfree
    obtain ⟨hnext, hmore⟩ := hs hfree
    exact ⟨requeuesRefused hc hnext now, fun hg => ih (consistent_dispatchOnce hc now) (hmore hg)⟩

theorem eachDispatch_requeues (hc : d.workerPool.Consistent) {c : DispatchCall} (hs : Safe d c) :
    EachDispatch RequeuesRefused d c := by
  cases c with
  | dispatchOnce now => exact requeuesRefused hc hs now
  | dispatchUntilFull now => exact eachRound_requeues hc now hs
  | enqueue task overwrite => trivial
  | completeTask taskId result authority now => trivial
  | failTask taskId error requeueOnRetry now => trivial

/-- The pool's tables agree and no task is lost. -/
structure Sound (d : TaskDispatcher) : Prop where
  pool : d.workerPool.Consistent
  tasks : NoTaskLost d

theorem noTaskLost_enqueue (digest : Val → String) (h : NoTaskLost d) (task : ScheduledTask)
    (overwrite : Bool) :
    NoTaskLost { d with queue := (d.queue.enqueue digest task overwrite).2 } := by
  intro k t' ht'
  rcases kept_enqueue digest task overwrite k t' ht' with hq | he | ⟨t, ht, hnq, hst, hstat⟩
  · exact .inl hq
  · exact .inr (.inr he)
  · rcases h k t ht with hq | hh | he
    · exact absurd hq hnq
    · exact .inr (.inl (holds_of_same hh hst))
    · exact .inr (.inr (hstat ▸ he))

theorem sound_call (digest : Val → String) (h : Sound d) {c : DispatchCall} (hs : Safe d c) :
    Sound (call digest d c).2 := by
  cases c with
  | enqueue task overwrite => exact ⟨h.pool, noTaskLost_enqueue digest h.tasks task overwrite⟩
  | dispatchOnce now =>
    exact ⟨consistent_dispatchOnce h.pool now, noTaskLost_dispatchOnce h.pool h.tasks hs now⟩
  | dispatchUntilFull now =>
    obtain ⟨hc, ht⟩ := dispatchLoop_kept h.pool h.tasks now [] hs
    exact ⟨hc, ht⟩
  | completeTask taskId result authority now =>
    exact ⟨consistent_completeTask h.pool taskId result authority now,
      noTaskLost_completeTask h.pool h.tasks taskId result authority now hs⟩
  | failTask taskId error requeueOnRetry now =>
    exact ⟨consistent_failTask h.pool taskId error requeueOnRetry now,
      noTaskLost_failTask h.pool h.tasks taskId error requeueOnRetry now hs⟩

end Step

/-! ## Whole runs -/

theorem sound_start {maxWorkers : ℤ} {pool : WorkerPool}
    (hp : WorkerPool.init maxWorkers = .ok pool) : Sound ⟨.init, pool⟩ :=
  ⟨WorkerPool.consistent_init hp, fun k t ht => by cases ht⟩

/-- In every run of safe calls from an empty queue and an idle pool no task is lost, and every task
whose dispatch is refused is queued again. -/
theorem guarded_noTaskLost (digest : Val → String) (maxWorkers : ℤ) {pool : WorkerPool}
    (hp : WorkerPool.init maxWorkers = .ok pool) (calls : List DispatchCall)
    (hg : (machine digest).Guarded Safe ⟨.init, pool⟩ calls) :
    NoTaskLost ((machine digest).run ⟨.init, pool⟩ calls) ∧
    ∀ before c after, calls = before ++ c :: after →
      EachDispatch RequeuesRefused ((machine digest).run ⟨.init, pool⟩ before) c := by
  have sound {cs : List DispatchCall} (hcs : (machine digest).Guarded Safe ⟨.init, pool⟩ cs) :
      Sound ((machine digest).run ⟨.init, pool⟩ cs) :=
    hcs.invariant (fun _ _ hs hk => sound_call digest hs hk) (sound_start hp)
  refine ⟨(sound hg).tasks, ?_⟩
  rintro before c after rfl
  obtain ⟨hbefore, hc, -⟩ := Machine.guarded_append.mp hg
  exact eachDispatch_requeues (sound hbefore).pool hc

/-- Two workers; a task of session `s` is completed, another fails once and is taken again. -/
def sampleCalls : List DispatchCall :=
  [.enqueue { taskId := "a", createdAt := 1, payload := [("session_id", .str "s")] } false,
   .enqueue { taskId := "b", createdAt := 2, maxRetries := 1 } false, .dispatchUntilFull 3,
   .completeTask "a" .none (some (⟨"a", "p", "s"⟩, true)) 4, .failTask "b" "timeout" true 5,
   .dispatchOnce 6]

theorem guarded_noTaskLost_sample :
    NoTaskLost ((machine fun _ => "0").run ⟨.init, ⟨WorkerPool.idleSlots 2, .empty, .empty⟩⟩
      sampleCalls) :=
  (guarded_noTaskLost (fun _ => "0") 2 rfl sampleCalls (by decide)).1

/-- `complete_task` without an authority: the slot is released, `mark_finished` raises, and the
task is neither queued nor held nor ended. -/
theorem refused_completion_loses :
    ¬ NoTaskLost ((machine fun _ => "0").run ⟨.init, ⟨WorkerPool.idleSlots 1, .empty, .empty⟩⟩
      [.enqueue { taskId := "a", createdAt := 1 } false, .dispatchOnce 2,
       .completeTask "a" .none none 3]) := by
  intro h
  let d := (machine fun _ => "0").run ⟨.init, ⟨WorkerPool.idleSlots 1, .empty, .empty⟩⟩
    [.enqueue { taskId := "a", createdAt := 1 } false, .dispatchOnce 2,
     .completeTask "a" .none none 3]
  have hs : (d.queue.tasks.get? "a").map (fun t => t.status) = some statusRunning := by decide
  have hidle : d.workerPool.runningByWorker.entries.length = 0 := by decide
  obtain ⟨t, ht, hrun⟩ := Option.map_eq_some_iff.mp hs
  rcases h "a" t ht with hq | ⟨w, s, r, -, -, hr, -⟩ | he
  · exact absurd hq (by decide)
  · have hmem := Dict.mem_entries.mpr hr
    rw [List.length_eq_zero_iff.mp hidle] at hmem
    cases hmem
  · rw [hrun] at he
    exact absurd he (by decide)

end TaskDispatcher
end Queue
end ZeroRuntime
