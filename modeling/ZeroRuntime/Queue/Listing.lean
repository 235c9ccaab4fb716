import ZeroRuntime.Queue.Order

/-!
# ZeroRuntime.Queue.Listing

Reading the task queue without taking from it (`list_queued`, `peek_next`) against taking from it
(`pop_next`).

* `Backed`: every queued key is stored and has an entry in the heap. No operation breaks it.
* `listFrom_eq`: the list is what `pop_next` takes, one by one.
* `Served`: the list has every queued key once, the task that is peeked at is the next one taken,
  and the queue is emptied in the order of the list.
* `coincide_iff`: that peeking changes no later answer either is true of the queues whose first
  entry is of a queued key, and of no others: an entry that `peek_next` drops would be live again
  once its key is.
-/

namespace ZeroRuntime
namespace Queue

open Lib

namespace TaskSchedulerQueue

def upsertTask (q : TaskSchedulerQueue) (task : ScheduledTask) :
    Except Err ScheduledTask × TaskSchedulerQueue :=
  match storageKey task with
  | .error e => (.error e, q)
  | .ok key =>
    let stored := match q.tasks.get? key with
      | none => task
      | some existing => { task with taskId := existing.taskId, createdAt := existing.createdAt }
    (.ok stored, q.setTask key stored)

/-- The loop of `list_queued`. -/
def listFrom (tasks : Dict String ScheduledTask) (queued : Finset String) :
    List (HeapEntry Rank String) → Finset String → List (String × ScheduledTask)
  | [], _ => []
  | e :: es, seen =>
    if e.key ∈ seen then listFrom tasks queued es seen
    else if e.key ∉ queued then listFrom tasks queued es seen
    else match tasks.get? e.key with
      | none => listFrom tasks queued es seen
      | some t => (e.key, t) :: listFrom tasks queued es (insert e.key seen)

/-- `snapshot.sort()` -/
def snapshot (q : TaskSchedulerQueue) : List (HeapEntry Rank String) :=
  q.heap.entries.insertionSort HeapEntry.Le

/-- `list_queued`, with the key of each task. -/
def listEntries (q : TaskSchedulerQueue) : List (String × ScheduledTask) :=
  listFrom q.tasks q.queuedIds q.snapshot ∅

def listQueued (q : TaskSchedulerQueue) : List ScheduledTask := q.listEntries.map Prod.snd

/-- What `pop_next` answers, called once at each of the clock readings. -/
def drain (q : TaskSchedulerQueue) : List ℚ → List (Option ScheduledTask)
  | [] => []
  | now :: nows => (q.popNext now).1 :: drain (q.popNext now).2 nows

inductive QueueOperation where
  | call (c : QueueCall)
  | upsertTask (task : ScheduledTask)
  | listQueued

inductive OperationAnswer where
  | answer (a : QueueAnswer)
  | upserted (r : Except Err ScheduledTask)
  | tasks (ts : List ScheduledTask)

def operate (digest : Val → String) (q : TaskSchedulerQueue) :
    QueueOperation → OperationAnswer × TaskSchedulerQueue
  | .call c => (call digest q c).map .answer id
  | .upsertTask task => (q.upsertTask task).map .upserted id
  | .listQueued => (.tasks q.listQueued, q)

def operations (digest : Val → String) :
    Machine TaskSchedulerQueue QueueOperation OperationAnswer := ⟨operate digest⟩

/-! ## What is claimed of the three readings -/

/-- Listing, peeking and popping tell of the same tasks in the same order. -/
structure Served (q : TaskSchedulerQueue) : Prop where
  once : (q.listEntries.map Prod.fst).Nodup
  queued : ∀ k, k ∈ q.listEntries.map Prod.fst ↔ k ∈ q.queuedIds
  stored : ∀ e ∈ q.listEntries, q.tasks.get? e.1 = some e.2
  peeked : ∀ now, (q.peekNext.2.popNext now).1 = q.peekNext.1.map (started now)
  drained : ∀ nows, q.drain nows =
    List.zipWith (fun t now => some (started now t)) q.listQueued nows ++
      List.replicate (nows.length - q.listQueued.length) none

/-- Whatever is done to the queue later is answered as if nobody had peeked at it. -/
def PeekUnseen (digest : Val → String) (q : TaskSchedulerQueue) : Prop :=
  ∀ later, (operations digest).outputs q.peekNext.2 later = (operations digest).outputs q later

structure Coincide (digest : Val → String) (q : TaskSchedulerQueue) : Prop where
  served : Served q
  unseen : PeekUnseen digest q

/-- The first entry of the heap, if there is one, is of a queued key. -/
def FrontLive (q : TaskSchedulerQueue) : Prop := ∀ e ∈ q.heap.entries.head?, e.key ∈ q.queuedIds

/-! ## Queued keys are stored and have entries -/

structure Backed (q : TaskSchedulerQueue) : Prop where
  stored : ∀ k ∈ q.queuedIds, ∃ t, q.tasks.get? k = some t
  entered : ∀ k ∈ q.queuedIds, ∃ e ∈ q.heap.entries, e.key = k

section Backed

variable {q : TaskSchedulerQueue}

theorem backed_init : Backed init := by
  constructor <;> intro k hk <;> exact absurd hk (Finset.notMem_empty k)

theorem Backed.discard (h : Backed q) (key : String) : Backed (q.discard key) :=
  ⟨fun k hk => h.stored k (Finset.mem_of_mem_erase hk),
   fun k hk => h.entered k (Finset.mem_of_mem_erase hk)⟩

theorem stored_setTask {k : String} (h : ∃ t, q.tasks.get? k = some t) (key : String)
    (t : ScheduledTask) : ∃ t', (q.setTask key t).tasks.get? k = some t' := by
  obtain ⟨t', ht'⟩ := h
  by_cases hk : k = key
  · exact ⟨t, by simp [TaskSchedulerQueue.setTask, hk]⟩
  · exact ⟨t', by simpa [TaskSchedulerQueue.setTask, hk] using ht'⟩

theorem Backed.setTask (h : Backed q) (key : String) (t : ScheduledTask) :
    Backed (q.setTask key t) :=
  ⟨fun k hk => stored_setTask (h.stored k hk) key t, h.entered⟩

/-- Storing a task and queueing it under the same key. -/
theorem Backed.store (h : Backed q) (key : String) (t : ScheduledTask) (rank : Rank) :
    Backed ((q.setTask key t).pushEntry key rank) := by
  refine ⟨fun k hk => ?_, fun k hk => ?_⟩
  · rcases Finset.mem_insert.mp hk with rfl | hk
    · exact ⟨t, by simp [pushEntry, TaskSchedulerQueue.setTask]⟩
    · exact stored_setTask (h.stored k hk) key t
  · rcases Finset.mem_insert.mp hk with rfl | hk
    · exact ⟨⟨rank, q.sequence, k⟩, LazyHeap.mem_push.mpr (.inl rfl), rfl⟩
    · obtain ⟨e, he, hek⟩ := h.entered k hk
      exact ⟨e, LazyHeap.mem_push.mpr (.inr he), hek⟩

theorem Backed.withTask (h : Backed q) {taskId : String} {scope : KeyScope}
    {body : String → ScheduledTask → QueueM Bool} (hb : ∀ key t, Backed (body key t).2) :
    Backed (q.withTask taskId scope body).2 := by
  unfold TaskSchedulerQueue.withTask
  split
  · exact h
  · exact h
  · exact hb _ _

theorem Backed.endTask (h : Backed q) (key : String) (t : ScheduledTask) :
    Backed ((q.discard key).setTask key t) := (h.discard key).setTask key t

theorem Backed.storeTask (h : Backed q) (key : String) (stored : ScheduledTask) (requeued : Bool)
    (conflicts : List LineageConflict) : Backed (q.storeTask key stored requeued conflicts).2 := by
  have hs := h.store key (cleared stored) stored.rank
  unfold TaskSchedulerQueue.storeTask
  split
  · exact hs
  · exact ⟨hs.stored, hs.entered⟩

theorem Backed.enqueue (h : Backed q) (digest : Val → String) (task : ScheduledTask)
    (overwrite : Bool) : Backed (q.enqueue digest task overwrite).2 := by
  unfold TaskSchedulerQueue.enqueue
  split
  · exact h
  · split
    · exact h
    · exact ⟨h.stored, h.entered⟩
    · split
      · exact h.storeTask _ _ _ _
      · split
        · unfold overwriteTask
          split
          · exact h.discard _
          · exact (h.discard _).storeTask _ _ _ _
        · unfold answerDuplicate
          split
          · exact h
          · exact ⟨h.stored, h.entered⟩

theorem Backed.requeue (h : Backed q) (taskId : String) (priority : Option ℤ)
    (error : Option String) (scope : KeyScope) :
    Backed (q.requeue taskId priority error scope).2 := by
  unfold TaskSchedulerQueue.requeue
  refine h.withTask fun key t => ?_
  split
  · exact h
  · exact h.store key _ _

theorem Backed.updatePriority (h : Backed q) (taskId : String) (priority : ℤ) (scope : KeyScope) :
    Backed (q.updatePriority taskId priority scope).2 := by
  unfold TaskSchedulerQueue.updatePriority
  refine h.withTask fun key t => ?_
  simp only
  split
  · exact h.store key _ _
  · exact h.setTask key _

theorem Backed.markFinished (h : Backed q) (taskId : String) (result : Val)
    (authority : Option (TaskCompletionAuthority × Bool)) (scope : KeyScope) (now : ℚ) :
    Backed (q.markFinished taskId result authority scope now).2 := by
  unfold TaskSchedulerQueue.markFinished
  refine h.withTask fun key t => ?_
  split
  · exact h
  · exact h
  · exact h.endTask key _

theorem Backed.remove (h : Backed q) (taskId : String) (scope : KeyScope) :
    Backed (q.remove taskId scope).2 := by
  unfold TaskSchedulerQueue.remove
  split
  · exact h
  · exact h
  · rename_i key _
    refine ⟨fun k hk => ?_, fun k hk => h.entered k (Finset.mem_of_mem_erase hk)⟩
    obtain ⟨t, ht⟩ := h.stored k (Finset.mem_of_mem_erase hk)
    exact ⟨t, by simpa [Finset.ne_of_mem_erase hk] using ht⟩

theorem Backed.upsertTask (h : Backed q) (task : ScheduledTask) :
    Backed (q.upsertTask task).2 := by
  unfold TaskSchedulerQueue.upsertTask
  split
  · exact h
  · exact h.setTask _ _

/-- The entries of the keys that stay queued stay in the heap. -/
theorem Backed.afterPop (h : Backed q) : Backed q.afterPop := by
  cases hn : q.nextEntry with
  | none =>
    obtain ⟨hq, hdead⟩ := popFrom_none h.stored hn
    refine ⟨fun k hk => h.stored k (hq ▸ hk), fun k hk => ?_⟩
    obtain ⟨e, he, rfl⟩ := h.entered k (hq ▸ hk)
    exact absurd (hq ▸ hk) (hdead e he)
  | some f =>
    obtain ⟨key, t⟩ := f
    obtain ⟨hq, -, -, dropped, e, hes, rfl, hdead⟩ := popFrom_some h.stored hn
    have old : ∀ k ∈ q.afterPop.queuedIds, k ≠ e.key ∧ k ∈ q.queuedIds :=
      fun k hk => Finset.mem_erase.mp (hq ▸ hk)
    refine ⟨fun k hk => h.stored k (old k hk).2, fun k hk => ?_⟩
    obtain ⟨hne, hk⟩ := old k hk
    obtain ⟨x, hx, rfl⟩ := h.entered k hk
    rw [hes] at hx
    rcases List.mem_append.mp hx with hx | hx
    · exact absurd hk (hdead x hx)
    · rcases List.mem_cons.mp hx with rfl | hx
      · exact absurd rfl hne
      · exact ⟨x, hx, rfl⟩

theorem Backed.popEntry (h : Backed q) (now : ℚ) : Backed (q.popEntry now).2 := by
  unfold TaskSchedulerQueue.popEntry
  split
  · exact h.afterPop
  · exact h.afterPop.setTask _ _

theorem Backed.peekNext (h : Backed q) : Backed q.peekNext.2 := by
  obtain ⟨hq, hkeep⟩ := peekFrom_spec q.heap.entries h.stored
  unfold TaskSchedulerQueue.peekNext
  refine ⟨fun k hk => h.stored k (hq ▸ hk), fun k hk => ?_⟩
  obtain ⟨e, he, rfl⟩ := h.entered k (hq ▸ hk)
  exact ⟨e, hkeep e he (hq ▸ hk), rfl⟩

theorem backed_call (h : Backed q) (digest : Val → String) (c : QueueCall) :
    Backed (call digest q c).2 := by
  cases c <;> simp only [call, Prod.map_snd, id_eq]
  case enqueue task overwrite => exact h.enqueue digest task overwrite
  case popNext now => exact h.popEntry now
  case peekNext => exact h.peekNext
  case requeue taskId priority error scope => exact h.requeue taskId priority error scope
  case cancel taskId scope now =>
    unfold cancel
    exact h.withTask fun key t => h.endTask key _
  case markFinished taskId result authority scope now =>
    exact h.markFinished taskId result authority scope now
  case markFailed taskId error scope now =>
    unfold markFailed
    exact h.withTask fun key t => h.endTask key _
  case incrementRetry taskId scope =>
    unfold incrementRetry
    exact h.withTask fun key t => h.setTask key _
  case updatePriority taskId priority scope => exact h.updatePriority taskId priority scope
  case remove taskId scope => exact h.remove taskId scope

theorem backed_operate (digest : Val → String) (q : TaskSchedulerQueue) (o : QueueOperation)
    (h : Backed q) : Backed (operate digest q o).2 := by
  cases o with
  | call c => exact backed_call h digest c
  | upsertTask task => exact h.upsertTask task
  | listQueued => exact h

theorem backed_run (digest : Val → String) (ops : List QueueOperation) :
    Backed ((operations digest).run init ops) :=
  Machine.run_invariant (backed_operate digest) ops backed_init

end Backed

/-! ## The list is what is taken -/

section Lists

variable {tasks tasks' : Dict String ScheduledTask} {queued queued' : Finset String}
  {es : List (HeapEntry Rank String)} {e : HeapEntry Rank String}

variable {seen : Finset String}

theorem listFrom_skip (h : e.key ∈ queued → e.key ∈ seen) :
    listFrom tasks queued (e :: es) seen = listFrom tasks queued es seen := by
  rw [listFrom]
  split
  · rfl
  · rename_i hs
    rw [if_pos fun hq => hs (h hq)]

theorem listFrom_take {t : ScheduledTask} (hq : e.key ∈ queued) (hs : e.key ∉ seen)
    (ht : tasks.get? e.key = some t) :
    listFrom tasks queued (e :: es) seen =
      (e.key, t) :: listFrom tasks queued es (insert e.key seen) := by
  rw [listFrom, if_neg hs, if_neg (not_not.mpr hq), ht]

/-- The list depends on the keys still to be listed and on what is stored under them. -/
theorem listFrom_congr {seen' : Finset String} (hst : ∀ k ∈ queued, ∃ t, tasks.get? k = some t)
    (hkeys : ∀ k, (k ∈ queued ∧ k ∉ seen) ↔ (k ∈ queued' ∧ k ∉ seen'))
    (htasks : ∀ k, k ∈ queued → k ∉ seen → tasks.get? k = tasks'.get? k) :
    listFrom tasks queued es seen = listFrom tasks' queued' es seen' := by
  induction es generalizing seen seen' with
  | nil => rfl
  | cons e es ih =>
    by_cases hlive : e.key ∈ queued ∧ e.key ∉ seen
    · obtain ⟨hq', hs'⟩ := (hkeys e.key).mp hlive
      obtain ⟨t, ht⟩ := hst e.key hlive.1
      rw [listFrom_take hlive.1 hlive.2 ht,
        listFrom_take hq' hs' ((htasks e.key hlive.1 hlive.2).symm.trans ht)]
      refine congrArg ((e.key, t) :: ·) (ih (fun k => ?_) fun k hk hs => ?_)
      · have := hkeys k
        simp only [Finset.mem_insert, not_or]
        tauto
      · exact htasks k hk fun hin => hs (Finset.mem_insert_of_mem hin)
    · have hdead' : ¬(e.key ∈ queued' ∧ e.key ∉ seen') := fun h => hlive ((hkeys e.key).mpr h)
      rw [listFrom_skip fun hq => not_not.mp fun hs => hlive ⟨hq, hs⟩,
        listFrom_skip fun hq => not_not.mp fun hs => hdead' ⟨hq, hs⟩]
      exact ih hkeys htasks

theorem mem_keys_listFrom (hst : ∀ k ∈ queued, ∃ t, tasks.get? k = some t) {k : String} :
    k ∈ (listFrom tasks queued es seen).map Prod.fst ↔
      (k ∈ queued ∧ k ∉ seen) ∧ ∃ e ∈ es, e.key = k := by
  induction es generalizing seen with
  | nil => simp [listFrom]
  | cons e es ih =>
    by_cases hlive : e.key ∈ queued ∧ e.key ∉ seen
    · obtain ⟨t, ht⟩ := hst e.key hlive.1
      rw [listFrom_take hlive.1 hlive.2 ht, List.map_cons, List.mem_cons, ih]
      by_cases hk : k = e.key
      · subst hk
        simp [hlive]
      · simp [hk, Ne.symm hk]
    · rw [listFrom_skip fun hq => not_not.mp fun hs => hlive ⟨hq, hs⟩, ih]
      refine and_congr_right fun hk => ?_
      have hne : e.key ≠ k := by
        rintro rfl
        exact hlive hk
      simp [hne]

theorem nodup_keys_listFrom (hst : ∀ k ∈ queued, ∃ t, tasks.get? k = some t)
    (seen : Finset String) : ((listFrom tasks queued es seen).map Prod.fst).Nodup := by
  induction es generalizing seen with
  | nil => exact List.nodup_nil
  | cons e es ih =>
    by_cases hlive : e.key ∈ queued ∧ e.key ∉ seen
    · obtain ⟨t, ht⟩ := hst e.key hlive.1
      rw [listFrom_take hlive.1 hlive.2 ht, List.map_cons, List.nodup_cons]
      refine ⟨fun hmem => ?_, ih _⟩
      obtain ⟨⟨-, hs⟩, -⟩ := (mem_keys_listFrom hst).mp hmem
      exact hs (Finset.mem_insert_self _ _)
    · rw [listFrom_skip fun hq => not_not.mp fun hs => hlive ⟨hq, hs⟩]
      exact ih seen

theorem listFrom_stored {f : String × ScheduledTask} (hf : f ∈ listFrom tasks queued es seen) :
    tasks.get? f.1 = some f.2 := by
  induction es generalizing seen with
  | nil => cases hf
  | cons e es ih =>
    rw [listFrom] at hf
    split at hf
    · exact ih hf
    · split at hf
      · exact ih hf
      · split at hf
        · exact ih hf
        · rename_i t ht
          rcases List.mem_cons.mp hf with rfl | hf
          · exact ht
          · exact ih hf

/-- The list begins with what `pop_next` takes, and goes on with the list of what it leaves. -/
theorem listFrom_eq (hst : ∀ k ∈ queued, ∃ t, tasks.get? k = some t) :
    listFrom tasks queued es ∅ = (popFrom tasks es queued).1.toList ++
      listFrom tasks (popFrom tasks es queued).2.2 (popFrom tasks es queued).2.1 ∅ := by
  induction es with
  | nil => rfl
  | cons e es ih =>
    by_cases hq : e.key ∈ queued
    · obtain ⟨t, ht⟩ := hst e.key hq
      rw [listFrom_take hq (Finset.notMem_empty _) ht, popFrom, if_neg (not_not.mpr hq), ht]
      refine congrArg ((e.key, t) :: ·) (listFrom_congr hst (fun k => ?_) fun _ _ _ => rfl)
      simp only [Finset.mem_insert, Finset.mem_erase, Finset.notMem_empty, or_false,
        not_false_eq_true, and_true]
      exact and_comm
    · rw [listFrom_skip fun h => absurd h hq, popFrom, if_pos hq]
      exact ih

/-- `peek_next` keeps what `pop_next` looks at, and answers with what that takes. -/
theorem popFrom_peekFrom (es : List (HeapEntry Rank String))
    (hst : ∀ k ∈ queued, ∃ t, tasks.get? k = some t) :
    (peekFrom tasks es queued).2.2 = queued ∧
      (peekFrom tasks es queued).1 = (popFrom tasks es queued).1 ∧
      popFrom tasks (peekFrom tasks es queued).2.1 queued = popFrom tasks es queued := by
  induction es with
  | nil => exact ⟨rfl, rfl, rfl⟩
  | cons e es ih =>
    by_cases hq : e.key ∈ queued
    · obtain ⟨t, ht⟩ := hst e.key hq
      simp only [peekFrom, popFrom, if_neg (not_not.mpr hq), ht, true_and]
    · simp only [peekFrom, popFrom, if_pos hq]
      exact ih

/-- What `peek_next` leaves begins with an entry of a queued key. -/
theorem head_peekFrom (hst : ∀ k ∈ queued, ∃ t, tasks.get? k = some t) :
    ∀ e ∈ (peekFrom tasks es queued).2.1.head?, e.key ∈ queued := by
  induction es with
  | nil => intro e he; cases he
  | cons e es ih =>
    by_cases hq : e.key ∈ queued
    · obtain ⟨t, ht⟩ := hst e.key hq
      simp only [peekFrom, if_neg (not_not.mpr hq), ht]
      rintro x ⟨⟩
      exact hq
    · simp only [peekFrom, if_pos hq]
      exact ih

end Lists

section Queues

variable {q : TaskSchedulerQueue}

theorem snapshot_eq (q : TaskSchedulerQueue) : q.snapshot = q.heap.entries :=
  q.heap.sorted.insertionSort_eq

/-- The list begins with the next entry and goes on as the list after it was taken. -/
theorem Backed.listEntries_eq (h : Backed q) (now : ℚ) :
    q.listEntries = q.nextEntry.toList ++ (q.popEntry now).2.listEntries := by
  have hafter : q.listEntries = q.nextEntry.toList ++ q.afterPop.listEntries := by
    unfold listEntries
    rw [snapshot_eq, snapshot_eq]
    exact listFrom_eq h.stored
  rw [hafter]
  unfold TaskSchedulerQueue.popEntry
  cases hn : q.nextEntry with
  | none => rfl
  | some f =>
    obtain ⟨key, t⟩ := f
    obtain ⟨hq, -⟩ := popFrom_some h.stored hn
    have hq' : q.afterPop.queuedIds = q.queuedIds.erase key := hq
    refine congrArg ([(key, t)] ++ ·) ?_
    unfold listEntries
    rw [snapshot_eq, snapshot_eq]
    refine listFrom_congr h.afterPop.stored (fun k => Iff.rfl) fun k hk _ => ?_
    have hne : k ≠ key := (Finset.mem_erase.mp (hq' ▸ hk)).1
    simp [TaskSchedulerQueue.setTask, hne]

theorem Backed.listed_iff (h : Backed q) (k : String) :
    k ∈ q.listEntries.map Prod.fst ↔ k ∈ q.queuedIds := by
  unfold listEntries
  rw [snapshot_eq, mem_keys_listFrom h.stored]
  refine ⟨fun hk => hk.1.1, fun hk => ⟨⟨hk, Finset.notMem_empty k⟩, h.entered k hk⟩⟩

theorem Backed.popNext_eq (h : Backed q) (now : ℚ) :
    (q.popNext now).1 = q.listQueued.head?.map (started now) := by
  unfold popNext listQueued
  rw [h.listEntries_eq now]
  unfold TaskSchedulerQueue.popEntry
  cases hn : q.nextEntry with
  | none =>
    -- nothing is left to be listed, since every queued key has an entry
    obtain ⟨hq, hdead⟩ := popFrom_none h.stored hn
    have hempty : q.afterPop.listEntries = [] := by
      rw [← List.map_eq_nil_iff (f := Prod.fst), List.eq_nil_iff_forall_not_mem]
      intro k hk
      have hk' : k ∈ q.queuedIds := hq ▸ (h.afterPop.listed_iff k).mp hk
      obtain ⟨e, he, rfl⟩ := h.entered k hk'
      exact hdead e he hk'
    simp [hempty]
  | some f => rfl

theorem Backed.listQueued_popNext (h : Backed q) (now : ℚ) :
    (q.popNext now).2.listQueued = q.listQueued.tail := by
  have hpop := h.popNext_eq now
  unfold popNext at hpop ⊢
  unfold listQueued at hpop ⊢
  rw [h.listEntries_eq now] at hpop ⊢
  cases hn : q.nextEntry with
  | some f => rfl
  | none =>
    rw [hn] at hpop
    unfold TaskSchedulerQueue.popEntry at hpop ⊢
    rw [hn] at hpop ⊢
    simp only [Option.toList_none, List.nil_append, Option.map_none] at hpop ⊢
    have hnone := Option.map_eq_none_iff.mp hpop.symm
    rw [List.head?_eq_none_iff.mp hnone]
    rfl

theorem Backed.drain_eq (h : Backed q) (nows : List ℚ) :
    q.drain nows =
      List.zipWith (fun t now => some (started now t)) q.listQueued nows ++
        List.replicate (nows.length - q.listQueued.length) none := by
  induction nows generalizing q with
  | nil => simp [drain]
  | cons now nows ih =>
    have hnext : Backed (q.popNext now).2 := h.popEntry now
    rw [drain, ih hnext, h.popNext_eq, h.listQueued_popNext]
    cases q.listQueued with
    | nil => simp [List.replicate_succ]
    | cons t ts => simp

theorem Backed.peekNext_eq (h : Backed q) (now : ℚ) :
    (q.peekNext.2.popNext now).1 = q.peekNext.1.map (started now) := by
  obtain ⟨hq, hpeek, hpop⟩ := popFrom_peekFrom q.heap.entries h.stored
  have hnext : q.peekNext.2.nextEntry = q.nextEntry := by
    unfold TaskSchedulerQueue.nextEntry TaskSchedulerQueue.peekNext
    simp only [LazyHeap.dropTo, hq, hpop]
  have hanswer : q.peekNext.1 = q.nextEntry.map Prod.snd := by
    unfold TaskSchedulerQueue.nextEntry TaskSchedulerQueue.peekNext
    simp only [hpeek]
  unfold popNext TaskSchedulerQueue.popEntry
  rw [hnext, hanswer]
  cases q.nextEntry <;> rfl

theorem Backed.served (h : Backed q) : Served q where
  once := by
    unfold listEntries
    exact nodup_keys_listFrom h.stored ∅
  queued := h.listed_iff
  stored := fun _ he => listFrom_stored he
  peeked := h.peekNext_eq
  drained := h.drain_eq

end Queues

/-! ## What peeking drops -/

section Unseen

variable {q : TaskSchedulerQueue} {digest : Val → String}

theorem FrontLive.peekNext (hst : ∀ k ∈ q.queuedIds, ∃ t, q.tasks.get? k = some t)
    (h : FrontLive q) : q.peekNext.2 = q := by
  have hkept : (peekFrom q.tasks q.heap.entries q.queuedIds).2 = (q.heap.entries, q.queuedIds) := by
    unfold FrontLive at h
    cases hes : q.heap.entries with
    | nil => rfl
    | cons e es =>
      have hq : e.key ∈ q.queuedIds := h e (by rw [hes]; rfl)
      obtain ⟨t, ht⟩ := hst e.key hq
      rw [peekFrom, if_neg (not_not.mpr hq), ht]
  unfold TaskSchedulerQueue.peekNext
  simp only [LazyHeap.dropTo, hkept]

/-- A task that says nothing but its id, its title and its rank. -/
def plainTask (taskId title : String) (rank : Rank) : ScheduledTask :=
  { taskId, title, priority := -rank.1, createdAt := rank.2 }

theorem payload_plainTask (taskId title : String) (rank : Rank) :
    (plainTask taskId title rank).payload = [] := rfl

theorem rank_plainTask (taskId title : String) (rank : Rank) :
    (plainTask taskId title rank).rank = rank := by
  unfold ScheduledTask.rank rankOf plainTask
  simp only [neg_neg]
  rfl

theorem duplicate_empty (digest : Val → String) (items : List Val) :
    duplicateIdentity digest (.dict []) items = .ok none := rfl

theorem extract_empty : extractQueueLineage (.dict []) = .ok [] := rfl

theorem session_empty : queueSessionId (.dict []) = .ok "" := rfl

theorem storageKey_plain (taskId title : String) (rank : Rank) :
    storageKey (plainTask taskId title rank) = .ok taskId := by
  have hsession : (plainTask taskId title rank).session = .ok "" := by
    unfold ScheduledTask.session plainTask
    rw [session_empty]
    rfl
  unfold storageKey
  rw [hsession, payload_plainTask, extract_empty]
  rfl

theorem insert_erase_self (s : Finset String) (k : String) : insert k (s.erase k) = insert k s := by
  ext x
  simp only [Finset.mem_insert, Finset.mem_erase]
  tauto

theorem storeTask_parts (q : TaskSchedulerQueue) (key : String) (stored : ScheduledTask)
    (requeued : Bool) (conflicts : List LineageConflict) :
    (q.storeTask key stored requeued conflicts).2.tasks = q.tasks.set key (cleared stored) ∧
      (q.storeTask key stored requeued conflicts).2.heap =
        q.heap.push ⟨stored.rank, q.sequence, key⟩ ∧
      (q.storeTask key stored requeued conflicts).2.queuedIds = insert key q.queuedIds := by
  unfold TaskSchedulerQueue.storeTask
  split
  · exact ⟨rfl, rfl, rfl⟩
  · exact ⟨rfl, rfl, rfl⟩

theorem enqueue_plain (digest : Val → String) (q : TaskSchedulerQueue) (taskId title : String)
    (rank : Rank) {q' : TaskSchedulerQueue}
    (hq' : q' = (q.enqueue digest (plainTask taskId title rank) true).2) :
    q'.heap = q.heap.push ⟨rank, q.sequence, taskId⟩ ∧
      q'.queuedIds = insert taskId q.queuedIds ∧
      ∃ stored, stored.title = title ∧ q'.tasks = q.tasks.set taskId stored := by
  have hkey := storageKey_plain taskId title rank
  have hdup : duplicateIdentity digest (.dict (plainTask taskId title rank).payload)
      (q.otherPayloads taskId) = .ok none := by
    rw [payload_plainTask]
    exact duplicate_empty digest _
  have hread : extractQueueLineage (.dict (plainTask taskId title rank).payload) = .ok [] := by
    rw [payload_plainTask]
    exact extract_empty
  have hrank := rank_plainTask taskId title rank
  unfold TaskSchedulerQueue.enqueue at hq'
  simp only [hkey, hdup] at hq'
  cases hold : q.tasks.get? taskId with
  | none =>
    rw [hold] at hq'
    obtain ⟨htasks, hheap, hqueued⟩ :=
      storeTask_parts q taskId (plainTask taskId title rank) false []
    rw [hq', htasks, hheap, hqueued, hrank]
    exact ⟨rfl, rfl, _, rfl, rfl⟩
  | some existing =>
    rw [hold] at hq'
    obtain ⟨⟨sealedPayload, conflicts⟩, hmerge⟩ := mergeQueueLineage_ok existing.payload hread
    simp only [if_true, overwriteTask, hmerge] at hq'
    let merged : ScheduledTask := { plainTask taskId title rank with
      payload := overlay sealedPayload (plainTask taskId title rank).payload }
    have hmerged : merged.rank = rank := hrank
    obtain ⟨htasks, hheap, hqueued⟩ :=
      storeTask_parts (q.discard taskId) taskId merged true conflicts
    rw [hq', htasks, hheap, hqueued, hmerged]
    exact ⟨rfl, insert_erase_self q.queuedIds taskId, cleared merged, rfl, rfl⟩

theorem popNext_of_head {e : HeapEntry Rank String} {t : ScheduledTask} (now : ℚ)
    (he : q.heap.entries.head? = some e) (hq : e.key ∈ q.queuedIds)
    (ht : q.tasks.get? e.key = some t) : (q.popNext now).1 = some (started now t) := by
  have hn : q.nextEntry = some (e.key, t) := by
    unfold TaskSchedulerQueue.nextEntry
    cases hes : q.heap.entries with
    | nil => rw [hes] at he; cases he
    | cons x es =>
      rw [hes] at he
      cases he
      rw [popFrom, if_neg (not_not.mpr hq), ht]
  unfold popNext TaskSchedulerQueue.popEntry
  rw [hn]
  rfl

/-- Two plain tasks and a `pop_next`: what comes out if the heap begins with an entry that ranks
before both, of the second task's key. -/
theorem revived_front {d : HeapEntry Rank String} {near far : Rank} (other title title' : String)
    (hd : q.heap.entries.head? = some d) (hnear : d.rank < near) (hfar : d.rank < far)
    {q₁ q₂ : TaskSchedulerQueue}
    (h₁ : q₁ = (q.enqueue digest (plainTask other title near) true).2)
    (h₂ : q₂ = (q₁.enqueue digest (plainTask d.key title' far) true).2) :
    ∃ t, t.title = title' ∧ (q₂.popNext 0).1 = some (started 0 t) := by
  obtain ⟨hheap₁, -, -⟩ := enqueue_plain digest q other title near h₁
  obtain ⟨hheap₂, hqueued₂, stored, htitle, htasks₂⟩ :=
    enqueue_plain digest q₁ d.key title' far h₂
  refine ⟨stored, htitle, popNext_of_head 0 (e := d) ?_ ?_ ?_⟩
  · rw [hheap₂, hheap₁]
    exact LazyHeap.head_push_of_lt (LazyHeap.head_push_of_lt hd hnear) hfar
  · rw [hqueued₂]
    exact Finset.mem_insert_self d.key _
  · rw [htasks₂]
    simp

/-- What comes out if the heap begins with no entry of the second task's key. -/
theorem other_front {near far : Rank} {key other title : String} (title' : String)
    (hne : other ≠ key) (hkey : key ∉ q.queuedIds)
    (hst : ∀ k ∈ q.queuedIds, ∃ t, q.tasks.get? k = some t) (hfront : FrontLive q)
    (htitle : ∀ e ∈ q.heap.entries.head?, ∀ t, q.tasks.get? e.key = some t → t.title = title)
    (hlt : near < far) {q₁ q₂ : TaskSchedulerQueue}
    (h₁ : q₁ = (q.enqueue digest (plainTask other title near) true).2)
    (h₂ : q₂ = (q₁.enqueue digest (plainTask key title' far) true).2) :
    ∃ t, t.title = title ∧ (q₂.popNext 0).1 = some (started 0 t) := by
  obtain ⟨hheap₁, hqueued₁, stored, hstored, htasks₁⟩ := enqueue_plain digest q other title near h₁
  obtain ⟨hheap₂, hqueued₂, stored', -, htasks₂⟩ := enqueue_plain digest q₁ key title' far h₂
  obtain ⟨e, hhead, hle, hcases⟩ := LazyHeap.head_push_cases q.heap ⟨near, q.sequence, other⟩
  rw [← hheap₁] at hhead
  have hhead₂ : q₂.heap.entries.head? = some e := by
    rw [hheap₂]
    exact LazyHeap.head_push_of_lt hhead (lt_of_le_of_lt hle hlt)
  have hlive : e.key ∈ q₁.queuedIds ∧ e.key ≠ key ∧ ∃ t, t.title = title ∧
      q₁.tasks.get? e.key = some t := by
    rw [hqueued₁, htasks₁]
    rcases hcases with rfl | hold
    · exact ⟨Finset.mem_insert_self _ _, hne, stored, hstored, by simp⟩
    · have hq : e.key ∈ q.queuedIds := hfront e hold
      refine ⟨Finset.mem_insert_of_mem hq, fun hk => hkey (hk ▸ hq), ?_⟩
      by_cases ho : e.key = other
      · exact ⟨stored, hstored, by simp [ho]⟩
      · obtain ⟨t, ht⟩ := hst e.key hq
        exact ⟨t, htitle e hold t ht, by simpa [ho] using ht⟩
  obtain ⟨hq, hkey', t, ht, hget⟩ := hlive
  refine ⟨t, ht, popNext_of_head 0 hhead₂ ?_ ?_⟩
  · rw [hqueued₂]
    exact Finset.mem_insert_of_mem hq
  · rw [htasks₂]
    simpa [hkey'] using hget

theorem append_plus_ne (s : String) : s ++ "+" ≠ s := by
  intro h
  have hlen := congrArg String.length h
  rw [String.length_append] at hlen
  have hone : "+".length = 1 := rfl
  omega

/-- A dropped entry would be live again once its key is, and would come first. -/
theorem PeekUnseen.frontLive (h : Backed q) (hu : PeekUnseen digest q) : FrontLive q := by
  by_contra hfront
  obtain ⟨d, hd, hdead⟩ : ∃ d, q.heap.entries.head? = some d ∧ d.key ∉ q.queuedIds := by
    unfold FrontLive at hfront
    push Not at hfront
    exact hfront
  obtain ⟨hqueued, -⟩ := peekFrom_spec q.heap.entries h.stored
  let p := q.peekNext.2
  have hpq : p.queuedIds = q.queuedIds := hqueued
  have hpt : p.tasks = q.tasks := rfl
  have hpfront : FrontLive p := by
    intro e he
    rw [hpq]
    exact head_peekFrom h.stored e he
  let title := ((p.heap.entries.head?.bind fun e => p.tasks.get? e.key).map
    ScheduledTask.title).getD ""
  let near : Rank := toLex ((ofLex d.rank).1 + 1, (ofLex d.rank).2)
  let far : Rank := toLex ((ofLex d.rank).1 + 2, (ofLex d.rank).2)
  have hnear : d.rank < near := Prod.Lex.lt_iff.mpr (.inl (Int.lt_succ _))
  have hlt : near < far := Prod.Lex.lt_iff.mpr (.inl (by
    show (ofLex d.rank).1 + 1 < (ofLex d.rank).1 + 2
    omega))
  let later : List QueueOperation :=
    [.call (.enqueue (plainTask (d.key ++ "+") title near) true),
     .call (.enqueue (plainTask d.key (title ++ "+") far) true), .call (.popNext 0)]
  obtain ⟨t, ht, hpop⟩ := revived_front (d.key ++ "+") title (title ++ "+") hd hnear
    (hnear.trans hlt) (Eq.refl (q.enqueue digest _ true).2) rfl
  have htitle : ∀ e ∈ p.heap.entries.head?, ∀ t, p.tasks.get? e.key = some t → t.title = title := by
    intro e he t ht
    have hbind : (p.heap.entries.head?.bind fun e => p.tasks.get? e.key) = some t := by
      rw [Option.mem_def.mp he]
      exact ht
    simp only [title, hbind, Option.map_some, Option.getD_some]
  obtain ⟨t', ht', hpop'⟩ := other_front (title ++ "+") (append_plus_ne d.key) (hpq ▸ hdead)
    (hpq ▸ hpt ▸ h.stored) hpfront htitle hlt (Eq.refl (p.enqueue digest _ true).2) rfl
  have hall := hu later
  simp only [later, Machine.outputs, operations, operate, call, List.cons.injEq, Prod.mk.injEq,
    Prod.map_fst, Prod.map_snd, id_eq, true_and, and_true, OperationAnswer.answer.injEq,
    QueueAnswer.task.injEq] at hall
  have hsame : some (started 0 t') = some (started 0 t) :=
    hpop'.symm.trans (hall.2.2.trans hpop)
  have hstarted : started 0 t' = started 0 t := Option.some.inj hsame
  have htitles : (started 0 t').title = (started 0 t).title := by rw [hstarted]
  have hplus : title = title ++ "+" := ht'.symm.trans (Eq.trans htitles ht)
  exact append_plus_ne title hplus.symm

theorem Backed.unseen_iff (h : Backed q) : PeekUnseen digest q ↔ FrontLive q := by
  refine ⟨PeekUnseen.frontLive h, fun hfront later => ?_⟩
  rw [hfront.peekNext h.stored]

end Unseen

/-! ## Whole runs -/

/-- In every queue that is reached, listing, peeking and popping tell of the same tasks; and a peek
leaves no trace if and only if the first entry of the heap is of a queued key. -/
theorem coincide_iff (digest : Val → String) (ops : List QueueOperation) :
    Coincide digest ((operations digest).run init ops) ↔
      FrontLive ((operations digest).run init ops) := by
  have h := backed_run digest ops
  exact ⟨fun hc => h.unseen_iff.mp hc.unseen, fun hf => ⟨h.served, h.unseen_iff.mpr hf⟩⟩

/-- Listing, peeking and popping agree in every queue that is reached. -/
theorem served_run (digest : Val → String) (ops : List QueueOperation) :
    Served ((operations digest).run init ops) := (backed_run digest ops).served

/-- A cancelled task of priority 10, to be queued again with priority 1 beside one of priority 5:
the peek decides which of them comes out first. -/
def cancelledFirst : List QueueOperation :=
  [.call (.enqueue { taskId := "a", priority := 10, createdAt := 1 } false),
   .call (.cancel "a" {} 2)]

def queuedAgain : List QueueOperation :=
  [.call (.enqueue { taskId := "b", priority := 5, createdAt := 3 } false),
   .call (.requeue "a" (some 1) none {}), .call (.popNext 4)]

def poppedId : OperationAnswer → Option String
  | .answer (.task t) => t.map ScheduledTask.taskId
  | _ => none

theorem peek_changes_order :
    ¬Coincide (fun _ => "0") ((operations fun _ => "0").run init cancelledFirst) := by
  intro h
  let q := (operations fun _ => "0").run init cancelledFirst
  have hids : (((operations fun _ => "0").outputs q.peekNext.2 queuedAgain).map fun o =>
        poppedId o.2) = [none, none, some "b"] ∧
      (((operations fun _ => "0").outputs q queuedAgain).map fun o => poppedId o.2) =
        [none, none, some "a"] := by
    decide +kernel
  obtain ⟨hpeeked, hleft⟩ := hids
  rw [h.unseen queuedAgain, hleft] at hpeeked
  exact absurd hpeeked (by decide)


end TaskSchedulerQueue
end Queue
end ZeroRuntime
