import Mathlib.Data.Finset.Basic
import Mathlib.Algebra.Order.Ring.Unbundled.Rat
import ZeroRuntime.Lib.Dict
import ZeroRuntime.Lib.LazyHeap
import ZeroRuntime.Queue.Contract

/-!
# ZeroRuntime.Queue.Tasks

The task queue (`core/tasks/scheduler_core/task_scheduler_queue.py`): stored tasks by storage key,
the set of queued keys, and a heap of `(-priority, created_at, sequence, key)`.

An operation answers with the value the method returns, or the exception it raises, and the queue
as it then is: an exception after a change leaves the change in place. `now` is the clock reading
of the call. Clock readings are rationals, compared exactly.
-/

namespace ZeroRuntime
namespace Queue

open Lib Goals

structure ScheduledTask where
  taskId : String
  title : String := ""
  priority : ℤ := 0
  createdAt : ℚ
  status : String := "queued"
  retryCount : ℤ := 0
  maxRetries : ℤ := 0
  payload : Entries := []
  metadata : Entries := []
  lastError : Option String := none
  result : Val := .none
  startedAt : Option ℚ := none
  finishedAt : Option ℚ := none

def statusQueued : String := "queued"
def statusRunning : String := "running"
def statusFinished : String := "finished"
def statusFailed : String := "failed"
def statusCancelled : String := "cancelled"

/-- What the heap orders tasks by: higher priority first, then earlier creation. -/
abbrev Rank := ℤ ×ₗ ℚ

def rankOf (priority : ℤ) (createdAt : ℚ) : Rank := toLex (-priority, createdAt)

def ScheduledTask.rank (t : ScheduledTask) : Rank := rankOf t.priority t.createdAt

inductive AdmissionResult where
  | empty
  | duplicateIdempotent (taskId : String) (matchedIdentity : List (String × String))
  | stored (requeued : Bool) (taskId : String) (identity : List (String × String))
      (conflicts : List LineageConflict)

structure TaskSchedulerQueue where
  heap : LazyHeap Rank String
  sequence : ℕ
  tasks : Dict String ScheduledTask
  queuedIds : Finset String
  lastAdmissionResult : AdmissionResult

/-- What a method answers, and the queue after the call. -/
abbrev QueueM (α : Type) := Except Err α × TaskSchedulerQueue

/-- `queue_session_id(payload) or queue_session_id(metadata)` -/
def ScheduledTask.session (t : ScheduledTask) : Except Err String := do
  let own ← queueSessionId (.dict t.payload)
  if own ≠ "" then pure own else queueSessionId (.dict t.metadata)

def storageKey (task : ScheduledTask) : Except Err String := do
  let sessionId ← task.session
  let lineage ← extractQueueLineage (.dict task.payload)
  let lineageId := (Val.getIn "goal_lineage_id" lineage).text
  let branchId := (Val.getIn "branch_id" lineage).text
  pure (if lineageId ≠ "" ∧ branchId ≠ "" then
      sessionId ++ "::" ++ lineageId ++ "::" ++ branchId ++ "::" ++ task.taskId
    else if sessionId ≠ "" then sessionId ++ "::" ++ task.taskId
    else task.taskId)

/-- The keyword arguments that narrow a look-up by task id. -/
structure KeyScope where
  sessionId : Option String := none
  goalLineageId : Option String := none
  branchId : Option String := none

def KeyScope.cleanSession (scope : KeyScope) : String := Text.strip (scope.sessionId.getD "")

/-- `field and lineage.get(name) != str(field)` does not hold. -/
def scopeAllows (wanted : Option String) (found : Val) : Bool :=
  match wanted with
  | some w => w = "" || found.eq (.str w)
  | none => true

namespace TaskSchedulerQueue

def init : TaskSchedulerQueue := ⟨.empty, 0, .empty, ∅, .empty⟩

/-- Whether the scan of `_resolve_key` takes a stored task. The lineage is read first, so a task
whose lineage cannot be read stops the scan whatever its id. -/
def scanMatches (cleanTaskId : String) (scope : KeyScope) (t : ScheduledTask) :
    Except Err Bool := do
  let lineage ← extractQueueLineage (.dict t.payload)
  if t.taskId ≠ cleanTaskId then pure false
  else
    let sessionOk ← if scope.cleanSession = "" then pure true else do
      let s ← queueSessionId (.dict t.payload)
      pure (s = scope.cleanSession)
    pure (sessionOk && scopeAllows scope.goalLineageId (Val.getIn "goal_lineage_id" lineage) &&
      scopeAllows scope.branchId (Val.getIn "branch_id" lineage))

def scanKeys (cleanTaskId : String) (scope : KeyScope) :
    List (String × ScheduledTask) → Except Err (List String)
  | [] => .ok []
  | (key, t) :: es => do
    let taken ← scanMatches cleanTaskId scope t
    let rest ← scanKeys cleanTaskId scope es
    pure (if taken then key :: rest else rest)

/-- The key of the only match. -/
def uniqueKey : List String → Option String
  | [key] => some key
  | _ => none

def resolveKey (q : TaskSchedulerQueue) (taskId : String) (scope : KeyScope) :
    Except Err (Option String) :=
  let clean := Text.strip taskId
  let sessionKey := scope.cleanSession ++ "::" ++ clean
  if scope.cleanSession ≠ "" ∧ q.tasks.contains sessionKey ∧ scope.goalLineageId.getD "" = "" ∧
      scope.branchId.getD "" = "" then .ok (some sessionKey)
  else if q.tasks.contains clean then .ok (some clean)
  else do
    let keys ← scanKeys clean scope q.tasks.entries
    pure (uniqueKey keys)

def resolved (q : TaskSchedulerQueue) (taskId : String) (scope : KeyScope) :
    Except Err (Option (String × ScheduledTask)) := do
  let key ← q.resolveKey taskId scope
  pure (key.bind fun key => (q.tasks.get? key).map fun task => (key, task))

theorem resolved_eq_some {q : TaskSchedulerQueue} {taskId key : String} {scope : KeyScope} {t : ScheduledTask}
    (h : q.resolved taskId scope = .ok (some (key, t))) :
    q.resolveKey taskId scope = .ok (some key) ∧ q.tasks.get? key = some t := by
  unfold resolved at h
  obtain ⟨found, hfound, h⟩ := bind_eq_ok.mp h
  obtain ⟨key', rfl, hget⟩ := Option.bind_eq_some_iff.mp (Except.ok.inj h)
  obtain ⟨t', ht', hpair⟩ := Option.map_eq_some_iff.mp hget
  cases hpair
  exact ⟨hfound, ht'⟩

/-- The common opening of the methods that take a task id: resolve the key, fetch the task. -/
def withTask (q : TaskSchedulerQueue) (taskId : String) (scope : KeyScope)
    (body : String → ScheduledTask → QueueM Bool) : QueueM Bool :=
  match q.resolved taskId scope with
  | .error e => (.error e, q)
  | .ok none => (.ok false, q)
  | .ok (some (key, task)) => body key task

def getTask (q : TaskSchedulerQueue) (taskId : String) (scope : KeyScope) :
    Except Err (Option ScheduledTask) := do
  let found ← q.resolved taskId scope
  pure (found.map Prod.snd)

/-- `heappush` of an entry for `key` under the next sequence number, and `_queued_ids.add(key)`. -/
def pushEntry (q : TaskSchedulerQueue) (key : String) (rank : Rank) : TaskSchedulerQueue :=
  { q with heap := q.heap.push ⟨rank, q.sequence, key⟩, sequence := q.sequence + 1,
           queuedIds := insert key q.queuedIds }

def setTask (q : TaskSchedulerQueue) (key : String) (t : ScheduledTask) : TaskSchedulerQueue :=
  { q with tasks := q.tasks.set key t }

def discard (q : TaskSchedulerQueue) (key : String) : TaskSchedulerQueue :=
  { q with queuedIds := q.queuedIds.erase key }

section Enqueue

variable (digest : Val → String)

def otherPayloads (q : TaskSchedulerQueue) (key : String) : List Val :=
  (q.tasks.entries.filter fun e => e.1 ≠ key).map fun e => .dict e.2.payload

/-- The answer `duplicate_idempotent` for a task that is stored already. -/
def answerDuplicate (q : TaskSchedulerQueue) (task existing : ScheduledTask) : QueueM Bool :=
  match queueIdentity (.dict existing.payload) with
  | .error e => (.error e, q)
  | .ok identity =>
    let matched := if identity.isEmpty then [("task_id", task.taskId)] else identity
    (.ok false, { q with lastAdmissionResult := .duplicateIdempotent task.taskId matched })

/-- The task as it is stored: what an earlier run left behind is cleared. -/
def cleared (t : ScheduledTask) : ScheduledTask :=
  { t with startedAt := none, finishedAt := none, result := .none, lastError := none }

/-- Storing and queueing an admitted task, then recording the admission. -/
def storeTask (q : TaskSchedulerQueue) (key : String) (stored : ScheduledTask) (requeued : Bool)
    (conflicts : List LineageConflict) : QueueM Bool :=
  let q := (q.setTask key (cleared stored)).pushEntry key stored.rank
  match queueIdentity (.dict stored.payload) with
  | .error e => (.error e, q)
  | .ok identity =>
    (.ok true,
      { q with lastAdmissionResult := .stored requeued stored.taskId identity conflicts })

/-- The non-lineage fields of the new payload, laid over the sealed one. -/
def overlay (sealedPayload payload : Entries) : Entries :=
  payload.foldl (fun acc e => if e.1 ∈ queueLineageFields then acc else Val.put e.1 e.2 acc)
    sealedPayload

/-- Overwriting a stored task: its lineage stays, whatever the new task says. -/
def overwriteTask (q : TaskSchedulerQueue) (key : String) (task existing : ScheduledTask) :
    QueueM Bool :=
  let q := q.discard key
  match mergeQueueLineage existing.payload (.dict task.payload) true with
  | .error e => (.error e, q)
  | .ok (sealedPayload, conflicts) =>
    q.storeTask key { task with payload := overlay sealedPayload task.payload } true conflicts

def enqueue (q : TaskSchedulerQueue) (task : ScheduledTask) (overwrite : Bool) : QueueM Bool :=
  match storageKey task with
  | .error e => (.error e, q)
  | .ok key =>
    match duplicateIdentity digest (.dict task.payload) (q.otherPayloads key) with
    | .error e => (.error e, q)
    | .ok (some (_, matched)) =>
      (.ok false, { q with lastAdmissionResult := .duplicateIdempotent task.taskId matched })
    | .ok none =>
      match q.tasks.get? key with
      | none => q.storeTask key task false []
      | some existing =>
        if overwrite then q.overwriteTask key task existing else q.answerDuplicate task existing

/-- The key `enqueue` stores and queues the task under, when it admits it. -/
def admittedKey (q : TaskSchedulerQueue) (task : ScheduledTask) (overwrite : Bool) :
    Option String :=
  match storageKey task with
  | .error _ => none
  | .ok key =>
    match duplicateIdentity digest (.dict task.payload) (q.otherPayloads key) with
    | .ok none => if q.tasks.contains key && !overwrite then none else some key
    | _ => none

end Enqueue

/-- The loop of `pop_next`: entries of keys that are not queued are dropped. -/
def popFrom (tasks : Dict String ScheduledTask) :
    List (HeapEntry Rank String) → Finset String →
      Option (String × ScheduledTask) × List (HeapEntry Rank String) × Finset String
  | [], queued => (none, [], queued)
  | e :: es, queued =>
    if e.key ∉ queued then popFrom tasks es queued
    else match tasks.get? e.key with
      | none => popFrom tasks es (queued.erase e.key)
      | some t => (some (e.key, t), es, queued.erase e.key)

theorem popFrom_suffix (tasks : Dict String ScheduledTask) (es : List (HeapEntry Rank String))
    (queued : Finset String) : (popFrom tasks es queued).2.1 <:+ es := by
  induction es generalizing queued with
  | nil => exact List.suffix_refl _
  | cons e es ih =>
    simp only [popFrom]
    split
    · exact (ih queued).trans (List.suffix_cons e es)
    · split
      · exact (ih _).trans (List.suffix_cons e es)
      · exact List.suffix_cons e es

/-- A task as `pop_next` leaves it. -/
def started (now : ℚ) (t : ScheduledTask) : ScheduledTask :=
  { t with status := statusRunning, startedAt := some now }

/-- The first entry of a queued key, with the task stored under it. -/
def nextEntry (q : TaskSchedulerQueue) : Option (String × ScheduledTask) :=
  (popFrom q.tasks q.heap.entries q.queuedIds).1

/-- The queue once the loop of `pop_next` has run. -/
def afterPop (q : TaskSchedulerQueue) : TaskSchedulerQueue :=
  { q with heap := q.heap.dropTo (popFrom q.tasks q.heap.entries q.queuedIds).2.1
             (popFrom_suffix _ _ _)
           queuedIds := (popFrom q.tasks q.heap.entries q.queuedIds).2.2 }

/-- `pop_next`; the key comes with the task, since two stored tasks can share a task id. -/
def popEntry (q : TaskSchedulerQueue) (now : ℚ) :
    Option (String × ScheduledTask) × TaskSchedulerQueue :=
  match q.nextEntry with
  | none => (none, q.afterPop)
  | some (key, t) => (some (key, started now t), q.afterPop.setTask key (started now t))

def popNext (q : TaskSchedulerQueue) (now : ℚ) : Option ScheduledTask × TaskSchedulerQueue :=
  ((q.popEntry now).1.map Prod.snd, (q.popEntry now).2)

/-- The loop of `peek_next`: it drops what `pop_next` would skip and keeps the first live entry. -/
def peekFrom (tasks : Dict String ScheduledTask) :
    List (HeapEntry Rank String) → Finset String →
      Option (String × ScheduledTask) × List (HeapEntry Rank String) × Finset String
  | [], queued => (none, [], queued)
  | e :: es, queued =>
    if e.key ∉ queued then peekFrom tasks es queued
    else match tasks.get? e.key with
      | none => peekFrom tasks es (queued.erase e.key)
      | some t => (some (e.key, t), e :: es, queued)

theorem peekFrom_suffix (tasks : Dict String ScheduledTask) (es : List (HeapEntry Rank String))
    (queued : Finset String) : (peekFrom tasks es queued).2.1 <:+ es := by
  induction es generalizing queued with
  | nil => exact List.suffix_refl _
  | cons e es ih =>
    simp only [peekFrom]
    split
    · exact (ih queued).trans (List.suffix_cons e es)
    · split
      · exact (ih _).trans (List.suffix_cons e es)
      · exact List.suffix_refl _

def peekNext (q : TaskSchedulerQueue) : Option ScheduledTask × TaskSchedulerQueue :=
  let r := peekFrom q.tasks q.heap.entries q.queuedIds
  (r.1.map Prod.snd,
    { q with heap := q.heap.dropTo r.2.1 (peekFrom_suffix _ _ _), queuedIds := r.2.2 })

/-- A task as `requeue` leaves it. -/
def requeuedTask (t : ScheduledTask) (priority : Option ℤ) (error : Option String) :
    ScheduledTask :=
  { t with status := statusQueued, startedAt := none, finishedAt := none, result := .none,
           lastError := error.or t.lastError, priority := priority.getD t.priority }

def requeue (q : TaskSchedulerQueue) (taskId : String) (priority : Option ℤ)
    (error : Option String) (scope : KeyScope) : QueueM Bool :=
  q.withTask taskId scope fun key task =>
    if key ∈ q.queuedIds then (.ok false, q)
    else
      let task := requeuedTask task priority error
      (.ok true, (q.setTask key task).pushEntry key task.rank)

def cancel (q : TaskSchedulerQueue) (taskId : String) (scope : KeyScope) (now : ℚ) :
    QueueM Bool :=
  q.withTask taskId scope fun key task =>
    (.ok true,
      (q.discard key).setTask key { task with status := statusCancelled, finishedAt := some now })

structure TaskCompletionAuthority where
  taskId : String
  packageId : String
  sessionId : String
deriving DecidableEq

/-- `is_task_completion_authority` without a package; `issued` says whether the authority is the
very object the boundary registered, and anything else is no authority. -/
def isTaskCompletionAuthority (value : Option (TaskCompletionAuthority × Bool)) (taskId : String)
    (sessionId : Option String) : Bool :=
  match value with
  | none => false
  | some (a, issued) => issued && a.taskId = taskId &&
      (match sessionId with
        | none => true
        | some s => a.sessionId = s)

/-- Whether `mark_finished` accepts the authority for the stored task. -/
def acceptsAuthority (authority : Option (TaskCompletionAuthority × Bool)) (taskId : String)
    (task : ScheduledTask) : Except Err Bool := do
  let sessionId ← task.session
  pure (isTaskCompletionAuthority authority taskId
    (if sessionId ≠ "" then some sessionId else none))

def markFinished (q : TaskSchedulerQueue) (taskId : String) (result : Val)
    (authority : Option (TaskCompletionAuthority × Bool)) (scope : KeyScope) (now : ℚ) :
    QueueM Bool :=
  q.withTask taskId scope fun key task =>
    match acceptsAuthority authority taskId task with
    | .error e => (.error e, q)
    | .ok false => (.error (.permissionError "task_completion_authority_required"), q)
    | .ok true =>
      (.ok true, (q.discard key).setTask key
        { task with status := statusFinished, result := result, finishedAt := some now })

def markFailed (q : TaskSchedulerQueue) (taskId error : String) (scope : KeyScope) (now : ℚ) :
    QueueM Bool :=
  q.withTask taskId scope fun key task =>
    (.ok true, (q.discard key).setTask key
      { task with status := statusFailed, lastError := some error, finishedAt := some now })

def incrementRetry (q : TaskSchedulerQueue) (taskId : String) (scope : KeyScope) : QueueM Bool :=
  q.withTask taskId scope fun key task =>
    (.ok true, q.setTask key { task with retryCount := task.retryCount + 1 })

def updatePriority (q : TaskSchedulerQueue) (taskId : String) (priority : ℤ) (scope : KeyScope) :
    QueueM Bool :=
  q.withTask taskId scope fun key task =>
    let task := { task with priority := priority }
    let q := q.setTask key task
    (.ok true, if key ∈ q.queuedIds then q.pushEntry key task.rank else q)

def remove (q : TaskSchedulerQueue) (taskId : String) (scope : KeyScope) : QueueM Bool :=
  match q.resolveKey taskId scope with
  | .error e => (.error e, q)
  | .ok none => (.ok false, q)
  | .ok (some key) =>
    (.ok (q.tasks.contains key), { q.discard key with tasks := q.tasks.erase key })

end TaskSchedulerQueue
end Queue
end ZeroRuntime
