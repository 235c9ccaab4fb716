import ZeroRuntime.Lib.Machine
import ZeroRuntime.Queue.Tasks

/-!
# ZeroRuntime.Queue.Order

In what order the task queue hands out tasks.

`popNext` takes the first heap entry whose key is queued. A key that is queued again, or whose
priority is changed while it is queued, gets a second entry and keeps the first, so the order is
that of the current ranks as long as no entry is pushed behind an older one of its own key
(`KeepsPlace`). `Ordered` is the invariant: every queued key is stored, has an entry of its current
rank, and has no entry that ranks before it.

* `ordered_call`: a call that keeps places keeps `Ordered`.
* `guarded_priorityOrder`: in every run of such calls, `popNext` returns a task of highest
  priority, the earliest created among those.
* `stale_entry_served`: lowering the priority of a queued task does not move it behind.
-/

namespace ZeroRuntime
namespace Queue

open Lib

inductive QueueCall where
  | enqueue (task : ScheduledTask) (overwrite : Bool)
  | popNext (now : ℚ)
  | peekNext
  | requeue (taskId : String) (priority : Option ℤ) (error : Option String) (scope : KeyScope)
  | cancel (taskId : String) (scope : KeyScope) (now : ℚ)
  | markFinished (taskId : String) (result : Val)
      (authority : Option (TaskSchedulerQueue.TaskCompletionAuthority × Bool)) (scope : KeyScope)
      (now : ℚ)
  | markFailed (taskId error : String) (scope : KeyScope) (now : ℚ)
  | incrementRetry (taskId : String) (scope : KeyScope)
  | updatePriority (taskId : String) (priority : ℤ) (scope : KeyScope)
  | remove (taskId : String) (scope : KeyScope)

inductive QueueAnswer where
  | done (r : Except Err Bool)
  | task (t : Option ScheduledTask)

namespace TaskSchedulerQueue

section Calls

variable (digest : Val → String)

def call (q : TaskSchedulerQueue) : QueueCall → QueueAnswer × TaskSchedulerQueue
  | .enqueue task overwrite => ((q.enqueue digest task overwrite).map .done id)
  | .popNext now => (q.popNext now).map .task id
  | .peekNext => q.peekNext.map .task id
  | .requeue taskId priority error scope => (q.requeue taskId priority error scope).map .done id
  | .cancel taskId scope now => (q.cancel taskId scope now).map .done id
  | .markFinished taskId result authority scope now =>
    (q.markFinished taskId result authority scope now).map .done id
  | .markFailed taskId error scope now => (q.markFailed taskId error scope now).map .done id
  | .incrementRetry taskId scope => (q.incrementRetry taskId scope).map .done id
  | .updatePriority taskId priority scope => (q.updatePriority taskId priority scope).map .done id
  | .remove taskId scope => (q.remove taskId scope).map .done id

def machine : Machine TaskSchedulerQueue QueueCall QueueAnswer := ⟨call digest⟩

def target (q : TaskSchedulerQueue) (taskId : String) (scope : KeyScope) :
    Option (String × ScheduledTask) :=
  match q.resolved taskId scope with
  | .ok found => found
  | .error _ => none

/-- The call pushes no entry behind an entry of the same key that is still in the heap. -/
def KeepsPlace (q : TaskSchedulerQueue) : QueueCall → Prop
  | .enqueue task overwrite => ∀ key ∈ q.admittedKey digest task overwrite,
      q.heap.Fronts key task.rank
  | .requeue taskId priority _ scope => ∀ f ∈ q.target taskId scope, f.1 ∉ q.queuedIds →
      q.heap.Fronts f.1 (rankOf (priority.getD f.2.priority) f.2.createdAt)
  | .updatePriority taskId priority scope => ∀ f ∈ q.target taskId scope, f.1 ∈ q.queuedIds →
      q.heap.Fronts f.1 (rankOf priority f.2.createdAt)
  | _ => True

instance (q : TaskSchedulerQueue) : (c : QueueCall) → Decidable (KeepsPlace digest q c)
  | .enqueue task overwrite => inferInstanceAs (Decidable (∀ key ∈ q.admittedKey digest task
      overwrite, q.heap.Fronts key task.rank))
  | .requeue taskId priority _ scope => inferInstanceAs (Decidable (∀ f ∈ q.target taskId scope,
      f.1 ∉ q.queuedIds → q.heap.Fronts f.1 (rankOf (priority.getD f.2.priority) f.2.createdAt)))
  | .updatePriority taskId priority scope => inferInstanceAs (Decidable (∀ f ∈ q.target taskId
      scope, f.1 ∈ q.queuedIds → q.heap.Fronts f.1 (rankOf priority f.2.createdAt)))
  | .popNext _ | .peekNext | .cancel .. | .markFinished .. | .markFailed .. | .incrementRetry ..
  | .remove .. => .isTrue trivial

end Calls

structure Ordered (q : TaskSchedulerQueue) : Prop where
  stored : ∀ k ∈ q.queuedIds, ∃ t, q.tasks.get? k = some t
  current : ∀ k ∈ q.queuedIds, ∀ t, q.tasks.get? k = some t → q.heap.Has k t.rank
  fronts : ∀ k ∈ q.queuedIds, ∀ t, q.tasks.get? k = some t → q.heap.Fronts k t.rank

theorem ordered_init : Ordered init := by
  constructor <;> intro k hk <;> exact absurd hk (Finset.notMem_empty k)

section Primitives

variable {q : TaskSchedulerQueue}

theorem Ordered.discard (h : Ordered q) (key : String) : Ordered (q.discard key) :=
  ⟨fun k hk => h.stored k (Finset.mem_of_mem_erase hk),
   fun k hk => h.current k (Finset.mem_of_mem_erase hk),
   fun k hk => h.fronts k (Finset.mem_of_mem_erase hk)⟩

variable {key : String} {t : ScheduledTask}

theorem Ordered.setTask (h : Ordered q)
    (ht : key ∈ q.queuedIds → q.heap.Has key t.rank ∧ q.heap.Fronts key t.rank) :
    Ordered (q.setTask key t) := by
  refine ⟨fun k hk => ?_, fun k hk t' ht' => ?_, fun k hk t' ht' => ?_⟩
  · obtain ⟨t', ht'⟩ := h.stored k hk
    by_cases hkey : k = key
    · exact ⟨t, by simp [TaskSchedulerQueue.setTask, hkey]⟩
    · exact ⟨t', by simpa [TaskSchedulerQueue.setTask, hkey] using ht'⟩
  · by_cases hkey : k = key
    · subst hkey
      obtain rfl : t = t' := by simpa [TaskSchedulerQueue.setTask] using ht'
      exact (ht hk).1
    · exact h.current k hk t' (by simpa [TaskSchedulerQueue.setTask, hkey] using ht')
  · by_cases hkey : k = key
    · subst hkey
      obtain rfl : t = t' := by simpa [TaskSchedulerQueue.setTask] using ht'
      exact (ht hk).2
    · exact h.fronts k hk t' (by simpa [TaskSchedulerQueue.setTask, hkey] using ht')

theorem Ordered.store (h : Ordered q) (hf : q.heap.Fronts key t.rank) :
    Ordered ((q.setTask key t).pushEntry key t.rank) := by
  have old : ∀ k t', k ∈ insert key q.queuedIds → k ≠ key →
      (q.tasks.set key t).get? k = some t' → k ∈ q.queuedIds ∧ q.tasks.get? k = some t' := by
    intro k t' hk hne ht'
    exact ⟨(Finset.mem_insert.mp hk).resolve_left hne, by simpa [hne] using ht'⟩
  refine ⟨fun k hk => ?_, fun k hk t' ht' => ?_, fun k hk t' ht' => ?_⟩
  · by_cases hkey : k = key
    · exact ⟨t, by simp [pushEntry, TaskSchedulerQueue.setTask, hkey]⟩
    · obtain ⟨t', ht'⟩ := h.stored k ((Finset.mem_insert.mp hk).resolve_left hkey)
      exact ⟨t', by simpa [pushEntry, TaskSchedulerQueue.setTask, hkey] using ht'⟩
  · by_cases hkey : k = key
    · subst hkey
      obtain rfl : t = t' := by simpa [pushEntry, TaskSchedulerQueue.setTask] using ht'
      exact LazyHeap.has_push_self q.heap ⟨t.rank, q.sequence, k⟩
    · obtain ⟨hk, ht'⟩ := old k t' hk hkey ht'
      exact (h.current k hk t' ht').push _
  · by_cases hkey : k = key
    · subst hkey
      obtain rfl : t = t' := by simpa [pushEntry, TaskSchedulerQueue.setTask] using ht'
      exact LazyHeap.Fronts.push_self (e := ⟨t.rank, q.sequence, k⟩) hf
    · obtain ⟨hk, ht'⟩ := old k t' hk hkey ht'
      exact (h.fronts k hk t' ht').push_of_ne (Ne.symm hkey)

theorem Ordered.withTask (h : Ordered q) {taskId : String} {scope : KeyScope}
    {body : String → ScheduledTask → QueueM Bool}
    (hb : ∀ key t, q.target taskId scope = some (key, t) → Ordered (body key t).2) :
    Ordered (q.withTask taskId scope body).2 := by
  unfold TaskSchedulerQueue.withTask
  split
  · exact h
  · exact h
  · rename_i key t hr
    exact hb key t (by simp [target, hr])

theorem target_stored {taskId : String} {scope : KeyScope}
    (h : q.target taskId scope = some (key, t)) : q.tasks.get? key = some t := by
  unfold target at h
  split at h
  · rename_i hr
    exact (resolved_eq_some (hr.trans (congrArg Except.ok h))).2
  · cases h

end Primitives

/-! ## Taking tasks out -/

section Take

variable {tasks : Dict String ScheduledTask}

variable {queued : Finset String}

variable {es : List (HeapEntry Rank String)}

theorem popFrom_none (hst : ∀ k ∈ queued, ∃ t, tasks.get? k = some t)
    (h : (popFrom tasks es queued).1 = none) :
    (popFrom tasks es queued).2.2 = queued ∧ ∀ e ∈ es, e.key ∉ queued := by
  induction es with
  | nil => exact ⟨rfl, by simp⟩
  | cons e es ih =>
    simp only [popFrom] at h ⊢
    split at h
    · rename_i hne
      obtain ⟨hq, hes⟩ := ih h
      rw [if_pos hne]
      exact ⟨hq, fun x hx => (List.mem_cons.mp hx).elim (fun hx => hx ▸ hne) (hes x)⟩
    · rename_i hq
      obtain ⟨t, ht⟩ := hst e.key (not_not.mp hq)
      rw [ht] at h
      cases h

/-- What `popFrom` returns is the first entry of a queued key; the entries before it are of keys
that are not queued. -/
theorem popFrom_some {key : String} {t : ScheduledTask}
    (hst : ∀ k ∈ queued, ∃ t, tasks.get? k = some t)
    (h : (popFrom tasks es queued).1 = some (key, t)) :
    (popFrom tasks es queued).2.2 = queued.erase key ∧ key ∈ queued ∧ tasks.get? key = some t ∧
      ∃ dropped e, es = dropped ++ e :: (popFrom tasks es queued).2.1 ∧ e.key = key ∧
        ∀ x ∈ dropped, x.key ∉ queued := by
  induction es with
  | nil => cases h
  | cons e es ih =>
    simp only [popFrom] at h ⊢
    split at h
    · rename_i hne
      obtain ⟨hq', hq, ht, dropped, e', hes, hkey, hd⟩ := ih h
      rw [if_pos hne]
      refine ⟨hq', hq, ht, e :: dropped, e', by rw [List.cons_append, ← hes], hkey, ?_⟩
      intro x hx
      rcases List.mem_cons.mp hx with rfl | hx
      · exact hne
      · exact hd x hx
    · rename_i hq
      obtain ⟨t', ht'⟩ := hst e.key (not_not.mp hq)
      rw [ht'] at h
      obtain ⟨rfl, rfl⟩ := Prod.mk.inj (Option.some.inj h)
      rw [if_neg hq, ht']
      exact ⟨rfl, not_not.mp hq, rfl, [], e, rfl, rfl, by simp⟩

theorem peekFrom_spec (es : List (HeapEntry Rank String))
    (hst : ∀ k ∈ queued, ∃ t, tasks.get? k = some t) :
    (peekFrom tasks es queued).2.2 = queued ∧
      ∀ e ∈ es, e.key ∈ queued → e ∈ (peekFrom tasks es queued).2.1 := by
  induction es with
  | nil => exact ⟨rfl, by simp⟩
  | cons e es ih =>
    simp only [peekFrom]
    split
    · rename_i hne
      refine ⟨ih.1, fun x hx hxq => ?_⟩
      rcases List.mem_cons.mp hx with rfl | hx
      · exact absurd hxq hne
      · exact ih.2 x hx hxq
    · rename_i hq
      obtain ⟨t, ht⟩ := hst e.key (not_not.mp hq)
      rw [ht]
      exact ⟨rfl, fun x hx _ => hx⟩

end Take

variable {q : TaskSchedulerQueue}

theorem Ordered.nextEntry (h : Ordered q) {key : String} {t : ScheduledTask}
    (hn : q.nextEntry = some (key, t)) :
    q.afterPop.queuedIds = q.queuedIds.erase key ∧ key ∈ q.queuedIds ∧
      q.tasks.get? key = some t ∧
      ∃ dropped e, q.heap.entries = dropped ++ e :: q.afterPop.heap.entries ∧ e.key = key ∧
        ∀ x ∈ dropped, x.key ∉ q.queuedIds :=
  popFrom_some h.stored hn

/-- A queued key other than the one taken keeps its entry. -/
theorem Ordered.afterPop (h : Ordered q) : Ordered q.afterPop := by
  cases hn : q.nextEntry with
  | none =>
    obtain ⟨hq, hdead⟩ := popFrom_none h.stored hn
    refine ⟨fun k hk => h.stored k (hq ▸ hk), fun k hk t ht => ?_, fun k hk t ht => ?_⟩
    · obtain ⟨e, he, rfl, -⟩ := h.current k (hq ▸ hk) t ht
      exact absurd (hq ▸ hk) (hdead e he)
    · exact (h.fronts k (hq ▸ hk) t ht).dropTo (popFrom_suffix _ _ _)
  | some f =>
    obtain ⟨key, t⟩ := f
    obtain ⟨hq, -, -, dropped, e, hes, rfl, hdead⟩ := h.nextEntry hn
    have old : ∀ k ∈ q.afterPop.queuedIds, k ∈ q.queuedIds :=
      fun k hk => Finset.mem_of_mem_erase (hq ▸ hk)
    refine ⟨fun k hk => h.stored k (old k hk), fun k hk t' ht' => ?_, fun k hk t' ht' => ?_⟩
    · obtain ⟨x, hx, hxk, hr⟩ := h.current k (old k hk) t' ht'
      refine ⟨x, ?_, hxk, hr⟩
      rw [hes] at hx
      rcases List.mem_append.mp hx with hx | hx
      · exact absurd (hxk ▸ old k hk) (hdead x hx)
      · rcases List.mem_cons.mp hx with rfl | hx
        · exact absurd hxk.symm (Finset.ne_of_mem_erase (hq ▸ hk))
        · exact hx
    · exact (h.fronts k (old k hk) t' ht').dropTo (popFrom_suffix _ _ _)

theorem Ordered.popEntry (h : Ordered q) (now : ℚ) : Ordered (q.popEntry now).2 := by
  unfold TaskSchedulerQueue.popEntry
  split
  · exact h.afterPop
  · rename_i key t hn
    refine h.afterPop.setTask fun hmem => ?_
    rw [(h.nextEntry hn).1] at hmem
    exact absurd rfl (Finset.ne_of_mem_erase hmem)

theorem Ordered.peekNext (h : Ordered q) : Ordered q.peekNext.2 := by
  obtain ⟨hq, hkeep⟩ := peekFrom_spec q.heap.entries h.stored
  unfold TaskSchedulerQueue.peekNext
  refine ⟨fun k hk => h.stored k (hq ▸ hk), fun k hk t ht => ?_, fun k hk t ht => ?_⟩
  · obtain ⟨e, he, hek, hr⟩ := h.current k (hq ▸ hk) t ht
    exact ⟨e, hkeep e he (hek ▸ hq ▸ hk), hek, hr⟩
  · exact (h.fronts k (hq ▸ hk) t ht).dropTo (peekFrom_suffix _ _ _)

/-! ## Every call -/

section Step

variable {digest : Val → String} {q : TaskSchedulerQueue}

variable {key : String}

theorem Ordered.storeTask (h : Ordered q) {stored : ScheduledTask} {requeued : Bool}
    {conflicts : List LineageConflict} (hf : q.heap.Fronts key stored.rank) :
    Ordered (q.storeTask key stored requeued conflicts).2 := by
  have hs : Ordered ((q.setTask key (cleared stored)).pushEntry key stored.rank) :=
    h.store (t := cleared stored) hf
  unfold TaskSchedulerQueue.storeTask
  split
  · exact hs
  · exact ⟨hs.stored, hs.current, hs.fronts⟩

variable {task : ScheduledTask}

variable {existing : ScheduledTask}

theorem Ordered.overwriteTask (h : Ordered q) (hf : q.heap.Fronts key task.rank) :
    Ordered (q.overwriteTask key task existing).2 := by
  unfold TaskSchedulerQueue.overwriteTask
  split
  · exact h.discard key
  · exact (h.discard key).storeTask hf

theorem Ordered.answerDuplicate (h : Ordered q) : Ordered (q.answerDuplicate task existing).2 := by
  unfold TaskSchedulerQueue.answerDuplicate
  split
  · exact h
  · exact ⟨h.stored, h.current, h.fronts⟩

theorem admittedKey_eq {overwrite : Bool} (hkey : storageKey task = .ok key)
    (hdup : duplicateIdentity digest (.dict task.payload) (q.otherPayloads key) = .ok none)
    (ho : q.tasks.contains key = false ∨ overwrite = true) :
    q.admittedKey digest task overwrite = some key := by
  unfold admittedKey
  rw [hkey]
  simp only [hdup]
  rcases ho with ho | ho
  · rw [ho]; rfl
  · rw [ho, Bool.not_true, Bool.and_false]; rfl

theorem Ordered.enqueue (h : Ordered q) {overwrite : Bool}
    (hk : ∀ key ∈ q.admittedKey digest task overwrite, q.heap.Fronts key task.rank) :
    Ordered (q.enqueue digest task overwrite).2 := by
  unfold TaskSchedulerQueue.enqueue
  cases hkey : storageKey task with
  | error e => exact h
  | ok key =>
    simp only
    cases hdup : duplicateIdentity digest (.dict task.payload) (q.otherPayloads key) with
    | error e => exact h
    | ok found =>
      cases found with
      | some m => exact ⟨h.stored, h.current, h.fronts⟩
      | none =>
        simp only
        have hf (ho : q.tasks.contains key = false ∨ overwrite = true) :
            q.heap.Fronts key task.rank := hk key (admittedKey_eq hkey hdup ho)
        split
        · rename_i hold
          exact h.storeTask (hf (.inl (by simp [Dict.contains, hold])))
        · split
          · rename_i how
            exact h.overwriteTask (hf (.inr how))
          · exact h.answerDuplicate

variable {taskId : String} {scope : KeyScope}

theorem Ordered.requeue (h : Ordered q) {priority : Option ℤ} {error : Option String}
    (hk : ∀ f ∈ q.target taskId scope, f.1 ∉ q.queuedIds →
      q.heap.Fronts f.1 (rankOf (priority.getD f.2.priority) f.2.createdAt)) :
    Ordered (q.requeue taskId priority error scope).2 := by
  refine h.withTask fun key t ht => ?_
  split
  · exact h
  · rename_i hq
    exact h.store (t := requeuedTask t priority error) (hk (key, t) ht hq)

theorem Ordered.updatePriority (h : Ordered q) {priority : ℤ}
    (hk : ∀ f ∈ q.target taskId scope, f.1 ∈ q.queuedIds →
      q.heap.Fronts f.1 (rankOf priority f.2.createdAt)) :
    Ordered (q.updatePriority taskId priority scope).2 := by
  refine h.withTask fun key t ht => ?_
  simp only
  split
  · rename_i hq
    exact h.store (t := { t with priority := priority }) (hk (key, t) ht hq)
  · rename_i hq
    exact h.setTask fun hq' => absurd hq' hq

/-- Ending a task: its key leaves the queue, whatever is then stored for it. -/
theorem Ordered.endTask (h : Ordered q) (key : String) (t : ScheduledTask) :
    Ordered ((q.discard key).setTask key t) :=
  (h.discard key).setTask fun hq => absurd rfl (Finset.ne_of_mem_erase hq)

theorem Ordered.remove (h : Ordered q) : Ordered (q.remove taskId scope).2 := by
  unfold TaskSchedulerQueue.remove
  split
  · exact h
  · exact h
  · rename_i key _
    have hne : ∀ k ∈ q.queuedIds.erase key, k ≠ key := fun k hk => Finset.ne_of_mem_erase hk
    refine ⟨fun k hk => ?_, fun k hk t ht => ?_, fun k hk t ht => ?_⟩
    · obtain ⟨t, ht⟩ := h.stored k (Finset.mem_of_mem_erase hk)
      exact ⟨t, by simpa [hne k hk] using ht⟩
    · exact h.current k (Finset.mem_of_mem_erase hk) t (by simpa [hne k hk] using ht)
    · exact h.fronts k (Finset.mem_of_mem_erase hk) t (by simpa [hne k hk] using ht)

variable {now : ℚ}

theorem Ordered.markFinished (h : Ordered q) {result : Val}
    {authority : Option (TaskCompletionAuthority × Bool)} :
    Ordered (q.markFinished taskId result authority scope now).2 := by
  refine h.withTask fun key t _ => ?_
  split
  · exact h
  · exact h
  · exact h.endTask key _

theorem Ordered.cancel (h : Ordered q) : Ordered (q.cancel taskId scope now).2 := by
  unfold TaskSchedulerQueue.cancel
  exact h.withTask fun key t _ => h.endTask key _

theorem Ordered.markFailed (h : Ordered q) {error : String} :
    Ordered (q.markFailed taskId error scope now).2 := by
  unfold TaskSchedulerQueue.markFailed
  exact h.withTask fun key t _ => h.endTask key _

theorem Ordered.incrementRetry (h : Ordered q) : Ordered (q.incrementRetry taskId scope).2 := by
  refine h.withTask fun key t ht => h.setTask fun hq => ?_
  exact ⟨h.current key hq t (target_stored ht), h.fronts key hq t (target_stored ht)⟩

/-- A call that pushes nothing behind an entry of its own key keeps the order. -/
theorem ordered_call (h : Ordered q) (c : QueueCall) (hk : KeepsPlace digest q c) :
    Ordered (call digest q c).2 := by
  cases c <;> simp only [call, Prod.map_snd, id_eq]
  case enqueue task overwrite => exact h.enqueue hk
  case popNext now => exact h.popEntry now
  case peekNext => exact h.peekNext
  case requeue taskId priority error scope => exact h.requeue hk
  case cancel taskId scope now => exact h.cancel
  case markFinished taskId result authority scope now => exact h.markFinished
  case markFailed taskId error scope now => exact h.markFailed
  case incrementRetry taskId scope => exact h.incrementRetry
  case updatePriority taskId priority scope => exact h.updatePriority hk
  case remove taskId scope => exact h.remove

end Step

/-! ## The order of a run -/

/-- No queued task has a higher priority than the one `popNext` returns, and none of equal priority
was created earlier. -/
def PriorityOrder (q : TaskSchedulerQueue) : Prop :=
  ∀ now t, (q.popNext now).1 = some t → ∀ k ∈ q.queuedIds, ∀ t', q.tasks.get? k = some t' →
    ¬ t.priority < t'.priority ∧ (t'.priority = t.priority → ¬ t'.createdAt < t.createdAt)

theorem le_rankOf {p p' : ℤ} {c c' : ℚ} (h : rankOf p c ≤ rankOf p' c') :
    ¬ p < p' ∧ (p' = p → ¬ c' < c) := by
  rcases Prod.Lex.le_iff.mp h with h | ⟨h, hc⟩
  · have hp : -p < -p' := h
    exact ⟨by omega, fun he => by omega⟩
  · have hp : -p = -p' := h
    exact ⟨by omega, fun _ => not_lt.mpr hc⟩

theorem Ordered.priorityOrder (h : Ordered q) : PriorityOrder q := by
  intro now t ht k hk t' ht'
  unfold popNext TaskSchedulerQueue.popEntry at ht
  cases hn : q.nextEntry with
  | none => rw [hn] at ht; cases ht
  | some f =>
    obtain ⟨key, s⟩ := f
    obtain rfl : started now s = t := by simpa [hn] using ht
    obtain ⟨-, hq, hs, dropped, e, hes, hkey, hdead⟩ := h.nextEntry hn
    have hsorted : (e :: q.afterPop.heap.entries).Pairwise HeapEntry.Le := by
      have := q.heap.sorted
      rw [hes] at this
      exact (List.pairwise_append.mp this).2.1
    have hfirst : s.rank ≤ e.rank := h.fronts key hq s hs e (hes ▸ by simp) hkey
    have hlive : ∃ x ∈ e :: q.afterPop.heap.entries, x.key = k ∧ x.rank = t'.rank := by
      obtain ⟨x, hx, hxk, hr⟩ := h.current k hk t' ht'
      rw [hes] at hx
      exact ⟨x, (List.mem_append.mp hx).resolve_left fun hd => hdead x hd (hxk ▸ hk), hxk, hr⟩
    exact le_rankOf (LazyHeap.rank_le_of_first hsorted hfirst hlive)

/-- In every run whose calls push no entry behind an older one of the same key, tasks come out in
priority order. -/
theorem guarded_priorityOrder (digest : Val → String) (calls : List QueueCall)
    (hg : (machine digest).Guarded (KeepsPlace digest) init calls) :
    PriorityOrder ((machine digest).run init calls) :=
  (hg.invariant (fun _ c hs hk => ordered_call hs c hk) ordered_init).priorityOrder

/-- A run with an overwrite, a cancelled and requeued task and two changes of priority. -/
def sampleCalls : List QueueCall :=
  [.enqueue { taskId := "a", priority := 5, createdAt := 1 } false,
   .enqueue { taskId := "b", priority := 7, createdAt := 2 } false,
   .enqueue { taskId := "a", priority := 6, createdAt := 1 } true,
   .cancel "b" {} 3, .requeue "b" (some 9) none {}, .updatePriority "a" 9 {}]

theorem guarded_priorityOrder_sample :
    PriorityOrder ((machine fun _ => "0").run init sampleCalls) :=
  guarded_priorityOrder (fun _ => "0") sampleCalls (by decide)

/-- `update_priority` lowers `a` below `b`, and `pop_next` still returns `a`: the entry of the old
priority is live. -/
theorem stale_entry_served :
    ¬ PriorityOrder ((machine fun _ => "0").run init
      [.enqueue { taskId := "a", priority := 10, createdAt := 1 } false,
       .enqueue { taskId := "b", priority := 5, createdAt := 2 } false,
       .updatePriority "a" 1 {}]) := by
  intro h
  let queue := (machine fun _ => "0").run init
    [.enqueue { taskId := "a", priority := 10, createdAt := 1 } false,
     .enqueue { taskId := "b", priority := 5, createdAt := 2 } false, .updatePriority "a" 1 {}]
  have ha : ((queue.popNext 3).1.map fun t => t.priority) = some 1 := by decide
  have hb : ((queue.tasks.get? "b").map fun t => t.priority) = some 5 := by decide
  obtain ⟨t, ht, htp⟩ := Option.map_eq_some_iff.mp ha
  obtain ⟨t', ht', htp'⟩ := Option.map_eq_some_iff.mp hb
  have := (h 3 t ht "b" (by decide) t' ht').1
  rw [htp, htp'] at this
  exact this (by decide)

end TaskSchedulerQueue
end Queue
end ZeroRuntime
