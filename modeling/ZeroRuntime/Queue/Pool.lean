import Mathlib.Data.List.Perm.Subperm
import ZeroRuntime.Queue.Tasks

/-!
# ZeroRuntime.Queue.Pool

The worker pool (`core/tasks/scheduler_core/worker_pool.py`): slots, and the records of running
tasks by worker and by task id.

The three tables say the same thing (`Consistent`); `acquire` and `releaseByTask` keep it that way.

* `acquire_eq`: with a free slot, `acquire` refuses a task only if one of its id is running.
* `Holds.of_release`: a release gives up the task of one record and no other.
* `freeCount_occupy`: a granted task takes a slot.
-/

namespace ZeroRuntime
namespace Queue

open Lib

structure WorkerSlot where
  workerId : String
  isBusy : Bool := false
  taskId : Option String := none
  startedAt : Option ℚ := none

structure RunningTaskRecord where
  workerId : String
  task : ScheduledTask
  startedAt : ℚ

structure WorkerPool where
  slots : Dict String WorkerSlot
  runningByWorker : Dict String RunningTaskRecord
  runningByTask : Dict String RunningTaskRecord

/-- The same task id in the same session. -/
def SameTask (a b : ScheduledTask) : Prop := a.taskId = b.taskId ∧ a.session = b.session

instance (a b : ScheduledTask) : Decidable (SameTask a b) :=
  inferInstanceAs (Decidable (_ ∧ _))

theorem SameTask.trans {a b c : ScheduledTask} (h : SameTask a b) (h' : SameTask b c) :
    SameTask a c := ⟨h.1.trans h'.1, h.2.trans h'.2⟩

namespace WorkerPool

def workerName (i : ℕ) : String := "worker-" ++ toString (i + 1)

def idleSlots (n : ℕ) : Dict String WorkerSlot :=
  (List.range n).foldl (fun d i => d.set (workerName i) { workerId := workerName i }) .empty

def init (maxWorkers : ℤ) : Except Err WorkerPool :=
  if maxWorkers ≤ 0 then .error (.valueError "max_workers must be greater than 0")
  else .ok ⟨idleSlots maxWorkers.toNat, .empty, .empty⟩

def freeCount (p : WorkerPool) : ℤ :=
  (p.slots.entries.length : ℤ) - p.runningByWorker.entries.length

def hasFreeSlot (p : WorkerPool) : Bool := 0 < p.freeCount

def getRunningTask (p : WorkerPool) (taskId : String) : Option RunningTaskRecord :=
  p.runningByTask.get? taskId

def freeSlot (p : WorkerPool) : Option (String × WorkerSlot) :=
  p.slots.entries.find? fun e => !e.2.isBusy

/-- The tables once `workerId` runs `task`. -/
def occupy (p : WorkerPool) (workerId : String) (slot : WorkerSlot) (task : ScheduledTask)
    (now : ℚ) : WorkerPool :=
  { slots := p.slots.set workerId
      { slot with isBusy := true, taskId := some task.taskId, startedAt := some now }
    runningByWorker := p.runningByWorker.set workerId ⟨workerId, task, now⟩
    runningByTask := p.runningByTask.set task.taskId ⟨workerId, task, now⟩ }

def acquire (p : WorkerPool) (task : ScheduledTask) (now : ℚ) : Option String × WorkerPool :=
  if p.runningByTask.contains task.taskId then (none, p)
  else match p.freeSlot with
    | none => (none, p)
    | some (workerId, slot) => (some workerId, p.occupy workerId slot task now)

/-- The tables once `workerId` is idle again. -/
def vacate (p : WorkerPool) (workerId taskId : String) : WorkerPool :=
  { slots := p.slots.modify workerId fun slot =>
      { slot with isBusy := false, taskId := none, startedAt := none }
    runningByWorker := p.runningByWorker.erase workerId
    runningByTask := p.runningByTask.erase taskId }

def releaseByWorker (p : WorkerPool) (workerId : String) :
    Option RunningTaskRecord × WorkerPool :=
  match p.runningByWorker.get? workerId with
  | none => (none, p)
  | some record => (some record, p.vacate workerId record.task.taskId)

def releaseByTask (p : WorkerPool) (taskId : String) : Option RunningTaskRecord × WorkerPool :=
  match p.runningByTask.get? taskId with
  | none => (none, p)
  | some record => p.releaseByWorker record.workerId

structure Consistent (p : WorkerPool) : Prop where
  byWorker : ∀ w r, p.runningByWorker.get? w = some r →
    r.workerId = w ∧ p.runningByTask.get? r.task.taskId = some r
  byTask : ∀ i r, p.runningByTask.get? i = some r →
    r.task.taskId = i ∧ p.runningByWorker.get? r.workerId = some r
  slotted : ∀ w r, p.runningByWorker.get? w = some r → ∃ s, p.slots.get? w = some s
  busy : ∀ w s, p.slots.get? w = some s →
    (s.isBusy = true ↔ ∃ r, p.runningByWorker.get? w = some r)

/-- Some busy slot holds the task. -/
def Holds (p : WorkerPool) (t : ScheduledTask) : Prop :=
  ∃ w s r, p.slots.get? w = some s ∧ s.isBusy = true ∧ p.runningByWorker.get? w = some r ∧
    SameTask r.task t

theorem idleSlots_idle {n : ℕ} {w : String} {s : WorkerSlot}
    (h : (idleSlots n).get? w = some s) : s.isBusy = false := by
  induction n with
  | zero => cases h
  | succ n ih =>
    simp only [idleSlots, List.range_succ, List.foldl_append, List.foldl_cons, List.foldl_nil,
      Dict.get?_set] at h
    split at h
    · cases h; rfl
    · exact ih h

theorem consistent_init {n : ℤ} {p : WorkerPool} (h : init n = .ok p) : Consistent p := by
  unfold init at h
  split at h
  · cases h
  · cases h
    refine ⟨fun w r hr => ?_, fun i r hr => ?_, fun w r hr => ?_, fun w s hs => ?_⟩
    · cases hr
    · cases hr
    · cases hr
    · rw [idleSlots_idle hs]
      simp

section Tables

variable {p : WorkerPool}

variable {t : ScheduledTask}

theorem Consistent.holds_iff (h : Consistent p) :
    Holds p t ↔ ∃ w r, p.runningByWorker.get? w = some r ∧ SameTask r.task t := by
  constructor
  · rintro ⟨w, s, r, -, -, hr, hst⟩
    exact ⟨w, r, hr, hst⟩
  · rintro ⟨w, r, hr, hst⟩
    obtain ⟨s, hs⟩ := h.slotted w r hr
    exact ⟨w, s, r, hs, (h.busy w s hs).mpr ⟨r, hr⟩, hr, hst⟩

variable {w : String} {s : WorkerSlot}

theorem freeSlot_spec (hf : p.freeSlot = some (w, s)) :
    p.slots.get? w = some s ∧ s.isBusy = false := by
  obtain ⟨hs, as, bs, he, -⟩ := List.find?_eq_some_iff_append.mp hf
  have hmem : (w, s) ∈ p.slots.entries := he ▸ by simp
  exact ⟨Dict.mem_entries.mp hmem, by simpa using hs⟩

/-- Were every slot busy, there would be as many running records as slots. -/
theorem Consistent.exists_freeSlot (h : Consistent p) (hf : p.hasFreeSlot = true) :
    ∃ w s, p.freeSlot = some (w, s) := by
  cases hs : p.freeSlot with
  | some e => exact ⟨e.1, e.2, rfl⟩
  | none =>
    have hall : ∀ e ∈ p.slots.entries, e.2.isBusy = true := by
      intro e he
      simpa using List.find?_eq_none.mp hs e he
    have hsub : p.slots.keys ⊆ p.runningByWorker.keys := by
      intro w hw
      obtain ⟨s, hs⟩ := Dict.mem_keys.mp hw
      exact Dict.mem_keys.mpr ((h.busy w s hs).mp (hall _ (Dict.mem_entries.mpr hs)))
    have hle := (p.slots.nodup.subperm hsub).length_le
    simp only [Dict.keys, List.length_map] at hle
    have : 0 < p.freeCount := by simpa [hasFreeSlot] using hf
    unfold freeCount at this
    omega

theorem Consistent.notRunning (h : Consistent p) (hs : p.slots.get? w = some s)
    (hidle : s.isBusy = false) : p.runningByWorker.get? w = none := by
  cases hr : p.runningByWorker.get? w with
  | none => rfl
  | some r =>
    have := (h.busy w s hs).mpr ⟨r, hr⟩
    rw [hidle] at this
    cases this

/-- What `acquire` answers when a slot is free. -/
theorem Consistent.acquire_eq (h : Consistent p) (hf : p.hasFreeSlot = true)
    (task : ScheduledTask) (now : ℚ) :
    (p.runningByTask.contains task.taskId = true ∧ p.acquire task now = (none, p)) ∨
    (p.runningByTask.contains task.taskId = false ∧ ∃ w s, p.freeSlot = some (w, s) ∧
      p.acquire task now = (some w, p.occupy w s task now)) := by
  unfold acquire
  cases hc : p.runningByTask.contains task.taskId with
  | true => exact .inl ⟨rfl, rfl⟩
  | false =>
    obtain ⟨w, s, hs⟩ := h.exists_freeSlot hf
    exact .inr ⟨rfl, w, s, hs, by rw [hs]; rfl⟩

variable {task : ScheduledTask}

variable {now : ℚ}

theorem Consistent.occupy_idle (h : Consistent p) (hs : p.slots.get? w = some s)
    (hidle : s.isBusy = false) (hnew : p.runningByTask.contains task.taskId = false) :
    Consistent (p.occupy w s task now) := by
  have hfree := h.notRunning hs hidle
  have hnone : p.runningByTask.get? task.taskId = none := by simpa [Dict.contains] using hnew
  refine ⟨fun w' r hr => ?_, fun i r hr => ?_, fun w' r hr => ?_, fun w' s' hs' => ?_⟩
  · by_cases hw : w' = w
    · obtain rfl : _ = r := by simpa [WorkerPool.occupy, hw] using hr
      simp [WorkerPool.occupy, hw]
    · obtain ⟨hr₁, hr₂⟩ := h.byWorker w' r (by simpa [WorkerPool.occupy, hw] using hr)
      have hne : r.task.taskId ≠ task.taskId := by
        intro he
        rw [he, hnone] at hr₂
        cases hr₂
      exact ⟨hr₁, by simpa [WorkerPool.occupy, hne] using hr₂⟩
  · by_cases hi : i = task.taskId
    · obtain rfl : _ = r := by simpa [WorkerPool.occupy, hi] using hr
      simp [WorkerPool.occupy, hi]
    · obtain ⟨hr₁, hr₂⟩ := h.byTask i r (by simpa [WorkerPool.occupy, hi] using hr)
      have hne : r.workerId ≠ w := by
        intro he
        rw [he, hfree] at hr₂
        cases hr₂
      exact ⟨hr₁, by simpa [WorkerPool.occupy, hne] using hr₂⟩
  · by_cases hw : w' = w
    · exact ⟨_, by simp [WorkerPool.occupy, hw]; rfl⟩
    · obtain ⟨s', hs'⟩ := h.slotted w' r (by simpa [WorkerPool.occupy, hw] using hr)
      exact ⟨s', by simpa [WorkerPool.occupy, hw] using hs'⟩
  · by_cases hw : w' = w
    · obtain rfl : _ = s' := by simpa [WorkerPool.occupy, hw] using hs'
      simp [WorkerPool.occupy, hw]
    · have := h.busy w' s' (by simpa [WorkerPool.occupy, hw] using hs')
      simpa [WorkerPool.occupy, hw] using this

theorem Consistent.occupy (h : Consistent p) (hf : p.freeSlot = some (w, s))
    (hnew : p.runningByTask.contains task.taskId = false) : Consistent (p.occupy w s task now) :=
  h.occupy_idle (freeSlot_spec hf).1 (freeSlot_spec hf).2 hnew

variable {r : RunningTaskRecord}

theorem Consistent.vacate (h : Consistent p) (hr : p.runningByWorker.get? w = some r) :
    Consistent (p.vacate w r.task.taskId) := by
  obtain ⟨hrw, hrt⟩ := h.byWorker w r hr
  refine ⟨fun w' r' hr' => ?_, fun i r' hr' => ?_, fun w' r' hr' => ?_, fun w' s' hs' => ?_⟩
  · have hw : w' ≠ w := by
      rintro rfl
      simp [WorkerPool.vacate] at hr'
    have hr'' : p.runningByWorker.get? w' = some r' := by simpa [WorkerPool.vacate, hw] using hr'
    obtain ⟨h₁, h₂⟩ := h.byWorker w' r' hr''
    have hne : r'.task.taskId ≠ r.task.taskId := by
      intro he
      rw [he, hrt] at h₂
      cases h₂
      exact hw (h₁.symm.trans hrw)
    exact ⟨h₁, by simpa [WorkerPool.vacate, hne] using h₂⟩
  · have hi : i ≠ r.task.taskId := by
      rintro rfl
      simp [WorkerPool.vacate] at hr'
    obtain ⟨h₁, h₂⟩ := h.byTask i r' (by simpa [WorkerPool.vacate, hi] using hr')
    have hne : r'.workerId ≠ w := by
      intro he
      rw [he, hr] at h₂
      cases h₂
      exact hi h₁.symm
    exact ⟨h₁, by simpa [WorkerPool.vacate, hne] using h₂⟩
  · have hw : w' ≠ w := by
      rintro rfl
      simp [WorkerPool.vacate] at hr'
    obtain ⟨s', hs'⟩ := h.slotted w' r' (by simpa [WorkerPool.vacate, hw] using hr')
    exact ⟨s', by simpa [WorkerPool.vacate, hw] using hs'⟩
  · by_cases hw : w' = w
    · subst hw
      obtain ⟨s, -, rfl⟩ : ∃ s, p.slots.get? w' = some s ∧ _ = s' := by
        simpa [WorkerPool.vacate] using hs'
      simp [WorkerPool.vacate]
    · have := h.busy w' s' (by simpa [WorkerPool.vacate, hw] using hs')
      simpa [WorkerPool.vacate, hw] using this

theorem Consistent.freeCount_occupy (h : Consistent p) (hf : p.freeSlot = some (w, s)) :
    (p.occupy w s task now).freeCount = p.freeCount - 1 := by
  obtain ⟨hs, hidle⟩ := freeSlot_spec hf
  have hslots : p.slots.contains w = true := Dict.contains_iff.mpr ⟨s, hs⟩
  have hrun : p.runningByWorker.contains w = false := by
    simp [Dict.contains, h.notRunning hs hidle]
  unfold freeCount WorkerPool.occupy
  simp only [Dict.length_set, hslots, hrun, if_true, Bool.false_eq_true, if_false]
  omega

theorem Consistent.releaseByTask_eq (h : Consistent p) {taskId : String}
    (hr : p.runningByTask.get? taskId = some r) :
    p.releaseByTask taskId = (some r, p.vacate r.workerId r.task.taskId) := by
  unfold releaseByTask releaseByWorker
  rw [hr]
  simp only [(h.byTask taskId r hr).2]

theorem Consistent.holds_occupy (h : Consistent p) (hf : p.freeSlot = some (w, s))
    (hnew : p.runningByTask.contains task.taskId = false) (ht : Holds p t ∨ SameTask task t) :
    Holds (p.occupy w s task now) t := by
  rw [(h.occupy hf hnew).holds_iff]
  rcases ht with ht | ht
  · obtain ⟨w', r, hr, hst⟩ := h.holds_iff.mp ht
    have hne : w' ≠ w := by
      rintro rfl
      rw [h.notRunning (freeSlot_spec hf).1 (freeSlot_spec hf).2] at hr
      cases hr
    exact ⟨w', r, by simpa [WorkerPool.occupy, hne] using hr, hst⟩
  · exact ⟨w, ⟨w, task, now⟩, by simp [WorkerPool.occupy], ht⟩

/-- A release gives up the task of one record and no other. -/
theorem Holds.of_release (h : Consistent p) {taskId : String}
    (hr : p.runningByTask.get? taskId = some r) (ht : Holds p t) :
    SameTask r.task t ∨ Holds (p.vacate r.workerId r.task.taskId) t := by
  have hrw := (h.byTask taskId r hr).2
  obtain ⟨w, r', hr', hst⟩ := h.holds_iff.mp ht
  by_cases hw : w = r.workerId
  · subst hw
    rw [hrw] at hr'
    cases hr'
    exact .inl hst
  · exact .inr ((h.vacate hrw).holds_iff.mpr
      ⟨w, r', by simpa [WorkerPool.vacate, hw] using hr', hst⟩)

end Tables

end WorkerPool
end Queue
end ZeroRuntime
