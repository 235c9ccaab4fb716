import ZeroRuntime.Lib.Machine
import ZeroRuntime.Queue.Pool

/-!
# ZeroRuntime.Queue.Assign

The worker pool under all of its operations, `assign` with any worker and any task among them.

* `Agree`: slots, records by worker and records by task are one partial bijection.
* `Labelled`: a busy slot shows the task of its worker's record.
* `pool_agrees_iff`: the tables agree throughout a run if and only if no call assigns an idle worker
  a task that is running on another one.
-/

namespace ZeroRuntime
namespace Queue

open Lib

namespace WorkerPool

def assign (p : WorkerPool) (workerId taskId : String) (now : ℚ) : Bool × WorkerPool :=
  match p.slots.get? workerId with
  | none => (false, p)
  | some slot =>
    if slot.isBusy then (false, p)
    else
      let fakeTask : ScheduledTask := { taskId, title := taskId, createdAt := now }
      (true, p.occupy workerId slot fakeTask now)

inductive PoolCall where
  | acquire (task : ScheduledTask) (now : ℚ)
  | assign (workerId taskId : String) (now : ℚ)
  | release (workerId : String)
  | releaseByTask (taskId : String)

inductive PoolAnswer where
  | worker (workerId : Option String)
  | assigned (ok : Bool)
  | released (record : Option RunningTaskRecord)

def workerPool : Machine WorkerPool PoolCall PoolAnswer where
  step p
    | .acquire task now => (p.acquire task now).map .worker id
    | .assign workerId taskId now => (p.assign workerId taskId now).map .assigned id
    | .release workerId => (p.releaseByWorker workerId).map .released id
    | .releaseByTask taskId => (p.releaseByTask taskId).map .released id

/-- The pool of `n + 1` workers as it is made. -/
def start (n : ℕ) : WorkerPool := ⟨idleSlots (n + 1), .empty, .empty⟩

theorem init_eq_start (n : ℕ) : init (n + 1) = .ok (start n) := by
  unfold init start
  rw [if_neg (by omega)]
  rfl

/-! ## The three tables -/

def BusyWith (p : WorkerPool) (workerId taskId : String) : Prop :=
  ∃ slot, p.slots.get? workerId = some slot ∧ slot.isBusy = true ∧ slot.taskId = some taskId

def RunsByWorker (p : WorkerPool) (workerId taskId : String) : Prop :=
  ∃ record, p.runningByWorker.get? workerId = some record ∧ record.task.taskId = taskId

def RunsByTask (p : WorkerPool) (workerId taskId : String) : Prop :=
  ∃ record, p.runningByTask.get? taskId = some record ∧ record.workerId = workerId

/-- All tables tell of the same pairs, so that no task is on two workers, and the release of a task
frees the worker that runs it and no other. -/
structure Agree (p : WorkerPool) : Prop where
  slots_iff : ∀ w t, BusyWith p w t ↔ RunsByWorker p w t
  workers_iff : ∀ w t, RunsByWorker p w t ↔ RunsByTask p w t
  freed : ∀ t w u, BusyWith (p.releaseByTask t).2 w u ↔ BusyWith p w u ∧ u ≠ t

def AssignsFresh (p : WorkerPool) : PoolCall → Prop
  | .assign workerId taskId _ =>
    (∃ slot, p.slots.get? workerId = some slot ∧ slot.isBusy = false) →
      p.runningByTask.contains taskId = false
  | _ => True

/-- A busy slot shows the task of its worker's record. -/
def Labelled (p : WorkerPool) : Prop :=
  ∀ w slot record, p.slots.get? w = some slot → p.runningByWorker.get? w = some record →
    slot.taskId = some record.task.taskId

section Steps

variable {p : WorkerPool}

theorem Labelled.occupy (h : Labelled p) (w : String) (slot : WorkerSlot) (task : ScheduledTask)
    (now : ℚ) : Labelled (p.occupy w slot task now) := by
  intro w' slot' record hslot hrecord
  unfold WorkerPool.occupy at hslot hrecord
  rw [Dict.get?_set] at hslot hrecord
  split at hslot
  · rename_i heq
    rw [if_pos heq] at hrecord
    cases hslot
    cases hrecord
    rfl
  · rename_i hne
    rw [if_neg hne] at hrecord
    exact h w' slot' record hslot hrecord

theorem Labelled.vacate (h : Labelled p) (w taskId : String) : Labelled (p.vacate w taskId) := by
  intro w' slot' record hslot hrecord
  unfold WorkerPool.vacate at hslot hrecord
  rw [Dict.get?_modify] at hslot
  rw [Dict.get?_erase] at hrecord
  by_cases hw : w' = w
  · rw [if_pos hw] at hrecord
    cases hrecord
  · rw [if_neg hw] at hslot hrecord
    exact h w' slot' record hslot hrecord

/-- Everything the pool keeps. -/
structure Kept (p : WorkerPool) : Prop where
  consistent : Consistent p
  labelled : Labelled p

theorem Kept.vacate (h : Kept p) {w : String} {r : RunningTaskRecord}
    (hr : p.runningByWorker.get? w = some r) : Kept (p.vacate w r.task.taskId) :=
  ⟨h.consistent.vacate hr, h.labelled.vacate w _⟩

theorem Kept.releaseByWorker (h : Kept p) (w : String) : Kept (p.releaseByWorker w).2 := by
  unfold WorkerPool.releaseByWorker
  split
  · exact h
  · rename_i record hrecord
    exact h.vacate hrecord

theorem kept_start (n : ℕ) : Kept (start n) :=
  ⟨consistent_init (init_eq_start n), fun _ _ _ _ hrecord => by cases hrecord⟩

theorem kept_step (h : Kept p) {c : PoolCall} (hc : AssignsFresh p c) :
    Kept (workerPool.step p c).2 := by
  cases c with
  | acquire task now =>
    have hacquire : (workerPool.step p (.acquire task now)).2 = (p.acquire task now).2 := rfl
    rw [hacquire]
    unfold WorkerPool.acquire
    split
    · exact h
    · rename_i hnew
      split
      · exact h
      · rename_i w slot hfree
        exact ⟨h.consistent.occupy hfree (by simpa using hnew), h.labelled.occupy w slot task now⟩
  | assign workerId taskId now =>
    have hassign : (workerPool.step p (.assign workerId taskId now)).2 =
        (p.assign workerId taskId now).2 := rfl
    rw [hassign]
    unfold WorkerPool.assign
    split
    · exact h
    · rename_i slot hslot
      split
      · exact h
      · rename_i hidle
        have hidle' : slot.isBusy = false := by simpa using hidle
        exact ⟨h.consistent.occupy_idle hslot hidle' (hc ⟨slot, hslot, hidle'⟩),
          h.labelled.occupy workerId slot _ now⟩
  | release workerId => exact h.releaseByWorker workerId
  | releaseByTask taskId =>
    have hrelease : (workerPool.step p (.releaseByTask taskId)).2 = (p.releaseByTask taskId).2 := rfl
    rw [hrelease]
    unfold WorkerPool.releaseByTask
    split
    · exact h
    · exact h.releaseByWorker _

theorem Kept.busyWith_iff (h : Kept p) {w t : String} : BusyWith p w t ↔ RunsByWorker p w t := by
  constructor
  · rintro ⟨slot, hslot, hbusy, htask⟩
    obtain ⟨record, hrecord⟩ := (h.consistent.busy w slot hslot).mp hbusy
    have hlabel := h.labelled w slot record hslot hrecord
    rw [htask] at hlabel
    exact ⟨record, hrecord, (Option.some.inj hlabel).symm⟩
  · rintro ⟨record, hrecord, rfl⟩
    obtain ⟨slot, hslot⟩ := h.consistent.slotted w record hrecord
    exact ⟨slot, hslot, (h.consistent.busy w slot hslot).mpr ⟨record, hrecord⟩,
      h.labelled w slot record hslot hrecord⟩

theorem Kept.runs_iff (h : Kept p) {w t : String} : RunsByWorker p w t ↔ RunsByTask p w t := by
  constructor
  · rintro ⟨record, hrecord, rfl⟩
    obtain ⟨hworker, htask⟩ := h.consistent.byWorker w record hrecord
    exact ⟨record, htask, hworker⟩
  · rintro ⟨record, hrecord, rfl⟩
    obtain ⟨htask, hworker⟩ := h.consistent.byTask t record hrecord
    exact ⟨record, hworker, htask⟩

theorem runsByWorker_vacate {w w' t taskId : String} :
    RunsByWorker (p.vacate w taskId) w' t ↔ w' ≠ w ∧ RunsByWorker p w' t := by
  unfold RunsByWorker WorkerPool.vacate
  simp only [Dict.get?_erase]
  by_cases hw : w' = w
  · simp [hw]
  · simp [hw]

theorem Kept.freed (h : Kept p) (t w u : String) :
    BusyWith (p.releaseByTask t).2 w u ↔ BusyWith p w u ∧ u ≠ t := by
  cases hrecord : p.runningByTask.get? t with
  | none =>
    have hnone : (p.releaseByTask t).2 = p := by
      unfold WorkerPool.releaseByTask
      rw [hrecord]
    rw [hnone]
    refine ⟨fun hbusy => ⟨hbusy, ?_⟩, fun hbusy => hbusy.1⟩
    rintro rfl
    obtain ⟨record, hfound, -⟩ := h.runs_iff.mp (h.busyWith_iff.mp hbusy)
    rw [hrecord] at hfound
    cases hfound
  | some record =>
    obtain ⟨htask, hworker⟩ := h.consistent.byTask t record hrecord
    rw [h.consistent.releaseByTask_eq hrecord, (h.vacate hworker).busyWith_iff,
      runsByWorker_vacate, h.busyWith_iff, and_comm]
    refine and_congr_right fun hruns => ?_
    -- the worker of the record is the one that runs the task
    have hsame : u = t ↔ w = record.workerId := by
      obtain ⟨found, hfound, hu⟩ := hruns
      constructor
      · intro hut
        obtain ⟨found', hfound', hw⟩ := h.runs_iff.mp ⟨found, hfound, hu.trans hut⟩
        rw [hrecord] at hfound'
        cases hfound'
        exact hw.symm
      · intro hw
        rw [hw, hworker] at hfound
        cases hfound
        exact hu.symm.trans htask
    exact not_congr hsame.symm

theorem Kept.agree (h : Kept p) : Agree p :=
  ⟨fun _ _ => h.busyWith_iff, fun _ _ => h.runs_iff, h.freed⟩

/-- A task that is assigned while it runs is on two workers. -/
theorem not_agree_step (h : Kept p) {c : PoolCall} (hc : ¬AssignsFresh p c) :
    ¬Agree (workerPool.step p c).2 := by
  cases c with
  | acquire => exact absurd trivial hc
  | release => exact absurd trivial hc
  | releaseByTask => exact absurd trivial hc
  | assign workerId taskId now =>
    unfold AssignsFresh at hc
    obtain ⟨⟨slot, hslot, hidle⟩, hrunning⟩ := Classical.not_imp.mp hc
    rw [Bool.not_eq_false] at hrunning
    obtain ⟨record, hrecord⟩ := Dict.contains_iff.mp hrunning
    obtain ⟨htask, hworker⟩ := h.consistent.byTask taskId record hrecord
    have hne : record.workerId ≠ workerId := by
      intro heq
      rw [heq, h.consistent.notRunning hslot hidle] at hworker
      cases hworker
    have hstep : (workerPool.step p (.assign workerId taskId now)).2 =
        p.occupy workerId slot { taskId, title := taskId, createdAt := now } now := by
      have hassign : (workerPool.step p (.assign workerId taskId now)).2 =
          (p.assign workerId taskId now).2 := rfl
      rw [hassign, WorkerPool.assign, hslot]
      simp [hidle]
    rw [hstep]
    intro hagree
    have hfirst : RunsByWorker
        (p.occupy workerId slot { taskId, title := taskId, createdAt := now } now)
        record.workerId taskId := by
      refine ⟨record, ?_, htask⟩
      unfold WorkerPool.occupy
      rw [Dict.get?_set, if_neg hne]
      exact hworker
    obtain ⟨found, hfound, hfoundWorker⟩ := (hagree.workers_iff _ _).mp hfirst
    unfold WorkerPool.occupy at hfound
    rw [Dict.get?_set, if_pos rfl] at hfound
    cases hfound
    exact hne hfoundWorker.symm

end Steps

/-! ## Runs -/

/-- Throughout a run of a pool the tables agree if and only if no idle worker is assigned a task that
another one is running. -/
theorem pool_agrees_iff (n : ℕ) (calls : List PoolCall) :
    (∀ before, before <+: calls → Agree (workerPool.run (start n) before)) ↔
      workerPool.Guarded AssignsFresh (start n) calls := by
  have hstep : ∀ p c, Kept p → AssignsFresh p c → Kept (workerPool.step p c).2 :=
    fun p c h hc => kept_step h hc
  induction calls using List.reverseRecOn with
  | nil =>
    refine ⟨fun _ => trivial, fun _ before hbefore => ?_⟩
    rw [List.prefix_nil.mp hbefore]
    exact (kept_start n).agree
  | append_singleton calls c ih =>
    rw [Machine.guarded_append]
    constructor
    · intro h
      have hcalls := ih.mp fun before hbefore =>
        h before (hbefore.trans (List.prefix_append calls [c]))
      refine ⟨hcalls, ?_, trivial⟩
      by_contra hc
      refine not_agree_step (hcalls.invariant hstep (kept_start n)) hc ?_
      rw [← Machine.run_snoc]
      exact h _ (List.prefix_refl _)
    · rintro ⟨hcalls, hc, -⟩ before hbefore
      rcases List.prefix_concat_iff.mp hbefore with rfl | hbefore
      · rw [Machine.run_snoc]
        exact (kept_step (hcalls.invariant hstep (kept_start n)) hc).agree
      · exact ih.mpr hcalls before hbefore

def twiceAssigned : List PoolCall :=
  [.acquire { taskId := "t", createdAt := 0 } 0, .assign "worker-2" "t" 1]

/-- The task is on both workers, and its record by task knows of one. -/
theorem twice_assigned_disagrees : ¬Agree (workerPool.run (start 1) twiceAssigned) := by
  intro h
  have hfacts : ((workerPool.run (start 1) twiceAssigned).runningByWorker.get? "worker-1").map
        (fun record => record.task.taskId) = some "t" ∧
      ((workerPool.run (start 1) twiceAssigned).runningByTask.get? "t").map
        RunningTaskRecord.workerId = some "worker-2" := by
    decide +kernel
  obtain ⟨hworker, htask⟩ := hfacts
  obtain ⟨record, hrecord, hid⟩ := Option.map_eq_some_iff.mp hworker
  obtain ⟨found, hfound, hfirst⟩ := (h.workers_iff "worker-1" "t").mp ⟨record, hrecord, hid⟩
  rw [hfound] at htask
  have hsecond : found.workerId = "worker-2" := Option.some.inj htask
  rw [hfirst] at hsecond
  exact absurd hsecond (by decide)

end WorkerPool
end Queue
end ZeroRuntime
