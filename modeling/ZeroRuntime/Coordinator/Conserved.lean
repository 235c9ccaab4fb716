import ZeroRuntime.Coordinator.Model
import ZeroRuntime.Lib.Digest

/-!
# ZeroRuntime.Coordinator.Conserved

Leases and workers agree, and every dispatch is accounted for.

* `Lawful`: a lease is active if and only if its worker names it, no worker has two active leases,
  and every dispatch was completed, failed, recovered or is still active.
* `Settled`: the invariant behind it. `settled_end` ends a lease, `settled_assign` hands one out;
  every other part of a call only touches what the invariant does not read.
* `lawful_run`: every state that is reached is lawful.
-/

namespace ZeroRuntime
namespace Coordinator

open Lib Sessions

def isActive (l : Lease) : Bool := l.leaseStatus = .active

def endedCount (s : CoordinatorState) : ℕ :=
  s.completedDispatchCount + s.failedDispatchCount + s.recoveredLeaseCount

/-- The record of a worker names a lease. -/
def Names (s : CoordinatorState) (worker id : String) : Prop :=
  ∃ r, s.workers.get? worker = some r ∧ r.activeLeaseId = .str id

structure Lawful (s : CoordinatorState) : Prop where
  active_iff : ∀ id l, s.leases.get? id = some l →
    (l.leaseStatus = .active ↔ Names s l.workerId id)
  exclusive : ∀ id l id' l', s.leases.get? id = some l → s.leases.get? id' = some l' →
    l.leaseStatus = .active → l'.leaseStatus = .active → l.workerId = l'.workerId → id = id'
  conserved : s.dispatchCount = s.completedDispatchCount + s.failedDispatchCount +
    s.recoveredLeaseCount + s.leases.count isActive

def Lease.identity (l : Lease) (coordinatorId : String) : LeaseIdentity where
  coordinatorId
  workerId := l.workerId
  missionId := l.missionId
  entryId := l.entryId
  acquiredAt := l.acquiredAt

variable {F : CoordinatorDigest} {s s' : CoordinatorState}

variable (F) in
structure Settled (s : CoordinatorState) : Prop where
  keyed : ∀ w r, s.workers.get? w = some r → r.workerId = w
  named : ∀ w r, s.workers.get? w = some r → r.activeLeaseId = .none ∨
    ∃ id l, r.activeLeaseId = .str id ∧ s.leases.get? id = some l ∧ l.leaseStatus = .active ∧
      l.workerId = w
  held : ∀ id l, s.leases.get? id = some l → l.leaseStatus = .active → Names s l.workerId id
  identified : ∀ id l, s.leases.get? id = some l →
    id = leaseIdOf F (l.identity s.coordinatorId)
  conserved : s.dispatchCount = endedCount s + s.leases.count isActive

theorem Settled.lawful (h : Settled F s) : Lawful s where
  active_iff id l hl := by
    constructor
    · exact h.held id l hl
    · rintro ⟨r, hr, hactive⟩
      rcases h.named _ r hr with hnone | ⟨id', l', hnames, hl', hstatus, -⟩
      · rw [hactive] at hnone
        cases hnone
      · rw [hactive] at hnames
        cases hnames
        rw [hl] at hl'
        cases hl'
        exact hstatus
  exclusive id l id' l' hl hl' hactive hactive' hworker := by
    obtain ⟨r, hr, hnames⟩ := h.held id l hl hactive
    obtain ⟨r', hr', hnames'⟩ := h.held id' l' hl' hactive'
    rw [hworker, hr'] at hr
    cases hr
    rw [hnames] at hnames'
    cases hnames'
    rfl
  conserved := h.conserved

/-! ## What the invariant reads -/

/-- What the invariant reads of the workers. -/
def assignment (workers : Dict String WorkerRecord) (w : String) : Option (String × Val) :=
  (workers.get? w).map fun r => (r.workerId, r.activeLeaseId)

theorem get?_of_assignment {workers workers' : Dict String WorkerRecord} {w : String}
    (h : assignment workers' w = assignment workers w) {r' : WorkerRecord}
    (hr' : workers'.get? w = some r') :
    ∃ r, workers.get? w = some r ∧ r.workerId = r'.workerId ∧
      r.activeLeaseId = r'.activeLeaseId := by
  unfold assignment at h
  rw [hr', Option.map_some] at h
  cases hr : workers.get? w with
  | none => rw [hr] at h; cases h
  | some r =>
    rw [hr, Option.map_some] at h
    obtain ⟨hid, hactive⟩ := Prod.mk.inj (Option.some.inj h)
    exact ⟨r, rfl, hid.symm, hactive.symm⟩

theorem Settled.congr (h : Settled F s) (hid : s'.coordinatorId = s.coordinatorId)
    (hleases : s'.leases = s.leases) (hworkers : ∀ w, assignment s'.workers w = assignment s.workers w)
    (hdispatch : s'.dispatchCount = s.dispatchCount) (hended : endedCount s' = endedCount s) :
    Settled F s' where
  keyed w r' hr' := by
    obtain ⟨r, hr, hworker, -⟩ := get?_of_assignment (hworkers w) hr'
    rw [← hworker]
    exact h.keyed w r hr
  named w r' hr' := by
    obtain ⟨r, hr, -, hactive⟩ := get?_of_assignment (hworkers w) hr'
    rw [← hactive, hleases]
    exact h.named w r hr
  held id l hl hstatus := by
    rw [hleases] at hl
    obtain ⟨r, hr, hnames⟩ := h.held id l hl hstatus
    obtain ⟨r', hr', -, hactive⟩ := get?_of_assignment (hworkers l.workerId).symm hr
    exact ⟨r', hr', hactive.trans hnames⟩
  identified id l hl := by
    rw [hleases] at hl
    rw [hid]
    exact h.identified id l hl
  conserved := by
    rw [hdispatch, hended, hleases]
    exact h.conserved

/-- Nothing that the invariant reads is changed by counting workers, by sealing or by an event. -/
theorem Settled.recount (h : Settled F s) : Settled F (recountWorkers F s) :=
  h.congr rfl rfl (fun _ => rfl) rfl rfl

variable {published : Published}

theorem settled_publish (h : Settled F s) (hs : publishEvent F s published = .ok s') :
    Settled F s' := by
  unfold publishEvent at hs
  obtain ⟨event, -, hs⟩ := bind_eq_ok.mp hs
  cases event with
  | none =>
    cases hs
    exact h
  | some eventId =>
    cases hs
    exact h.congr rfl rfl (fun _ => rfl) rfl rfl

/-! ## Ending a lease -/

theorem settled_end {id : String} {l l' : Lease} {f : WorkerRecord → WorkerRecord}
    (h : Settled F s) (hl : s.leases.get? id = some l) (hactive : l.leaseStatus = .active)
    (hcoordinator : s'.coordinatorId = s.coordinatorId) (hleases : s'.leases = s.leases.set id l')
    (hworkers : s'.workers = s.workers.modify l.workerId f)
    (hdispatch : s'.dispatchCount = s.dispatchCount) (hstatus : l'.leaseStatus ≠ .active)
    (hidentity : ∀ c, l'.identity c = l.identity c)
    (hid : ∀ r, (f r).workerId = r.workerId) (hfree : ∀ r, (f r).activeLeaseId = .none)
    (hended : endedCount s' = endedCount s + 1) :
    Settled F s' where
  keyed w r' hr' := by
    rw [hworkers, Dict.get?_modify] at hr'
    split at hr'
    · rename_i hw
      obtain ⟨r, hr, rfl⟩ := Option.map_eq_some_iff.mp hr'
      rw [hid, hw]
      exact h.keyed _ r hr
    · exact h.keyed w r' hr'
  named w r' hr' := by
    rw [hworkers, Dict.get?_modify] at hr'
    split at hr'
    · obtain ⟨r, -, rfl⟩ := Option.map_eq_some_iff.mp hr'
      exact .inl (hfree r)
    · rename_i hw
      refine (h.named w r' hr').imp_right ?_
      rintro ⟨id₂, l₂, hnames, hl₂, hstatus₂, hworker₂⟩
      have hne : id₂ ≠ id := by
        rintro rfl
        rw [hl] at hl₂
        cases hl₂
        exact hw hworker₂.symm
      refine ⟨id₂, l₂, hnames, ?_, hstatus₂, hworker₂⟩
      rw [hleases, Dict.get?_set, if_neg hne]
      exact hl₂
  held id₂ l₂ hl₂ hactive₂ := by
    rw [hleases, Dict.get?_set] at hl₂
    split at hl₂
    · cases hl₂
      exact absurd hactive₂ hstatus
    · rename_i hne
      have hother : l₂.workerId ≠ l.workerId := fun hsame =>
        hne (h.lawful.exclusive id₂ l₂ id l hl₂ hl hactive₂ hactive hsame)
      obtain ⟨r, hr, hnames⟩ := h.held id₂ l₂ hl₂ hactive₂
      refine ⟨r, ?_, hnames⟩
      rw [hworkers, Dict.get?_modify, if_neg hother]
      exact hr
  identified id₂ l₂ hl₂ := by
    rw [hcoordinator]
    rw [hleases, Dict.get?_set] at hl₂
    split at hl₂
    · rename_i hsame
      cases hl₂
      rw [hsame, hidentity]
      exact h.identified id l hl
    · exact h.identified id₂ l₂ hl₂
  conserved := by
    have hcount := Dict.count_set s.leases id l' isActive
    rw [hl, Option.any_some] at hcount
    have hwas : isActive l = true := decide_eq_true hactive
    have hnow : isActive l' = false := decide_eq_false hstatus
    rw [hwas, hnow] at hcount
    have hbefore := h.conserved
    rw [hdispatch, hended, hleases]
    simp only [Bool.toNat_true, Bool.toNat_false] at hcount
    omega

variable {now : Instant}

theorem settled_recoverLease {id : String} (h : Settled F s) :
    Settled F (recoverLease F now s id) := by
  unfold recoverLease
  cases hl : s.leases.get? id with
  | none => exact h
  | some l =>
    dsimp only
    split
    · rename_i hdue
      refine settled_end h hl hdue.1 rfl rfl rfl rfl (fun hstatus => by cases hstatus)
        (fun _ => rfl) (fun _ => rfl) (fun _ => rfl) ?_
      unfold endedCount
      simp only
      omega
    · exact h

theorem settled_recover (h : Settled F s) : Settled F (recoverExpiredLeases F s now) := by
  have hloop : ∀ (ids : List String) (s : CoordinatorState), Settled F s →
      Settled F (ids.foldl (recoverLease F now) s) := by
    intro ids
    induction ids with
    | nil => exact fun s h => h
    | cons id ids ih => exact fun s h => ih _ (settled_recoverLease h)
  have hlater : Settled F { s.leaseOrder.foldl (recoverLease F now) s with updatedAt := timeText now } :=
    (hloop s.leaseOrder s h).congr rfl rfl (fun _ => rfl) rfl rfl
  exact hlater.recount

theorem settled_complete {leaseId : String} {result : Val} {failed : Bool} (h : Settled F s)
    (hs : completeWorkerLease F s leaseId result failed now published = .ok s') : Settled F s' := by
  unfold completeWorkerLease at hs
  cases hl : s.leases.get? leaseId with
  | none => rw [hl] at hs; cases hs
  | some l =>
    rw [hl] at hs
    dsimp only at hs
    split at hs
    · cases hs
      exact h
    · rename_i hactive
      rw [ne_eq, not_not] at hactive
      refine settled_publish (Settled.recount ?_) hs
      refine settled_end h hl hactive rfl rfl rfl rfl ?_ (fun _ => rfl) (fun _ => rfl) (fun _ => rfl) ?_
      · cases failed <;> exact fun hstatus => by cases hstatus
      · unfold endedCount
        cases failed <;> simp only [Bool.false_eq_true, if_true, if_false] <;> omega

/-! ## Workers by their files -/

variable {files : WorkerFiles}

theorem refreshRecord_ok {r r' : WorkerRecord} (h : refreshRecord F files now r = .ok r') :
    r'.workerId = r.workerId ∧ r'.activeLeaseId = r.activeLeaseId ∧
      (r'.workerStatus = .available → r.activeLeaseId.truthy = false) := by
  unfold refreshRecord at h
  cases hfile : files r.workerStatePath with
  | error reason =>
    rw [hfile] at h
    cases h
    exact ⟨rfl, rfl, (by intro hstatus; cases hstatus)⟩
  | ok w =>
    rw [hfile] at h
    dsimp only at h
    obtain ⟨loop, -, h⟩ := bind_eq_ok.mp h
    obtain ⟨successful, -, h⟩ := bind_eq_ok.mp h
    obtain ⟨failed, -, h⟩ := bind_eq_ok.mp h
    cases h
    refine ⟨rfl, rfl, fun hstatus => ?_⟩
    change refreshedStatus r w now = .available at hstatus
    unfold refreshedStatus at hstatus
    by_contra hbusy
    rw [Bool.not_eq_false] at hbusy
    rw [hbusy] at hstatus
    split at hstatus
    · cases hstatus
    · split at hstatus <;> cases hstatus

/-- A worker that is available holds no lease. -/
def Free (r : WorkerRecord) : Prop := r.workerStatus = .available → r.activeLeaseId.truthy = false

/-- The induction is on the workers still to be refreshed: those before them are free. -/
theorem refreshLoop_ok {ids : List String} {workers workers' : Dict String WorkerRecord}
    (h : refreshLoop F files now ids workers = .ok workers') :
    (∀ w, assignment workers' w = assignment workers w) ∧
      ∀ w r, workers'.get? w = some r → Free r ∨ (w ∉ ids ∧ workers.get? w = some r) := by
  induction ids generalizing workers with
  | nil =>
    cases h
    exact ⟨fun _ => rfl, fun _ _ hr => .inr ⟨List.not_mem_nil, hr⟩⟩
  | cons id ids ih =>
    unfold refreshLoop at h
    cases hr : workers.get? id with
    | none => rw [hr] at h; cases h
    | some r =>
      rw [hr] at h
      dsimp only at h
      obtain ⟨r₁, hr₁, h⟩ := bind_eq_ok.mp h
      obtain ⟨hid, hactive, hfree⟩ := refreshRecord_ok hr₁
      obtain ⟨hassigned, hafter⟩ := ih h
      have hset : ∀ w, assignment (workers.set id r₁) w = assignment workers w := by
        intro w
        unfold assignment
        rw [Dict.get?_set]
        split
        · rename_i hw
          rw [hw, hr, Option.map_some, Option.map_some, hid, hactive]
        · rfl
      refine ⟨fun w => (hassigned w).trans (hset w), fun w r' hr' => ?_⟩
      rcases hafter w r' hr' with hfree' | ⟨hmem, hbefore⟩
      · exact .inl hfree'
      · rw [Dict.get?_set] at hbefore
        split at hbefore
        · cases hbefore
          refine .inl fun hstatus => ?_
          rw [hactive]
          exact hfree hstatus
        · rename_i hw
          exact .inr ⟨fun hm => (List.mem_cons.mp hm).elim hw hmem, hbefore⟩

theorem settled_refresh (h : Settled F s) (hs : refreshWorkers F s files now = .ok s') :
    Settled F s' := by
  unfold refreshWorkers at hs
  obtain ⟨workers, hloop, hs⟩ := bind_eq_ok.mp hs
  cases hs
  exact Settled.recount (h.congr rfl rfl (refreshLoop_ok hloop).1 rfl rfl)

theorem free_refresh (hs : refreshWorkers F s files now = .ok s') {w : String} {r : WorkerRecord}
    (hw : w ∈ s'.workerOrder) (hr : s'.workers.get? w = some r) : Free r := by
  unfold refreshWorkers at hs
  obtain ⟨workers, hloop, hs⟩ := bind_eq_ok.mp hs
  cases hs
  rcases (refreshLoop_ok hloop).2 w r hr with hfree | ⟨hmem, -⟩
  · exact hfree
  · exact absurd hw hmem

variable {tags : List String}

/-- Who is selected is known and holds no lease. -/
theorem selected_ok {worker : Option WorkerRecord} (h : Settled F s)
    (hs : selectAvailableWorker F s tags files now = .ok (s', worker)) :
    Settled F s' ∧ ∀ r, worker = some r →
      s'.workers.get? r.workerId = some r ∧ r.activeLeaseId.truthy = false := by
  unfold selectAvailableWorker at hs
  obtain ⟨s₁, hrefresh, hs⟩ := bind_eq_ok.mp hs
  obtain ⟨rfl, rfl⟩ := Prod.mk.inj (Except.ok.inj hs)
  have hsettled := settled_refresh (settled_recover h) hrefresh
  refine ⟨hsettled, fun r hr => ?_⟩
  obtain ⟨hmem, hcandidate⟩ := List.mem_filter.mp (bestWorker_mem hr)
  obtain ⟨w, hw, hget⟩ := List.mem_filterMap.mp hmem
  have hid := hsettled.keyed w r hget
  subst hid
  unfold isCandidate at hcandidate
  rw [Bool.and_eq_true, decide_eq_true_eq] at hcandidate
  exact ⟨hget, free_refresh hrefresh hw hget hcandidate.1⟩

/-! ## Handing out a lease -/

/-- A lease on a free worker is added: its id is not that of an active lease, since that one would
be on the same worker. -/
theorem settled_assign {worker : WorkerRecord} {mission entry : String} {seconds : ℕ}
    (hF : Function.Injective F.identity) (h : Settled F s)
    (hworker : s.workers.get? worker.workerId = some worker)
    (hfree : worker.activeLeaseId.truthy = false) :
    Settled F (assign F s worker (newLease F s worker mission entry tags seconds now)) := by
  generalize hlease : newLease F s worker mission entry tags seconds now = lease
  have hid : lease.leaseId = leaseIdOf F (lease.identity s.coordinatorId) := by
    rw [← hlease]
    rfl
  have hon : lease.workerId = worker.workerId := by
    rw [← hlease]
    rfl
  have hstatus : lease.leaseStatus = .active := by
    rw [← hlease]
    rfl
  have hunnamed : ∀ id, worker.activeLeaseId ≠ .str (leaseIdOf F id) := by
    intro id hnames
    rw [hnames] at hfree
    unfold Val.truthy leaseIdOf at hfree
    simp at hfree
  have hfresh : ∀ l, s.leases.get? lease.leaseId = some l → l.leaseStatus ≠ .active := by
    intro l hl hactive
    have hsame := h.identified _ l hl
    rw [hid] at hsame
    have hidentity := hF (String.append_right_inj _ |>.mp hsame)
    have hworkerId : lease.workerId = l.workerId := congrArg LeaseIdentity.workerId hidentity
    obtain ⟨r, hr, hnames⟩ := h.held _ l hl hactive
    rw [← hworkerId, hon, hworker] at hr
    cases hr
    rw [hid] at hnames
    exact hunnamed _ hnames
  refine Settled.recount ?_
  refine ⟨?_, ?_, ?_, ?_, ?_⟩
  · intro w r hr
    rw [Dict.get?_modify] at hr
    split at hr
    · rename_i hw
      rw [hworker, Option.map_some] at hr
      cases hr
      exact hw.symm
    · exact h.keyed w r hr
  · intro w r hr
    rw [Dict.get?_modify] at hr
    split at hr
    · rename_i hw
      rw [hworker, Option.map_some] at hr
      cases hr
      refine .inr ⟨lease.leaseId, lease, rfl, ?_, hstatus, hon.trans hw.symm⟩
      rw [Dict.get?_set, if_pos rfl]
    · refine (h.named w r hr).imp_right ?_
      rintro ⟨id, l, hnames, hl, hactive, hl'⟩
      refine ⟨id, l, hnames, ?_, hactive, hl'⟩
      rw [Dict.get?_set, if_neg ?_]
      · exact hl
      · rintro rfl
        exact hfresh l hl hactive
  · intro id l hl hactive
    rw [Dict.get?_set] at hl
    split at hl
    · rename_i hsame
      cases hl
      refine ⟨sealWorkerRecord F
        { worker with
          workerStatus := .busy
          activeLeaseId := .str lease.leaseId
          lastAssignedAt := some lease.acquiredAt
          updatedAt := lease.acquiredAt }, ?_, congrArg Val.str hsame.symm⟩
      rw [Dict.get?_modify, if_pos hon, hworker, Option.map_some]
    · obtain ⟨r, hr, hnames⟩ := h.held id l hl hactive
      refine ⟨r, ?_, hnames⟩
      rw [Dict.get?_modify, if_neg ?_]
      · exact hr
      · intro hsame
        rw [hsame, hworker] at hr
        cases hr
        rw [h.identified id l hl] at hnames
        exact hunnamed _ hnames
  · intro id l hl
    rw [Dict.get?_set] at hl
    split at hl
    · rename_i hsame
      cases hl
      rw [hsame]
      exact hid
    · exact h.identified id l hl
  · have hcount := Dict.count_set s.leases lease.leaseId lease isActive
    have hnew : isActive lease = true := decide_eq_true hstatus
    have hold : (s.leases.get? lease.leaseId).any isActive = false := by
      cases hl : s.leases.get? lease.leaseId with
      | none => rfl
      | some l =>
        rw [Option.any_some]
        exact decide_eq_false (hfresh l hl)
    rw [hold, hnew] at hcount
    simp only [Bool.toNat_true, Bool.toNat_false] at hcount
    have hbefore := h.conserved
    unfold endedCount at hbefore ⊢
    simp only
    omega

theorem settled_acquire {missionId entryId : Val} {seconds : ℤ} {lease : Option Lease}
    (hF : Function.Injective F.identity) (h : Settled F s)
    (hs : acquireWorkerLease F s missionId entryId tags seconds files now published =
      .ok (s', lease)) : Settled F s' := by
  unfold acquireWorkerLease at hs
  split at hs
  · cases hs
  split at hs
  · cases hs
  split at hs
  · cases hs
  obtain ⟨⟨s₁, worker⟩, hselect, hs⟩ := bind_eq_ok.mp hs
  obtain ⟨hsettled, hworker⟩ := selected_ok h hselect
  cases worker with
  | none =>
    obtain ⟨s₂, hpublish, hs⟩ := bind_eq_ok.mp hs
    obtain ⟨rfl, -⟩ := Prod.mk.inj (Except.ok.inj hs)
    have hidle : Settled F { s₁ with coordinatorStatus := .idle, updatedAt := timeText now } :=
      hsettled.congr rfl rfl (fun _ => rfl) rfl rfl
    exact (settled_publish hidle hpublish).congr rfl rfl (fun _ => rfl) rfl rfl
  | some worker =>
    obtain ⟨s₂, hpublish, hs⟩ := bind_eq_ok.mp hs
    obtain ⟨rfl, -⟩ := Prod.mk.inj (Except.ok.inj hs)
    obtain ⟨hget, hfree⟩ := hworker worker rfl
    exact settled_publish (settled_assign hF hsettled hget hfree) hpublish

/-! ## A new worker -/

theorem settled_register {path : String} {weight : ℤ} (h : Settled F s)
    (hs : registerWorker F s path weight tags files now published = .ok s') : Settled F s' := by
  unfold registerWorker at hs
  split at hs
  · cases hs
  split at hs
  · cases hs
  rename_i w hfile
  dsimp only at hs
  split at hs
  · cases hs
  split at hs
  · split at hs
    · cases hs
    · cases hs
      exact h
  rename_i hnew
  obtain ⟨loop, -, hs⟩ := bind_eq_ok.mp hs
  obtain ⟨successful, -, hs⟩ := bind_eq_ok.mp hs
  obtain ⟨failed, -, hs⟩ := bind_eq_ok.mp hs
  refine settled_publish (Settled.recount ?_) hs
  refine ⟨?_, ?_, ?_, h.identified, h.conserved⟩
  · intro id r hr
    rw [Dict.get?_set] at hr
    split at hr
    · rename_i hid
      cases hr
      exact hid.symm
    · exact h.keyed id r hr
  · intro id r hr
    rw [Dict.get?_set] at hr
    split at hr
    · cases hr
      exact .inl rfl
    · exact h.named id r hr
  · intro id l hl hactive
    obtain ⟨r, hr, hnames⟩ := h.held id l hl hactive
    refine ⟨r, ?_, hnames⟩
    rw [Dict.get?_set, if_neg ?_]
    · exact hr
    · intro hid
      rw [hid, hnew] at hr
      cases hr

/-! ## Runs -/

theorem settled_created {id name : String} (h : createState F id name now = .ok s) :
    Settled F s := by
  unfold createState at h
  dsimp only at h
  split at h
  · cases h
  · cases h
    refine ⟨?_, ?_, ?_, ?_, rfl⟩
    · intro w r hr
      cases hr
    · intro w r hr
      cases hr
    · intro id l hl
      cases hl
    · intro id l hl
      cases hl

theorem settled_call (hF : Function.Injective F.identity) (h : Settled F s) {c : Call}
    (hs : c.perform F s = .ok s') : Settled F s' := by
  cases c with
  | register path weight tags files now published => exact settled_register h hs
  | refresh files now => exact settled_refresh h hs
  | select tags files now =>
    change (selectAvailableWorker F s tags files now).map Prod.fst = .ok s' at hs
    cases hselect : selectAvailableWorker F s tags files now with
    | error e => rw [hselect] at hs; cases hs
    | ok answer =>
      rw [hselect] at hs
      cases hs
      exact (selected_ok h hselect).1
  | acquire missionId entryId tags seconds files now published =>
    change (acquireWorkerLease F s missionId entryId tags seconds files now published).map Prod.fst =
      .ok s' at hs
    cases hacquire : acquireWorkerLease F s missionId entryId tags seconds files now published with
    | error e => rw [hacquire] at hs; cases hs
    | ok answer =>
      rw [hacquire] at hs
      cases hs
      exact settled_acquire hF h hacquire
  | complete leaseId result failed now published => exact settled_complete h hs

/-- In every state that is reached, leases and workers agree and dispatches are accounted for. -/
theorem lawful_run (hF : Function.Injective F.identity) {id name : String} {now : Instant}
    {s₀ : CoordinatorState} (hcreated : createState F id name now = .ok s₀) (calls : List Call) :
    Lawful ((machine F).run s₀ calls) := by
  have hstep : ∀ (s : CoordinatorState) (c : Call), Settled F s → Settled F ((machine F).step s c).2 := by
    intro s c h
    unfold machine
    dsimp only
    cases hc : c.perform F s with
    | error e => exact h
    | ok s' => exact settled_call hF h hc
  exact (Machine.run_invariant hstep calls (settled_created hcreated)).lawful

/-- A digest that tells every two identities apart. -/
def sampleDigest : CoordinatorDigest where
  record _ := ""
  lease _ := ""
  state _ := ""
  identity i := String.ofList
    (Val.encode (.list [.str i.coordinatorId, .str i.workerId, .str i.missionId, .str i.entryId,
      .int (.ofNat i.acquiredAt)]))

theorem sampleDigest_injective : Function.Injective sampleDigest.identity := by
  intro i j h
  have hvalue := (Val.encode_append_inj
    (congrArg (· ++ []) (String.ofList_inj.mp h))).1
  cases i
  cases j
  simp only [Val.list.injEq, List.cons.injEq, Val.str.injEq, Val.int.injEq,
    Int.ofNat.injEq] at hvalue
  obtain ⟨rfl, rfl, rfl, rfl, rfl, -⟩ := hvalue
  rfl

/-- A worker that is idle, seen at `now`. -/
def sampleWorker (now : Instant) : WorkerFile where
  workerId := "worker"
  workerName := .str "worker"
  workerStatus := .idle
  currentLease := .none
  lastHeartbeatAt := some now
  loopIteration := .ok 0
  successfulDispatches := .ok 0
  failedDispatches := .ok 0
  failure := .none

/-- The same lease is taken twice in one second, and expires. -/
def sampleCalls : List Call :=
  [.register "/data/worker.json" 100 [] (fun _ => .ok (sampleWorker 0)) 0 (.ok none),
    .acquire (.str "mission") (.str "entry") [] 60 (fun _ => .ok (sampleWorker 0)) 0 (.ok none),
    .complete (leaseIdOf sampleDigest ⟨"coordinator", "worker", "mission", "entry", 0⟩) (.dict [])
      false 0 (.ok none),
    .acquire (.str "mission") (.str "entry") [] 60 (fun _ => .ok (sampleWorker 0)) 0 (.ok none),
    .refresh (fun _ => .error "invalid_worker_json") 1000000,
    .select [] (fun _ => .ok (sampleWorker 60000000)) 60000000]

theorem lawful_run_sample :
    ∃ s₀, createState sampleDigest "coordinator" "default" 0 = .ok s₀ ∧
      Lawful ((machine sampleDigest).run s₀ sampleCalls) :=
  ⟨_, rfl, @lawful_run sampleDigest sampleDigest_injective "coordinator" "default" 0 _ rfl
    sampleCalls⟩

end Coordinator
end ZeroRuntime
