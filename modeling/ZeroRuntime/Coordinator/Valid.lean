import ZeroRuntime.Coordinator.Model

/-!
# ZeroRuntime.Coordinator.Valid

Which calls keep the state of the coordinator valid.

* `Whole` and `Housed` split what the validator asks for: a busy worker holding a lease is the one
  part that calls can break for a worker that is known.
* `Careful` is the condition: a new worker has a name and does not come with work of its own, and no
  worker that a refresh finds at work holds a lease whose id is only spaces.
* `valid_iff_careful`: a call that does not raise on a valid state keeps it valid exactly then.
-/

namespace ZeroRuntime
namespace Coordinator

open Lib Sessions

variable {F : CoordinatorDigest} {s s' : CoordinatorState}

/-! ## What the validator asks for -/

theorem blank_str (s : String) : blank (.str s) = decide (Text.strip s = "") := by
  unfold blank
  rw [Val.text_str]

/-- A busy worker holds a lease. -/
def Housed (r : WorkerRecord) : Prop := r.workerStatus = .busy → blank r.activeLeaseId = false

variable (F) in
/-- The rest of what is asked for a record. -/
structure RecordSound (id : String) (r : WorkerRecord) : Prop where
  keyed : r.workerId = id
  contract : r.contract = workerRecordContract
  signed : r.workerRecordFingerprint = F.record (unsignedRecord r)
  identified : blank (.str r.workerId) = false
  named : blank r.workerName = false
  located : blank (.str r.workerStatePath) = false

variable (F) in
structure LeaseSound (id : String) (l : Lease) : Prop where
  keyed : l.leaseId = id
  contract : l.contract = leaseContract
  signed : l.leaseFingerprint = F.lease (unsignedLease l)
  identified : blank (.str l.leaseId) = false
  worker : blank (.str l.workerId) = false
  mission : blank (.str l.missionId) = false
  entry : blank (.str l.entryId) = false

variable (F) in
def Signed (s : CoordinatorState) : Prop := s.coordinatorFingerprint = F.state (unsignedState s)

variable (F) in
structure Whole (s : CoordinatorState) : Prop where
  contract : s.contract = coordinatorContract
  identified : blank (.str s.coordinatorId) = false
  named : blank (.str s.coordinatorName) = false
  worker_order : ∀ id, id ∈ s.workerOrder ↔ s.workers.contains id = true
  lease_order : ∀ id, id ∈ s.leaseOrder ↔ s.leases.contains id = true
  worker : ∀ id r, s.workers.get? id = some r → RecordSound F id r
  lease : ∀ id l, s.leases.get? id = some l → LeaseSound F id l

def AllHoused (s : CoordinatorState) : Prop := ∀ id r, s.workers.get? id = some r → Housed r

variable {r : WorkerRecord} {id : String}

theorem validateWorkerRecord_eq_nil (hid : r.workerId = id) :
    validateWorkerRecord F r = [] ↔ RecordSound F id r ∧ Housed r := by
  unfold validateWorkerRecord
  simp only [List.append_eq_nil_iff, missing_eq_nil, found_eq_nil, Bool.not_eq_true, not_and,
    and_assoc]
  constructor
  · rintro ⟨hcontract, hsigned, hidentified, hnamed, hlocated, hhoused⟩
    exact ⟨⟨hid, hcontract, hsigned, hidentified, hnamed, hlocated⟩, hhoused⟩
  · rintro ⟨h, hhoused⟩
    exact ⟨h.contract, h.signed, h.identified, h.named, h.located, hhoused⟩

theorem validateDispatchLease_eq_nil {l : Lease} :
    l.leaseId = id ∧ validateDispatchLease F l = [] ↔ LeaseSound F id l := by
  unfold validateDispatchLease
  simp only [List.append_eq_nil_iff, missing_eq_nil, found_eq_nil, Bool.not_eq_true, and_assoc]
  constructor
  · rintro ⟨hid, hcontract, hsigned, hidentified, hworker, hmission, hentry⟩
    exact ⟨hid, hcontract, hsigned, hidentified, hworker, hmission, hentry⟩
  · intro h
    exact ⟨h.keyed, h.contract, h.signed, h.identified, h.worker, h.mission, h.entry⟩

theorem validateState_eq_nil :
    validateState F s = [] ↔ Signed F s ∧ Whole F s ∧ AllHoused s := by
  unfold validateState
  simp only [List.append_eq_nil_iff, missing_eq_nil, found_eq_nil, Bool.not_eq_true, and_assoc,
    sameKeys_iff]
  constructor
  · rintro ⟨hcontract, hsigned, hid, hname, horder, hleases, hworker, hlease⟩
    have hworkers := (registry_eq_nil horder).mp hworker
    have hsound : ∀ id r, s.workers.get? id = some r → RecordSound F id r ∧ Housed r :=
      fun id r hr => (validateWorkerRecord_eq_nil (hworkers id r hr).1).mp (hworkers id r hr).2
    refine ⟨hsigned, ⟨hcontract, hid, hname, horder, hleases, fun id r hr => (hsound id r hr).1,
      fun id l hl => ?_⟩, fun id r hr => (hsound id r hr).2⟩
    exact validateDispatchLease_eq_nil.mp ((registry_eq_nil hleases).mp hlease id l hl)
  · rintro ⟨hsigned, h, hhoused⟩
    refine ⟨h.contract, hsigned, h.identified, h.named, h.worker_order, h.lease_order, ?_, ?_⟩
    · refine (registry_eq_nil h.worker_order).mpr fun id r hr => ?_
      have hsound := h.worker id r hr
      exact ⟨hsound.keyed,
        (validateWorkerRecord_eq_nil hsound.keyed).mpr ⟨hsound, hhoused id r hr⟩⟩
    · exact (registry_eq_nil h.lease_order).mpr fun id l hl =>
        validateDispatchLease_eq_nil.mpr (h.lease id l hl)

/-! ## What keeps a state whole -/

variable {r' : WorkerRecord}

theorem recordSound_seal (h : RecordSound F id r) (hid : r'.workerId = r.workerId)
    (hcontract : r'.contract = r.contract) (hname : r'.workerName = r.workerName)
    (hpath : r'.workerStatePath = r.workerStatePath) :
    RecordSound F id (sealWorkerRecord F r') where
  keyed := hid.trans h.keyed
  contract := hcontract.trans h.contract
  signed := rfl
  identified := (congrArg (fun x => blank (.str x)) hid).trans h.identified
  named := (congrArg blank hname).trans h.named
  located := (congrArg (fun x => blank (.str x)) hpath).trans h.located

theorem Whole.congr (h : Whole F s) (hcontract : s'.contract = s.contract)
    (hid : s'.coordinatorId = s.coordinatorId) (hname : s'.coordinatorName = s.coordinatorName)
    (hworkers : s'.workers = s.workers) (horder : s'.workerOrder = s.workerOrder)
    (hleases : s'.leases = s.leases) (hleaseOrder : s'.leaseOrder = s.leaseOrder) :
    Whole F s' where
  contract := hcontract.trans h.contract
  identified := (congrArg (fun x => blank (.str x)) hid).trans h.identified
  named := (congrArg (fun x => blank (.str x)) hname).trans h.named
  worker_order := by
    rw [hworkers, horder]
    exact h.worker_order
  lease_order := by
    rw [hleases, hleaseOrder]
    exact h.lease_order
  worker := by
    rw [hworkers]
    exact h.worker
  lease := by
    rw [hleases]
    exact h.lease

/-- The workers that are known stay known, and each of them stays sound. -/
theorem Whole.withWorkers {workers : Dict String WorkerRecord} (h : Whole F s)
    (hknown : ∀ id, workers.contains id = s.workers.contains id)
    (hsound : ∀ id r, workers.get? id = some r → RecordSound F id r) :
    Whole F { s with workers := workers } where
  contract := h.contract
  identified := h.identified
  named := h.named
  worker_order id := by
    rw [hknown]
    exact h.worker_order id
  lease_order := h.lease_order
  worker := hsound
  lease := h.lease

theorem Whole.modify {w : String} {f : WorkerRecord → WorkerRecord} (h : Whole F s)
    (hf : ∀ r, RecordSound F w r → RecordSound F w (f r)) :
    Whole F { s with workers := s.workers.modify w f } := by
  refine h.withWorkers (fun id => Dict.contains_modify s.workers w id f) ?_
  intro id r hr
  rw [Dict.get?_modify] at hr
  split at hr
  · rename_i hid
    obtain ⟨r₀, hr₀, rfl⟩ := Option.map_eq_some_iff.mp hr
    rw [hid]
    exact hf r₀ (h.worker w r₀ hr₀)
  · exact h.worker id r hr

theorem Whole.withLease {id : String} {l : Lease} {order : List String} (h : Whole F s)
    (horder : ∀ id', id' ∈ order ↔ id' = id ∨ id' ∈ s.leaseOrder) (hl : LeaseSound F id l) :
    Whole F { s with leases := s.leases.set id l, leaseOrder := order } where
  contract := h.contract
  identified := h.identified
  named := h.named
  worker_order := h.worker_order
  lease_order id' := by
    rw [Dict.contains_set, horder, h.lease_order]
  worker := h.worker
  lease id' l' hl' := by
    rw [Dict.get?_set] at hl'
    split at hl'
    · rename_i hid
      cases hl'
      rw [hid]
      exact hl
    · exact h.lease id' l' hl'

/-- A lease that is known is sealed again. -/
theorem Whole.resealLease {id : String} {l l' : Lease} (h : Whole F s)
    (hl : s.leases.get? id = some l) (hid : l'.leaseId = l.leaseId)
    (hcontract : l'.contract = l.contract) (hworker : l'.workerId = l.workerId)
    (hmission : l'.missionId = l.missionId) (hentry : l'.entryId = l.entryId) :
    Whole F { s with leases := s.leases.set id (sealDispatchLease F l') } := by
  have hbefore := h.lease id l hl
  have hknown : id ∈ s.leaseOrder := (h.lease_order id).mpr (Dict.contains_iff.mpr ⟨l, hl⟩)
  refine @Whole.withLease F s id (sealDispatchLease F l') s.leaseOrder h ?_ ?_
  · intro id'
    constructor
    · exact .inr
    · rintro (rfl | hmem)
      · exact hknown
      · exact hmem
  · exact
      { keyed := hid.trans hbefore.keyed
        contract := hcontract.trans hbefore.contract
        signed := rfl
        identified := (congrArg (fun x => blank (.str x)) hid).trans hbefore.identified
        worker := (congrArg (fun x => blank (.str x)) hworker).trans hbefore.worker
        mission := (congrArg (fun x => blank (.str x)) hmission).trans hbefore.mission
        entry := (congrArg (fun x => blank (.str x)) hentry).trans hbefore.entry }

variable {published : Published}

theorem publishEvent_ok (h : publishEvent F s published = .ok s') :
    (Signed F s → Signed F s') ∧ s'.workers = s.workers ∧ (Whole F s' ↔ Whole F s) := by
  unfold publishEvent at h
  obtain ⟨event, -, h⟩ := bind_eq_ok.mp h
  cases event with
  | none =>
    cases h
    exact ⟨fun hsigned => hsigned, rfl, Iff.rfl⟩
  | some eventId =>
    cases h
    exact ⟨fun _ => rfl, rfl, fun hwhole => hwhole.congr rfl rfl rfl rfl rfl rfl rfl,
      fun hwhole => hwhole.congr rfl rfl rfl rfl rfl rfl rfl⟩

theorem valid_publish (h : publishEvent F s published = .ok s') (hsigned : Signed F s) :
    validateState F s' = [] ↔ Whole F s ∧ AllHoused s := by
  obtain ⟨hsigned', hworkers, hwhole'⟩ := publishEvent_ok h
  unfold AllHoused
  rw [validateState_eq_nil, ← hworkers, ← hwhole']
  exact ⟨fun hvalid => hvalid.2, fun hvalid => ⟨hsigned' hsigned, hvalid⟩⟩

/-! ## Leases that have expired -/

def OverdueIn (s : CoordinatorState) (now : Instant) (ids : List String) (worker : String) : Prop :=
  ∃ id ∈ ids, ∃ l, s.leases.get? id = some l ∧ l.leaseStatus = .active ∧ isExpired l now = true ∧
    l.workerId = worker

/-- What a round of recovery does to a worker. -/
def Recovered (overdue : Prop) (r r' : WorkerRecord) : Prop :=
  (overdue ∧ r'.activeLeaseId = .none ∧ r'.workerStatus = .available) ∨ (¬overdue ∧ r' = r)

variable {now : Instant}

theorem whole_recoverLease (h : Whole F s) : Whole F (recoverLease F now s id) := by
  unfold recoverLease
  cases hl : s.leases.get? id with
  | none => exact h
  | some l =>
    dsimp only
    split
    · have hlease := @Whole.resealLease F s id l (expiredLease now l) h hl rfl rfl rfl rfl rfl
      have hworker := hlease.modify (w := l.workerId)
        (f := fun r => sealWorkerRecord F (freed .available now r))
        fun r hr => recordSound_seal hr rfl rfl rfl rfl
      exact hworker.congr rfl rfl rfl rfl rfl rfl rfl
    · exact h

theorem recoverLease_leases {id' : String} {l : Lease}
    (hl : (recoverLease F now s id).leases.get? id' = some l) (hactive : l.leaseStatus = .active) :
    s.leases.get? id' = some l := by
  unfold recoverLease at hl
  split at hl
  · exact hl
  · split at hl
    · rw [Dict.get?_set] at hl
      split at hl
      · cases hl
        cases hactive
      · exact hl
    · exact hl

variable {w : String}

/-- The turn of one lease. -/
theorem recoverLease_worker (hr : (recoverLease F now s id).workers.get? w = some r') :
    ∃ r, s.workers.get? w = some r ∧ r'.workerStatePath = r.workerStatePath ∧
      Recovered (OverdueIn s now [id] w) r r' := by
  have hnone : ∀ {l : Lease}, s.leases.get? id = some l →
      ¬(l.leaseStatus = .active ∧ isExpired l now = true ∧ l.workerId = w) →
      ¬OverdueIn s now [id] w := by
    rintro l hl hnot ⟨id', hid', l', hl', hactive, hexpired, hworker⟩
    rw [List.mem_singleton.mp hid', hl] at hl'
    cases hl'
    exact hnot ⟨hactive, hexpired, hworker⟩
  unfold recoverLease at hr
  cases hl : s.leases.get? id with
  | none =>
    rw [hl] at hr
    refine ⟨r', hr, rfl, .inr ⟨?_, rfl⟩⟩
    rintro ⟨id', hid', l', hl', -⟩
    rw [List.mem_singleton.mp hid', hl] at hl'
    cases hl'
  | some l =>
    rw [hl] at hr
    dsimp only at hr
    split at hr
    · rename_i hdue
      rw [Dict.get?_modify] at hr
      split at hr
      · rename_i hw
        obtain ⟨r, hr₀, rfl⟩ := Option.map_eq_some_iff.mp hr
        rw [hw]
        exact ⟨r, hr₀, rfl, .inl ⟨⟨id, List.mem_singleton.mpr rfl, l, hl, hdue.1, hdue.2, rfl⟩,
          rfl, rfl⟩⟩
      · rename_i hw
        exact ⟨r', hr, rfl, .inr ⟨hnone hl fun h => hw h.2.2.symm, rfl⟩⟩
    · rename_i hdue
      exact ⟨r', hr, rfl, .inr ⟨hnone hl fun h => hdue ⟨h.1, h.2.1⟩, rfl⟩⟩

/-- Whether one of the leases is overdue on the worker, once the first of them has had its turn. -/
theorem overdueIn_cons {ids : List String} :
    OverdueIn s now (id :: ids) w ↔
      OverdueIn s now [id] w ∨ OverdueIn (recoverLease F now s id) now ids w := by
  constructor
  · rintro ⟨id', hid', l, hl, hactive, hexpired, hworker⟩
    by_cases hsame : id' = id
    · exact .inl ⟨id', List.mem_singleton.mpr hsame, l, hl, hactive, hexpired, hworker⟩
    · refine .inr ⟨id', (List.mem_cons.mp hid').resolve_left hsame, l, ?_, hactive, hexpired,
        hworker⟩
      unfold recoverLease
      split
      · exact hl
      · split
        · rw [Dict.get?_set, if_neg hsame]
          exact hl
        · exact hl
  · rintro (⟨id', hid', l, hl, hdue⟩ | ⟨id', hid', l, hl, hactive, hexpired, hworker⟩)
    · exact ⟨id', List.mem_cons.mpr (.inl (List.mem_singleton.mp hid')), l, hl, hdue⟩
    · exact ⟨id', List.mem_cons_of_mem id hid', l, recoverLease_leases hl hactive, hactive,
        hexpired, hworker⟩

theorem recoverLease_known :
    (recoverLease F now s id).workers.contains w = s.workers.contains w := by
  unfold recoverLease
  split
  · rfl
  · split
    · exact Dict.contains_modify s.workers _ w _
    · rfl

/-- The induction is on the leases still to be looked at. -/
theorem recoverLoop_ok (now : Instant) (ids : List String) (h : Whole F s) :
    Whole F (ids.foldl (recoverLease F now) s) ∧
      (∀ w, (ids.foldl (recoverLease F now) s).workers.contains w = s.workers.contains w) ∧
      ∀ w r', (ids.foldl (recoverLease F now) s).workers.get? w = some r' →
        ∃ r, s.workers.get? w = some r ∧ r'.workerStatePath = r.workerStatePath ∧
          Recovered (OverdueIn s now ids w) r r' := by
  induction ids generalizing s with
  | nil =>
    refine ⟨h, fun _ => rfl, fun w r' hr => ⟨r', hr, rfl, .inr ⟨?_, rfl⟩⟩⟩
    rintro ⟨id, hid, -⟩
    cases hid
  | cons id ids ih =>
    have hfirst : Whole F (recoverLease F now s id) := whole_recoverLease h
    obtain ⟨hwhole, hknown, hworkers⟩ := ih hfirst
    refine ⟨hwhole, fun w => (hknown w).trans recoverLease_known, fun w r' hr' => ?_⟩
    obtain ⟨r₁, hr₁, hpath₁, hafter⟩ := hworkers w r' hr'
    obtain ⟨r, hr, hpath, hturn⟩ := recoverLease_worker hr₁
    refine ⟨r, hr, hpath₁.trans hpath, ?_⟩
    unfold Recovered
    rw [overdueIn_cons (F := F)]
    rcases hafter with ⟨hoverdue, hfree⟩ | ⟨hnot, rfl⟩
    · exact .inl ⟨.inr hoverdue, hfree⟩
    · rcases hturn with ⟨hoverdue, hfree⟩ | ⟨hnot₁, rfl⟩
      · exact .inl ⟨.inl hoverdue, hfree⟩
      · exact .inr ⟨not_or.mpr ⟨hnot₁, hnot⟩, rfl⟩

/-- A lease of the worker is active and has expired. -/
def Overdue (s : CoordinatorState) (now : Instant) (worker : String) : Prop :=
  ∃ id l, s.leases.get? id = some l ∧ l.leaseStatus = .active ∧ isExpired l now = true ∧
    l.workerId = worker

theorem recover_ok (now : Instant) (h : Whole F s) :
    Whole F (recoverExpiredLeases F s now) ∧
      (∀ w, (recoverExpiredLeases F s now).workers.contains w = s.workers.contains w) ∧
      ∀ w r', (recoverExpiredLeases F s now).workers.get? w = some r' →
        ∃ r, s.workers.get? w = some r ∧ r'.workerStatePath = r.workerStatePath ∧
          Recovered (Overdue s now w) r r' := by
  obtain ⟨hwhole, hknown, hworkers⟩ := recoverLoop_ok now s.leaseOrder h
  refine ⟨hwhole.congr rfl rfl rfl rfl rfl rfl rfl, hknown, fun w r' hr' => ?_⟩
  obtain ⟨r, hr, hpath, hrecovered⟩ := hworkers w r' hr'
  refine ⟨r, hr, hpath, ?_⟩
  have hsame : Overdue s now w ↔ OverdueIn s now s.leaseOrder w := by
    constructor
    · rintro ⟨id, l, hl, hdue⟩
      exact ⟨id, (h.lease_order id).mpr (Dict.contains_iff.mpr ⟨l, hl⟩), l, hl, hdue⟩
    · rintro ⟨id, -, l, hl, hdue⟩
      exact ⟨id, l, hl, hdue⟩
  unfold Recovered
  rw [hsame]
  exact hrecovered

/-! ## Workers by their files -/

/-- The worker is neither failed, stopped, stopping nor paused. -/
def Working (w : WorkerFile) : Prop :=
  w.workerStatus ≠ .failed ∧ w.workerStatus ≠ .stopped ∧ w.workerStatus ≠ .stopping ∧
    w.workerStatus ≠ .paused

/-- The file at the path shows a worker that was seen lately and is working. -/
def ShowsUp (files : WorkerFiles) (now : Instant) (path : String) : Prop :=
  ∃ w, files path = .ok w ∧ isFresh w.lastHeartbeatAt now = true ∧ Working w

theorem refreshedStatus_busy {w : WorkerFile} :
    refreshedStatus r w now = .busy ↔
      isFresh w.lastHeartbeatAt now = true ∧ Working w ∧ r.activeLeaseId.truthy = true := by
  unfold refreshedStatus Working
  cases isFresh w.lastHeartbeatAt now with
  | false => simp
  | true => cases w.workerStatus <;> cases r.activeLeaseId.truthy <;> simp

theorem registeredStatus_busy {w : WorkerFile} :
    registeredStatus w = .busy ↔ Working w ∧ w.currentLease.truthy = true := by
  unfold registeredStatus Working
  cases w.workerStatus <;> cases w.currentLease.truthy <;> simp

/-- What a refresh leaves of a record. -/
structure Refreshed (files : WorkerFiles) (now : Instant) (r r' : WorkerRecord) : Prop where
  path : r'.workerStatePath = r.workerStatePath
  lease : r'.activeLeaseId = r.activeLeaseId
  busy : r'.workerStatus = .busy ↔
    ShowsUp files now r.workerStatePath ∧ r.activeLeaseId.truthy = true

variable {files : WorkerFiles}

theorem refreshRecord_sound (h : refreshRecord F files now r = .ok r') (hsound : RecordSound F id r)
    : RecordSound F id r' ∧ Refreshed files now r r' := by
  unfold refreshRecord at h
  cases hfile : files r.workerStatePath with
  | error reason =>
    rw [hfile] at h
    cases h
    refine ⟨recordSound_seal hsound rfl rfl rfl rfl, rfl, rfl, (fun h => by cases h), ?_⟩
    rintro ⟨⟨w, hw, -⟩, -⟩
    rw [hfile] at hw
    cases hw
  | ok w =>
    rw [hfile] at h
    dsimp only at h
    obtain ⟨loop, -, h⟩ := bind_eq_ok.mp h
    obtain ⟨successful, -, h⟩ := bind_eq_ok.mp h
    obtain ⟨failed, -, h⟩ := bind_eq_ok.mp h
    cases h
    refine ⟨recordSound_seal hsound rfl rfl rfl rfl, rfl, rfl, ?_⟩
    refine refreshedStatus_busy.trans ?_
    constructor
    · rintro ⟨hfresh, hworking, hlease⟩
      exact ⟨⟨w, hfile, hfresh, hworking⟩, hlease⟩
    · rintro ⟨⟨w', hw', hfresh, hworking⟩, hlease⟩
      rw [hfile] at hw'
      cases hw'
      exact ⟨hfresh, hworking, hlease⟩

theorem Refreshed.trans {r₁ r₂ : WorkerRecord} (h : Refreshed files now r r₁)
    (h₂ : Refreshed files now r₁ r₂) : Refreshed files now r r₂ where
  path := h₂.path.trans h.path
  lease := h₂.lease.trans h.lease
  busy := by
    rw [h₂.busy, h.path, h.lease]

/-- The induction is on the workers still to be refreshed; one that comes twice is refreshed twice. -/
theorem refreshLoop_sound {ids : List String} {workers workers' : Dict String WorkerRecord}
    (h : refreshLoop F files now ids workers = .ok workers')
    (hsound : ∀ id r, workers.get? id = some r → RecordSound F id r) :
    (∀ id, workers'.contains id = workers.contains id) ∧
      ∀ id r', workers'.get? id = some r' → RecordSound F id r' ∧
        ∃ r, workers.get? id = some r ∧
          (Refreshed files now r r' ∨ (id ∉ ids ∧ r' = r)) := by
  induction ids generalizing workers with
  | nil =>
    cases h
    exact ⟨fun _ => rfl, fun id r hr => ⟨hsound id r hr, r, hr, .inr ⟨List.not_mem_nil, rfl⟩⟩⟩
  | cons id ids ih =>
    unfold refreshLoop at h
    cases hr : workers.get? id with
    | none => rw [hr] at h; cases h
    | some r =>
      rw [hr] at h
      dsimp only at h
      obtain ⟨r₁, hr₁, h⟩ := bind_eq_ok.mp h
      obtain ⟨hsound₁, hfirst⟩ := refreshRecord_sound hr₁ (hsound id r hr)
      have hset : ∀ id' r', (workers.set id r₁).get? id' = some r' → RecordSound F id' r' := by
        intro id' r' hr'
        rw [Dict.get?_set] at hr'
        split at hr'
        · rename_i hsame
          cases hr'
          rw [hsame]
          exact hsound₁
        · exact hsound id' r' hr'
      obtain ⟨hknown, hafter⟩ := ih h hset
      refine ⟨fun id' => ?_, fun id' r' hr' => ?_⟩
      · rw [hknown, Bool.eq_iff_iff, Dict.contains_set]
        refine or_iff_right_of_imp ?_
        rintro rfl
        exact Dict.contains_iff.mpr ⟨r, hr⟩
      · obtain ⟨hsound', r₂, hr₂, hrest⟩ := hafter id' r' hr'
        refine ⟨hsound', ?_⟩
        rw [Dict.get?_set] at hr₂
        split at hr₂
        · rename_i hsame
          cases hr₂
          rw [hsame]
          refine ⟨r, hr, .inl ?_⟩
          rcases hrest with hrefreshed | ⟨-, rfl⟩
          · exact hfirst.trans hrefreshed
          · exact hfirst
        · rename_i hsame
          refine ⟨r₂, hr₂, hrest.imp_right ?_⟩
          rintro ⟨hmem, hkept⟩
          exact ⟨fun hm => (List.mem_cons.mp hm).elim hsame hmem, hkept⟩

theorem refreshWorkers_ok (h : Whole F s) (hs : refreshWorkers F s files now = .ok s') :
    Signed F s' ∧ Whole F s' ∧ (∀ id, s'.workers.contains id = s.workers.contains id) ∧
      ∀ id r', s'.workers.get? id = some r' →
        ∃ r, s.workers.get? id = some r ∧ Refreshed files now r r' := by
  unfold refreshWorkers at hs
  obtain ⟨workers, hloop, hs⟩ := bind_eq_ok.mp hs
  cases hs
  obtain ⟨hknown, hafter⟩ := refreshLoop_sound hloop h.worker
  have hwhole := h.withWorkers hknown fun id r hr => (hafter id r hr).1
  refine ⟨rfl, hwhole.congr rfl rfl rfl rfl rfl rfl rfl, hknown, fun id r' hr' => ?_⟩
  obtain ⟨-, r, hr, hrefreshed⟩ := hafter id r' hr'
  refine ⟨r, hr, hrefreshed.resolve_right ?_⟩
  rintro ⟨hmem, -⟩
  exact hmem ((h.worker_order id).mpr (Dict.contains_iff.mpr ⟨r, hr⟩))

/-- The record names a lease, but only with spaces. -/
def BlankLease (r : WorkerRecord) : Prop :=
  r.activeLeaseId.truthy = true ∧ blank r.activeLeaseId = true

/-- No worker with a blank lease is found at work. -/
def NoneAtWork (s : CoordinatorState) (files : WorkerFiles) (now : Instant) : Prop :=
  ∀ id r, s.workers.get? id = some r → BlankLease r → ¬ShowsUp files now r.workerStatePath

theorem allHoused_refresh (h : Whole F s) (hs : refreshWorkers F s files now = .ok s') :
    AllHoused s' ↔ NoneAtWork s files now := by
  obtain ⟨-, -, hknown, hworkers⟩ := refreshWorkers_ok h hs
  constructor
  · rintro hhoused id r hr ⟨hnames, hblank⟩ hup
    have hstays : s'.workers.contains id = true := by
      rw [hknown]
      exact Dict.contains_iff.mpr ⟨r, hr⟩
    obtain ⟨r', hr'⟩ := Dict.contains_iff.mp hstays
    obtain ⟨r₀, hr₀, hrefreshed⟩ := hworkers id r' hr'
    rw [hr] at hr₀
    cases hr₀
    have hbusy := hrefreshed.busy.mpr ⟨hup, hnames⟩
    have hlease := hhoused id r' hr' hbusy
    rw [hrefreshed.lease, hblank] at hlease
    cases hlease
  · intro hnone id r' hr' hbusy
    obtain ⟨r, hr, hrefreshed⟩ := hworkers id r' hr'
    obtain ⟨hup, hnames⟩ := hrefreshed.busy.mp hbusy
    rw [hrefreshed.lease, ← Bool.not_eq_true]
    exact fun hblank => hnone id r hr ⟨hnames, hblank⟩ hup

/-! ## The calls -/

/-- A worker with a blank lease is found at work only where a lease on it has expired. -/
def NoneLeftAtWork (s : CoordinatorState) (files : WorkerFiles) (now : Instant) : Prop :=
  ∀ id r, s.workers.get? id = some r → BlankLease r → ShowsUp files now r.workerStatePath →
    Overdue s now id

/-- A worker that is new has a name, and does not come with work of its own. -/
def NewUnengaged (s : CoordinatorState) (files : WorkerFiles) (path : String) : Prop :=
  ∀ w, files path = .ok w → s.workers.contains (Text.strip w.workerId) = false →
    blank w.workerName = false ∧ ¬(Working w ∧ w.currentLease.truthy = true)

def Careful (s : CoordinatorState) : Call → Prop
  | .register path _ _ files _ _ => NewUnengaged s files path
  | .refresh files now => NoneAtWork s files now
  | .select _ files now => NoneLeftAtWork s files now
  | .acquire _ _ _ _ files now _ => NoneLeftAtWork s files now
  | .complete _ _ _ _ _ => True

theorem noneAtWork_recover (h : Whole F s) :
    NoneAtWork (recoverExpiredLeases F s now) files now ↔ NoneLeftAtWork s files now := by
  obtain ⟨-, hknown, hworkers⟩ := recover_ok now h
  constructor
  · intro hnone id r hr hblank hup
    have hstays : (recoverExpiredLeases F s now).workers.contains id = true := by
      rw [hknown]
      exact Dict.contains_iff.mpr ⟨r, hr⟩
    obtain ⟨r', hr'⟩ := Dict.contains_iff.mp hstays
    obtain ⟨r₀, hr₀, -, hrecovered⟩ := hworkers id r' hr'
    rw [hr] at hr₀
    cases hr₀
    rcases hrecovered with ⟨hoverdue, -⟩ | ⟨-, rfl⟩
    · exact hoverdue
    · exact absurd hup (hnone id r' hr' hblank)
  · intro hnone id r' hr' hblank hup
    obtain ⟨r, hr, hpath, hrecovered⟩ := hworkers id r' hr'
    rcases hrecovered with ⟨-, hfree, -⟩ | ⟨hnot, rfl⟩
    · have hnames := hblank.1
      rw [hfree] at hnames
      cases hnames
    · exact hnot (hnone id r' hr hblank hup)

variable {tags : List String}

theorem select_ok {worker : Option WorkerRecord} (h : Whole F s)
    (hs : selectAvailableWorker F s tags files now = .ok (s', worker)) :
    Signed F s' ∧ Whole F s' ∧ (AllHoused s' ↔ NoneLeftAtWork s files now) ∧
      ∀ r, worker = some r →
        s'.workers.get? r.workerId = some r ∧ r.workerStatus = .available := by
  unfold selectAvailableWorker at hs
  obtain ⟨s₁, hrefresh, hs⟩ := bind_eq_ok.mp hs
  obtain ⟨rfl, rfl⟩ := Prod.mk.inj (Except.ok.inj hs)
  have hrecovered : Whole F (recoverExpiredLeases F s now) := (recover_ok now h).1
  obtain ⟨hsigned, hwhole, -, -⟩ := refreshWorkers_ok hrecovered hrefresh
  refine ⟨hsigned, hwhole, ?_, fun r hr => ?_⟩
  · rw [allHoused_refresh hrecovered hrefresh, noneAtWork_recover h]
  · obtain ⟨hmem, hcandidate⟩ := List.mem_filter.mp (bestWorker_mem hr)
    obtain ⟨w, -, hget⟩ := List.mem_filterMap.mp hmem
    have hid := (hwhole.worker w r hget).keyed
    subst hid
    unfold isCandidate at hcandidate
    rw [Bool.and_eq_true, decide_eq_true_eq] at hcandidate
    exact ⟨hget, hcandidate.1⟩

theorem blank_text {x : Val} (h : x.text ≠ "") : blank (.str x.text) = false := by
  rw [blank_str, Val.strip_text]
  exact decide_eq_false h

theorem blank_leaseId (i : LeaseIdentity) : blank (.str (leaseIdOf F i)) = false := by
  rw [blank_str, decide_eq_false_iff_not]
  refine Text.strip_ne_empty (c := 'd') ?_ (by decide)
  unfold leaseIdOf
  rw [String.toList_append]
  exact List.mem_append_left _ (by decide)

/-- A lease handed out on a worker that is available keeps busy workers housed as they are. -/
theorem assign_ok {worker : WorkerRecord} {mission entry : String} {tags : List String}
    {seconds : ℕ} {now : Instant} (h : Whole F s)
    (hworker : s.workers.get? worker.workerId = some worker)
    (havailable : worker.workerStatus = .available) (hmission : blank (.str mission) = false)
    (hentry : blank (.str entry) = false) :
    Whole F (assign F s worker (newLease F s worker mission entry tags seconds now)) ∧
      (AllHoused (assign F s worker (newLease F s worker mission entry tags seconds now)) ↔
        AllHoused s) := by
  generalize hlease : newLease F s worker mission entry tags seconds now = lease
  have hblank : blank (.str lease.leaseId) = false := by
    rw [← hlease]
    exact blank_leaseId _
  have hsound : LeaseSound F lease.leaseId lease := by
    rw [← hlease] at hblank ⊢
    exact ⟨rfl, rfl, rfl, hblank, (h.worker _ worker hworker).identified, hmission, hentry⟩
  have hleased := @Whole.withLease F s lease.leaseId lease (s.leaseOrder ++ [lease.leaseId]) h
    (fun id => by rw [List.mem_append, List.mem_singleton, or_comm]) hsound
  have hbusy := @Whole.modify F _ worker.workerId
    (fun r => sealWorkerRecord F
      { r with
        workerStatus := .busy
        activeLeaseId := .str lease.leaseId
        lastAssignedAt := some lease.acquiredAt
        updatedAt := lease.acquiredAt }) hleased fun r hr => recordSound_seal hr rfl rfl rfl rfl
  refine ⟨hbusy.congr rfl rfl rfl rfl rfl rfl rfl, ?_, ?_⟩
  · intro hhoused id r hr hbusy'
    by_cases hid : id = worker.workerId
    · rw [hid, hworker] at hr
      cases hr
      rw [havailable] at hbusy'
      cases hbusy'
    · refine hhoused id r ?_ hbusy'
      refine (Dict.get?_modify s.workers worker.workerId id _).trans ?_
      rw [if_neg hid]
      exact hr
  · intro hhoused id r hr
    have hr' := (Dict.get?_modify s.workers worker.workerId id _).symm.trans hr
    split at hr'
    · obtain ⟨r₀, -, rfl⟩ := Option.map_eq_some_iff.mp hr'
      exact fun _ => hblank
    · exact hhoused id r hr'

theorem acquire_valid {missionId entryId : Val} {seconds : ℤ} {lease : Option Lease} (h : Whole F s)
    (hs : acquireWorkerLease F s missionId entryId tags seconds files now published =
      .ok (s', lease)) : validateState F s' = [] ↔ NoneLeftAtWork s files now := by
  unfold acquireWorkerLease at hs
  split at hs
  · cases hs
  rename_i hmission
  split at hs
  · cases hs
  rename_i hentry
  split at hs
  · cases hs
  obtain ⟨⟨s₁, worker⟩, hselect, hs⟩ := bind_eq_ok.mp hs
  obtain ⟨-, hwhole, hhoused, hworker⟩ := select_ok h hselect
  rw [← hhoused]
  cases worker with
  | none =>
    obtain ⟨s₂, hpublish, hs⟩ := bind_eq_ok.mp hs
    obtain ⟨rfl, -⟩ := Prod.mk.inj (Except.ok.inj hs)
    obtain ⟨-, hworkers, hafter⟩ := publishEvent_ok hpublish
    have hidle : Whole F { s₁ with coordinatorStatus := .idle, updatedAt := timeText now } :=
      hwhole.congr rfl rfl rfl rfl rfl rfl rfl
    have hsealed : Whole F (sealState F s₂) :=
      (hafter.mpr hidle).congr rfl rfl rfl rfl rfl rfl rfl
    have hsame : AllHoused (sealState F s₂) ↔ AllHoused s₁ := by
      unfold AllHoused
      change (∀ id r, s₂.workers.get? id = some r → Housed r) ↔ _
      rw [hworkers]
    rw [validateState_eq_nil, hsame]
    exact ⟨fun hvalid => hvalid.2.2, fun hall => ⟨rfl, hsealed, hall⟩⟩
  | some worker =>
    obtain ⟨s₂, hpublish, hs⟩ := bind_eq_ok.mp hs
    obtain ⟨rfl, -⟩ := Prod.mk.inj (Except.ok.inj hs)
    obtain ⟨hget, havailable⟩ := hworker worker rfl
    obtain ⟨hassigned, hsame⟩ := @assign_ok F s₁ worker missionId.text entryId.text tags
      seconds.toNat now hwhole hget havailable (blank_text hmission) (blank_text hentry)
    rw [valid_publish hpublish rfl, hsame]
    exact and_iff_right hassigned

theorem complete_valid {leaseId : String} {result : Val} {failed : Bool}
    (hvalid : validateState F s = [])
    (hs : completeWorkerLease F s leaseId result failed now published = .ok s') :
    validateState F s' = [] := by
  obtain ⟨-, hwhole, hhoused⟩ := validateState_eq_nil.mp hvalid
  unfold completeWorkerLease at hs
  cases hl : s.leases.get? leaseId with
  | none => rw [hl] at hs; cases hs
  | some l =>
    rw [hl] at hs
    dsimp only at hs
    split at hs
    · cases hs
      exact hvalid
    · have hlease := @Whole.resealLease F s leaseId l (endedLease result failed now l) hwhole hl
        rfl rfl rfl rfl rfl
      have hworker := @Whole.modify F _ l.workerId
        (fun r => sealWorkerRecord F
          { freed (if failed then .failed else .available) now r with
            lastCompletedAt := some (timeText now)
            lastFailure := (endedLease result failed now l).failure }) hlease
        fun r hr => recordSound_seal hr rfl rfl rfl rfl
      refine (valid_publish hs rfl).mpr ⟨hworker.congr rfl rfl rfl rfl rfl rfl rfl, ?_⟩
      intro id r hr
      have hr' := (Dict.get?_modify s.workers l.workerId id _).symm.trans hr
      split at hr'
      · obtain ⟨r₀, -, rfl⟩ := Option.map_eq_some_iff.mp hr'
        cases failed <;> exact fun hbusy => by cases hbusy
      · exact hhoused id r hr'

/-! ## A new worker -/

def Call.Resolved : Call → Prop
  | .register path _ _ _ _ _ => blank (.str path) = false
  | _ => True

theorem whole_add (h : Whole F s) :
    Whole F { s with workers := s.workers.set id r, workerOrder := s.workerOrder ++ [id] } ↔
      RecordSound F id r := by
  constructor
  · intro hadded
    refine hadded.worker id r ?_
    rw [Dict.get?_set, if_pos rfl]
  · intro hsound
    refine ⟨h.contract, h.identified, h.named, ?_, h.lease_order, ?_, h.lease⟩
    · intro id'
      rw [Dict.contains_set, List.mem_append, List.mem_singleton, h.worker_order, or_comm]
    · intro id' r' hr'
      rw [Dict.get?_set] at hr'
      split at hr'
      · rename_i hid
        cases hr'
        rw [hid]
        exact hsound
      · exact h.worker id' r' hr'

theorem allHoused_add {id : String} {r : WorkerRecord} {order : List String} (h : AllHoused s) :
    AllHoused { s with workers := s.workers.set id r, workerOrder := order } ↔ Housed r := by
  constructor
  · intro hadded
    refine hadded id r ?_
    rw [Dict.get?_set, if_pos rfl]
  · intro hhoused id' r' hr'
    rw [Dict.get?_set] at hr'
    split at hr'
    · cases hr'
      exact hhoused
    · exact h id' r' hr'

theorem register_valid {path : String} {weight : ℤ} (hvalid : validateState F s = [])
    (hpath : blank (.str path) = false)
    (hs : registerWorker F s path weight tags files now published = .ok s') :
    validateState F s' = [] ↔ NewUnengaged s files path := by
  obtain ⟨-, hwhole, hhoused⟩ := validateState_eq_nil.mp hvalid
  unfold registerWorker at hs
  split at hs
  · cases hs
  split at hs
  · cases hs
  rename_i w hfile
  dsimp only at hs
  split at hs
  · cases hs
  rename_i hid
  have hthis : NewUnengaged s files path ↔ (s.workers.contains (Text.strip w.workerId) = false →
      blank w.workerName = false ∧ ¬(Working w ∧ w.currentLease.truthy = true)) := by
    constructor
    · exact fun hnew => hnew w hfile
    · intro hnew w' hw'
      rw [hfile] at hw'
      cases hw'
      exact hnew
  rw [hthis]
  cases hknown : s.workers.get? (Text.strip w.workerId) with
  | some existing =>
    rw [hknown] at hs
    dsimp only at hs
    split at hs
    · cases hs
    · cases hs
      refine ⟨fun _ hnew => ?_, fun _ => hvalid⟩
      rw [Dict.contains_iff.mpr ⟨existing, hknown⟩] at hnew
      cases hnew
  | none =>
    rw [hknown] at hs
    dsimp only at hs
    have hfresh : s.workers.contains (Text.strip w.workerId) = false := by
      unfold Dict.contains
      rw [hknown]
      rfl
    obtain ⟨loop, -, hs⟩ := bind_eq_ok.mp hs
    obtain ⟨successful, -, hs⟩ := bind_eq_ok.mp hs
    obtain ⟨failed, -, hs⟩ := bind_eq_ok.mp hs
    rw [valid_publish hs rfl, imp_iff_right hfresh, ← registeredStatus_busy]
    generalize hrecord : sealWorkerRecord F
      { contract := workerRecordContract, workerId := Text.strip w.workerId
        workerName := w.workerName, workerStatePath := path, workerStatus := registeredStatus w
        weight, tags := cleanTags tags, registeredAt := timeText now, updatedAt := timeText now
        lastHeartbeatAt := w.lastHeartbeatAt, lastSeenLoopIteration := loop
        successfulDispatches := successful, failedDispatches := failed
        lastFailure := w.failure, workerRecordFingerprint := "" } = record
    have hsound : RecordSound F (Text.strip w.workerId) record ↔ blank w.workerName = false := by
      have hidentified : blank (.str (Text.strip w.workerId)) = false := by
        rw [blank_str, Text.strip_strip, decide_eq_false_iff_not]
        exact hid
      rw [← hrecord]
      exact ⟨fun h => h.named, fun hname => ⟨rfl, rfl, rfl, hidentified, hname, hpath⟩⟩
    have hhouse : Housed record ↔ ¬registeredStatus w = .busy := by
      rw [← hrecord]
      exact ⟨fun h hbusy => (by have := h hbusy; cases this), fun h hbusy => absurd hbusy h⟩
    have hall := @allHoused_add s (Text.strip w.workerId) record
      (s.workerOrder ++ [Text.strip w.workerId]) hhoused
    refine and_congr (Iff.trans ?_ hsound) (hall.trans hhouse)
    rw [← whole_add hwhole]
    exact ⟨fun h => h.congr rfl rfl rfl rfl rfl rfl rfl,
      fun h => h.congr rfl rfl rfl rfl rfl rfl rfl⟩

/-! ## Every call -/

/-- A call that does not raise keeps a valid state valid exactly when it is careful. -/
theorem valid_iff_careful {c : Call} (hvalid : validateState F s = []) (hpath : c.Resolved)
    (hs : c.perform F s = .ok s') : validateState F s' = [] ↔ Careful s c := by
  obtain ⟨-, hwhole, -⟩ := validateState_eq_nil.mp hvalid
  cases c with
  | register path weight tags files now published => exact register_valid hvalid hpath hs
  | refresh files now =>
    obtain ⟨hsigned, hwhole', -, -⟩ := refreshWorkers_ok hwhole hs
    change _ ↔ NoneAtWork s files now
    rw [← allHoused_refresh hwhole hs, validateState_eq_nil]
    exact ⟨fun h => h.2.2, fun h => ⟨hsigned, hwhole', h⟩⟩
  | select tags files now =>
    change (selectAvailableWorker F s tags files now).map Prod.fst = .ok s' at hs
    cases hselect : selectAvailableWorker F s tags files now with
    | error e => rw [hselect] at hs; cases hs
    | ok answer =>
      rw [hselect] at hs
      cases hs
      obtain ⟨hsigned, hwhole', hhoused, -⟩ := select_ok hwhole hselect
      change _ ↔ NoneLeftAtWork s files now
      rw [← hhoused, validateState_eq_nil]
      exact ⟨fun h => h.2.2, fun h => ⟨hsigned, hwhole', h⟩⟩
  | acquire missionId entryId tags seconds files now published =>
    change (acquireWorkerLease F s missionId entryId tags seconds files now published).map Prod.fst =
      .ok s' at hs
    cases hacquire : acquireWorkerLease F s missionId entryId tags seconds files now published with
    | error e => rw [hacquire] at hs; cases hs
    | ok answer =>
      rw [hacquire] at hs
      cases hs
      exact acquire_valid hwhole hacquire
  | complete leaseId result failed now published =>
    exact ⟨fun _ => trivial, fun _ => complete_valid hvalid hs⟩

/-- A worker in the middle of a dispatch of its own. -/
def engagedWorker : WorkerFile where
  workerId := "runtime-worker-1"
  workerName := .str "worker"
  workerStatus := .running
  currentLease := .dict [("lease_id", .str "runtime-lease-1"), ("session_id", .str "session")]
  lastHeartbeatAt := some 0
  loopIteration := .ok 1
  successfulDispatches := .ok 0
  failedDispatches := .ok 0
  failure := .none

/-- A digest that tells nothing apart. -/
def blindDigest : CoordinatorDigest := ⟨fun _ => "", fun _ => "", fun _ => "", fun _ => ""⟩

def registerEngaged : Call :=
  .register "/data/worker.json" 100 [] (fun _ => .ok engagedWorker) 0 (.ok none)

/-- A new coordinator that registers an engaged worker is refused by its own validator. -/
theorem engaged_worker_refused :
    ∃ s s', createState blindDigest "coordinator" "default" 0 = .ok s ∧
      validateState blindDigest s = [] ∧ registerEngaged.perform blindDigest s = .ok s' ∧
      validateState blindDigest s' = ["runtime-worker-1:busy_worker_active_lease_required"] :=
  ⟨_, _, rfl, by decide, rfl, by decide⟩

theorem valid_iff_careful_sample :
    ∃ s s', createState blindDigest "coordinator" "default" 0 = .ok s ∧
      registerEngaged.perform blindDigest s = .ok s' ∧
      (validateState blindDigest s' = [] ↔ Careful s registerEngaged) :=
  ⟨_, _, rfl, rfl, valid_iff_careful (by decide)
    (show blank (.str "/data/worker.json") = false by decide) rfl⟩

end Coordinator
end ZeroRuntime
