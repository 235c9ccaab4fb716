import ZeroRuntime.Lib.Dict
import ZeroRuntime.Lib.Machine
import ZeroRuntime.Lib.Reasons
import ZeroRuntime.Lib.Sorted
import ZeroRuntime.Sessions.Operator

/-!
# ZeroRuntime.Coordinator.Model

The dispatch coordinator (`core/runtime/runtime_dispatch_coordinator.py`): the workers it knows, the
leases it hands out on them, its counters, and what its validator finds.

* `WorkerFiles` are the state files of the workers, which others write at any time.
* `CoordinatorDigest` stands for `fingerprint`, on records, leases, states and identities of leases.
* What publishing on the event bus answers is an argument of every call that publishes.
-/

namespace ZeroRuntime
namespace Coordinator

open Lib Sessions

/-! ## Worker files -/

/-- `worker_status` of a worker's own state. -/
inductive ServiceStatus where
  | created | starting | running | idle | paused | stopping | stopped | blocked | failed
deriving DecidableEq, Repr

/-- What a worker's state file holds. Each counter is what `int(x or 0)` makes of its field, and a
heartbeat that does not parse is `none`. -/
structure WorkerFile where
  workerId : String
  workerName : Val
  workerStatus : ServiceStatus
  currentLease : Val
  lastHeartbeatAt : Option Instant
  loopIteration : Except Err ℤ
  successfulDispatches : Except Err ℤ
  failedDispatches : Except Err ℤ
  failure : Val

/-- `load_worker_state` at each path; the error is the text of the `ValueError`. -/
abbrev WorkerFiles := String → Except String WorkerFile

/-! ## Records -/

inductive WorkerStatus where
  | registered | available | busy | paused | stale | failed | stopped
deriving DecidableEq, Repr

inductive LeaseStatus where
  | active | completed | released | expired | failed
deriving DecidableEq, Repr

inductive CoordinatorStatus where
  | created | running | idle | paused | stopped | blocked | failed
deriving DecidableEq, Repr

structure WorkerRecord where
  contract : String
  workerId : String
  workerName : Val
  workerStatePath : String
  workerStatus : WorkerStatus
  weight : ℤ
  tags : List String
  registeredAt : ℕ
  updatedAt : ℕ
  lastHeartbeatAt : Option Instant
  lastSeenLoopIteration : ℤ
  successfulDispatches : ℤ
  failedDispatches : ℤ
  activeLeaseId : Val := .none
  lastAssignedAt : Option ℕ := none
  lastCompletedAt : Option ℕ := none
  lastFailure : Val
  workerRecordFingerprint : String

/-- An `expiresAt` that does not parse is `none`. -/
structure Lease where
  contract : String
  leaseId : String
  leaseStatus : LeaseStatus
  workerId : String
  workerName : Val
  missionId : String
  entryId : String
  requiredTags : List String
  acquiredAt : ℕ
  expiresAt : Option ℕ
  completedAt : Option ℕ := none
  result : Val := .none
  failure : Val := .none
  leaseFingerprint : String

structure CoordinatorState where
  contract : String
  coordinatorId : String
  coordinatorName : String
  coordinatorStatus : CoordinatorStatus
  workers : Dict String WorkerRecord
  workerOrder : List String
  leases : Dict String Lease
  leaseOrder : List String
  createdAt : ℕ
  updatedAt : ℕ
  lastEventId : Option String
  registeredWorkerCount : ℕ
  availableWorkerCount : ℕ
  busyWorkerCount : ℕ
  staleWorkerCount : ℕ
  failedWorkerCount : ℕ
  dispatchCount : ℕ
  completedDispatchCount : ℕ
  failedDispatchCount : ℕ
  recoveredLeaseCount : ℕ
  coordinatorFingerprint : String

/-- What the id of a lease is made from. -/
structure LeaseIdentity where
  coordinatorId : String
  workerId : String
  missionId : String
  entryId : String
  acquiredAt : ℕ
deriving DecidableEq, Repr

structure CoordinatorDigest where
  record : WorkerRecord → String
  lease : Lease → String
  state : CoordinatorState → String
  identity : LeaseIdentity → String

/-- `CONTRACT` -/
def coordinatorContract : String := "zero.runtime.dispatch_coordinator.v1"

def workerRecordContract : String := "zero.runtime.dispatch_coordinator.worker_record.v1"

def leaseContract : String := "zero.runtime.dispatch_coordinator.worker_lease.v1"

def heartbeatFreshSeconds : ℕ := 90

/-- `not str(x or "").strip()` -/
def blank (x : Val) : Bool := x.text = ""

section Digest

variable (F : CoordinatorDigest)

/-! ## Seals and validation -/

def unsignedRecord (r : WorkerRecord) : WorkerRecord := { r with workerRecordFingerprint := "" }

def sealWorkerRecord (r : WorkerRecord) : WorkerRecord :=
  { r with workerRecordFingerprint := F.record (unsignedRecord r) }

def validateWorkerRecord (r : WorkerRecord) : List String :=
  (if r.contract = workerRecordContract then [] else ["invalid_dispatch_worker_record_contract"]) ++
  (if r.workerRecordFingerprint = F.record (unsignedRecord r) then []
    else ["dispatch_worker_record_fingerprint_mismatch"]) ++
  (if blank (.str r.workerId) then ["worker_id_required"] else []) ++
  (if blank r.workerName then ["worker_name_required"] else []) ++
  (if blank (.str r.workerStatePath) then ["worker_state_path_required"] else []) ++
  (if r.workerStatus = .busy ∧ blank r.activeLeaseId then ["busy_worker_active_lease_required"]
    else [])

def unsignedLease (l : Lease) : Lease := { l with leaseFingerprint := "" }

def sealDispatchLease (l : Lease) : Lease := { l with leaseFingerprint := F.lease (unsignedLease l) }

def validateDispatchLease (l : Lease) : List String :=
  (if l.contract = leaseContract then [] else ["invalid_dispatch_worker_lease_contract"]) ++
  (if l.leaseFingerprint = F.lease (unsignedLease l) then []
    else ["dispatch_worker_lease_fingerprint_mismatch"]) ++
  (if blank (.str l.leaseId) then ["lease_id_required"] else []) ++
  (if blank (.str l.workerId) then ["worker_id_required"] else []) ++
  (if blank (.str l.missionId) then ["mission_id_required"] else []) ++
  (if blank (.str l.entryId) then ["entry_id_required"] else [])

def unsignedState (s : CoordinatorState) : CoordinatorState :=
  { s with coordinatorFingerprint := "" }

/-- `seal_dispatch_coordinator_state` -/
def sealState (s : CoordinatorState) : CoordinatorState :=
  { s with coordinatorFingerprint := F.state (unsignedState s) }

def workerReasons (workers : Dict String WorkerRecord) : String → List String :=
  keyedReasons "dispatch_worker_identity_mismatch:" WorkerRecord.workerId (validateWorkerRecord F)
    workers

def leaseReasons (leases : Dict String Lease) : String → List String :=
  keyedReasons "dispatch_lease_identity_mismatch:" Lease.leaseId (validateDispatchLease F) leases

/-- `validate_dispatch_coordinator_state` -/
def validateState (s : CoordinatorState) : List String :=
  (if s.contract = coordinatorContract then [] else ["invalid_dispatch_coordinator_contract"]) ++
  (if s.coordinatorFingerprint = F.state (unsignedState s) then []
    else ["dispatch_coordinator_fingerprint_mismatch"]) ++
  (if blank (.str s.coordinatorId) then ["dispatch_coordinator_id_required"] else []) ++
  (if blank (.str s.coordinatorName) then ["dispatch_coordinator_name_required"] else []) ++
  (if SameKeys s.workerOrder s.workers.keys then []
    else ["dispatch_coordinator_worker_order_mismatch"]) ++
  (if SameKeys s.leaseOrder s.leases.keys then []
    else ["dispatch_coordinator_lease_order_mismatch"]) ++
  s.workerOrder.flatMap (workerReasons F s.workers) ++
  s.leaseOrder.flatMap (leaseReasons F s.leases)

/-! ## The calls -/

/-- `create_dispatch_coordinator_state`, under the id made from its name and path. -/
def createState (coordinatorId coordinatorName : String) (now : Instant) :
    Except Err CoordinatorState :=
  let name := Text.strip coordinatorName
  if name = "" then .error (.valueError "dispatch_coordinator_name_required")
  else
    .ok (sealState F
      { contract := coordinatorContract, coordinatorId, coordinatorName := name
        coordinatorStatus := .created, workers := Dict.empty, workerOrder := []
        leases := Dict.empty, leaseOrder := [], createdAt := timeText now
        updatedAt := timeText now, lastEventId := none, registeredWorkerCount := 0
        availableWorkerCount := 0, busyWorkerCount := 0, staleWorkerCount := 0
        failedWorkerCount := 0, dispatchCount := 0, completedDispatchCount := 0
        failedDispatchCount := 0, recoveredLeaseCount := 0, coordinatorFingerprint := "" })

/-- What publishing answers: nothing without a bus, the id of the event, or what it raises. -/
abbrev Published := Except Err (Option String)

def publishEvent (s : CoordinatorState) (published : Published) : Except Err CoordinatorState := do
  match ← published with
  | none => .ok s
  | some eventId => .ok (sealState F { s with lastEventId := some eventId })

def recountWorkers (s : CoordinatorState) : CoordinatorState :=
  let count (status : WorkerStatus) := (s.workers.values.filter (·.workerStatus = status)).length
  sealState F
    { s with
      registeredWorkerCount := s.workers.values.length
      availableWorkerCount := count .available
      busyWorkerCount := count .busy
      staleWorkerCount := count .stale
      failedWorkerCount := count .failed }

/-- `sorted({str(item).strip() for item in tags if str(item).strip()})` -/
def cleanTags (tags : List String) : List String :=
  sortedSet ((tags.map Text.strip).filter (· ≠ ""))

/-- The status a new worker is recorded with. -/
def registeredStatus (w : WorkerFile) : WorkerStatus :=
  match w.workerStatus with
  | .failed => .failed
  | .stopped | .stopping => .stopped
  | .paused => .paused
  | _ => if w.currentLease.truthy then .busy else .available

def registerWorker (s : CoordinatorState) (path : String) (weight : ℤ) (tags : List String)
    (files : WorkerFiles) (now : Instant) (published : Published) : Except Err CoordinatorState :=
  if weight < 1 ∨ 1000 < weight then .error (.valueError "invalid_worker_weight")
  else
    match files path with
    | .error reason => .error (.valueError reason)
    | .ok w =>
      let workerId := Text.strip w.workerId
      if workerId = "" then .error (.valueError "worker_id_required")
      else
        match s.workers.get? workerId with
        | some existing =>
          if existing.workerStatePath ≠ path then .error (.valueError "worker_state_path_mismatch")
          else .ok s
        | none => do
          let lastSeenLoopIteration ← w.loopIteration
          let successfulDispatches ← w.successfulDispatches
          let failedDispatches ← w.failedDispatches
          let record := sealWorkerRecord F
            { contract := workerRecordContract, workerId, workerName := w.workerName
              workerStatePath := path, workerStatus := registeredStatus w, weight
              tags := cleanTags tags, registeredAt := timeText now, updatedAt := timeText now
              lastHeartbeatAt := w.lastHeartbeatAt, lastSeenLoopIteration, successfulDispatches
              failedDispatches, lastFailure := w.failure, workerRecordFingerprint := "" }
          publishEvent F
            (recountWorkers F
              { s with
                workers := s.workers.set workerId record
                workerOrder := s.workerOrder ++ [workerId]
                updatedAt := timeText now })
            published

/-- `(current - heartbeat).total_seconds() <= HEARTBEAT_FRESH_SECONDS` -/
def isFresh (heartbeat : Option Instant) (now : Instant) : Bool :=
  match heartbeat with
  | some at' => now ≤ at' + heartbeatFreshSeconds * 1000000
  | none => false

def refreshedStatus (r : WorkerRecord) (w : WorkerFile) (now : Instant) : WorkerStatus :=
  if isFresh w.lastHeartbeatAt now = false then .stale
  else
    match w.workerStatus with
    | .failed => .failed
    | .stopped | .stopping => .stopped
    | .paused => .paused
    | _ => if r.activeLeaseId.truthy then .busy else .available

/-- A known worker as its file shows it. -/
def refreshRecord (files : WorkerFiles) (now : Instant) (r : WorkerRecord) :
    Except Err WorkerRecord :=
  match files r.workerStatePath with
  | .error reason =>
    .ok (sealWorkerRecord F
      { r with
        workerStatus := .failed
        lastFailure := .dict [("reasons", .list [.str ("ValueError:" ++ reason)])]
        updatedAt := timeText now })
  | .ok w => do
    let lastSeenLoopIteration ← w.loopIteration
    let successfulDispatches ← w.successfulDispatches
    let failedDispatches ← w.failedDispatches
    .ok (sealWorkerRecord F
      { r with
        workerStatus := refreshedStatus r w now
        lastHeartbeatAt := w.lastHeartbeatAt
        lastSeenLoopIteration, successfulDispatches, failedDispatches
        lastFailure := w.failure
        updatedAt := timeText now })

/-- The loop of `refresh_workers`. -/
def refreshLoop (files : WorkerFiles) (now : Instant) :
    List String → Dict String WorkerRecord → Except Err (Dict String WorkerRecord)
  | [], workers => .ok workers
  | id :: ids, workers =>
    match workers.get? id with
    | none => .error .keyError
    | some r => do
      let r ← refreshRecord F files now r
      refreshLoop files now ids (workers.set id r)

def refreshWorkers (s : CoordinatorState) (files : WorkerFiles) (now : Instant) :
    Except Err CoordinatorState := do
  let workers ← refreshLoop F files now s.workerOrder s.workers
  .ok (recountWorkers F { s with workers, updatedAt := timeText now })

def isExpired (l : Lease) (now : Instant) : Bool :=
  match l.expiresAt with
  | some at' => reached now at'
  | none => true

def freed (status : WorkerStatus) (now : Instant) (r : WorkerRecord) : WorkerRecord :=
  { r with activeLeaseId := .none, workerStatus := status, updatedAt := timeText now }

def expiredLease (now : Instant) (l : Lease) : Lease :=
  { l with
    leaseStatus := .expired
    completedAt := some (timeText now)
    failure := .dict [("reason", .str "dispatch_worker_lease_expired")] }

/-- One turn of the loop of `_recover_expired_leases`. -/
def recoverLease (now : Instant) (s : CoordinatorState) (id : String) : CoordinatorState :=
  match s.leases.get? id with
  | none => s
  | some l =>
    if l.leaseStatus = .active ∧ isExpired l now = true then
      { s with
        leases := s.leases.set id (sealDispatchLease F (expiredLease now l))
        workers := s.workers.modify l.workerId
          fun r => sealWorkerRecord F (freed .available now r)
        recoveredLeaseCount := s.recoveredLeaseCount + 1 }
    else s

def recoverExpiredLeases (s : CoordinatorState) (now : Instant) : CoordinatorState :=
  let recovered := s.leaseOrder.foldl (recoverLease F now) s
  recountWorkers F { recovered with updatedAt := timeText now }

/-- `int(x.get("weight") or 100)` -/
def effectiveWeight (r : WorkerRecord) : ℤ := if r.weight = 0 then 100 else r.weight

/-- `_worker_score(a) < _worker_score(b)` -/
def scoresBefore (a b : WorkerRecord) : Bool :=
  let penalty (r : WorkerRecord) : ℕ := if r.activeLeaseId.truthy then 1 else 0
  let score (r : WorkerRecord) : ℤ :=
    -(effectiveWeight r + (r.successfulDispatches - r.failedDispatches))
  if penalty a ≠ penalty b then penalty a < penalty b
  else if score a ≠ score b then score a < score b
  else a.workerId ≠ b.workerId && decide (TextLe a.workerId b.workerId)

/-- The first of the records that score best. -/
def bestWorker : List WorkerRecord → Option WorkerRecord
  | [] => none
  | r :: rs =>
    match bestWorker rs with
    | none => some r
    | some best => if scoresBefore best r then some best else some r

theorem bestWorker_mem {rs : List WorkerRecord} {r : WorkerRecord} (h : bestWorker rs = some r) :
    r ∈ rs := by
  induction rs with
  | nil => cases h
  | cons a rs ih =>
    unfold bestWorker at h
    cases hbest : bestWorker rs with
    | none =>
      rw [hbest] at h
      cases h
      exact List.mem_cons_self
    | some best =>
      rw [hbest] at h
      dsimp only at h
      split at h
      · cases h
        exact List.mem_cons_of_mem a (ih hbest)
      · cases h
        exact List.mem_cons_self

def isCandidate (required : List String) (r : WorkerRecord) : Bool :=
  r.workerStatus = .available && required.all r.tags.contains

def selectAvailableWorker (s : CoordinatorState) (requiredTags : List String) (files : WorkerFiles)
    (now : Instant) : Except Err (CoordinatorState × Option WorkerRecord) := do
  let s ← refreshWorkers F (recoverExpiredLeases F s now) files now
  let candidates := (s.workerOrder.filterMap s.workers.get?).filter
    (isCandidate (cleanTags requiredTags))
  .ok (s, bestWorker candidates)

def leaseIdOf (i : LeaseIdentity) : String := "dispatch-worker-lease-" ++ F.identity i

def newLease (s : CoordinatorState) (worker : WorkerRecord) (mission entry : String)
    (requiredTags : List String) (leaseSeconds : ℕ) (now : Instant) : Lease :=
  let acquiredAt := timeText now
  sealDispatchLease F
    { contract := leaseContract
      leaseId := leaseIdOf F
        { coordinatorId := s.coordinatorId, workerId := worker.workerId, missionId := mission
          entryId := entry, acquiredAt }
      leaseStatus := .active, workerId := worker.workerId, workerName := worker.workerName
      missionId := mission, entryId := entry, requiredTags := cleanTags requiredTags, acquiredAt
      expiresAt := some (acquiredAt + leaseSeconds), leaseFingerprint := "" }

/-- The state with a lease handed out on a worker. -/
def assign (s : CoordinatorState) (worker : WorkerRecord) (lease : Lease) : CoordinatorState :=
  recountWorkers F
    { s with
      leases := s.leases.set lease.leaseId lease
      leaseOrder := s.leaseOrder ++ [lease.leaseId]
      workers := s.workers.modify worker.workerId fun r =>
        sealWorkerRecord F
          { r with
            workerStatus := .busy
            activeLeaseId := .str lease.leaseId
            lastAssignedAt := some lease.acquiredAt
            updatedAt := lease.acquiredAt }
      dispatchCount := s.dispatchCount + 1
      coordinatorStatus := .running
      updatedAt := lease.acquiredAt }

def acquireWorkerLease (s : CoordinatorState) (missionId entryId : Val) (requiredTags : List String)
    (leaseSeconds : ℤ) (files : WorkerFiles) (now : Instant) (published : Published) :
    Except Err (CoordinatorState × Option Lease) :=
  if missionId.text = "" then .error (.valueError "mission_id_required")
  else if entryId.text = "" then .error (.valueError "entry_id_required")
  else if leaseSeconds < 1 then .error (.valueError "invalid_dispatch_worker_lease_seconds")
  else do
    let (s, worker) ← selectAvailableWorker F s requiredTags files now
    match worker with
    | none => do
      let s ← publishEvent F { s with coordinatorStatus := .idle, updatedAt := timeText now } published
      .ok (sealState F s, none)
    | some worker => do
      let lease := newLease F s worker missionId.text entryId.text requiredTags leaseSeconds.toNat now
      let s ← publishEvent F (assign F s worker lease) published
      .ok (s, some lease)

/-- A lease that its holder has given back. -/
def endedLease (result : Val) (failed : Bool) (now : Instant) (l : Lease) : Lease :=
  { l with
    leaseStatus := if failed then .failed else .completed
    completedAt := some (timeText now)
    result := .dict result.entries
    failure := if failed then Val.getIn "failure" result.entries else .none }

def completeWorkerLease (s : CoordinatorState) (leaseId : String) (result : Val) (failed : Bool)
    (now : Instant) (published : Published) : Except Err CoordinatorState :=
  match s.leases.get? leaseId with
  | none => .error (.valueError "dispatch_worker_lease_not_found")
  | some l =>
    if l.leaseStatus ≠ .active then .ok s
    else
      let lease := sealDispatchLease F (endedLease result failed now l)
      publishEvent F
        (recountWorkers F
          { s with
            leases := s.leases.set leaseId lease
            workers := s.workers.modify l.workerId fun r =>
              sealWorkerRecord F
                { freed (if failed then .failed else .available) now r with
                  lastCompletedAt := some (timeText now)
                  lastFailure := lease.failure }
            failedDispatchCount := s.failedDispatchCount + if failed then 1 else 0
            completedDispatchCount := s.completedDispatchCount + if failed then 0 else 1
            updatedAt := timeText now })
        published

/-! ## Runs -/

inductive Call where
  | register (path : String) (weight : ℤ) (tags : List String) (files : WorkerFiles) (now : Instant)
    (published : Published)
  | refresh (files : WorkerFiles) (now : Instant)
  | select (requiredTags : List String) (files : WorkerFiles) (now : Instant)
  | acquire (missionId entryId : Val) (requiredTags : List String) (leaseSeconds : ℤ)
    (files : WorkerFiles) (now : Instant) (published : Published)
  | complete (leaseId : String) (result : Val) (failed : Bool) (now : Instant)
    (published : Published)

def Call.perform (s : CoordinatorState) : Call → Except Err CoordinatorState
  | .register path weight tags files now published =>
    registerWorker F s path weight tags files now published
  | .refresh files now => refreshWorkers F s files now
  | .select requiredTags files now =>
    (selectAvailableWorker F s requiredTags files now).map Prod.fst
  | .acquire missionId entryId requiredTags leaseSeconds files now published =>
    (acquireWorkerLease F s missionId entryId requiredTags leaseSeconds files now published).map
      Prod.fst
  | .complete leaseId result failed now published =>
    completeWorkerLease F s leaseId result failed now published

/-- The coordinator as a system: a call that raises leaves the state to the caller as it was. -/
def machine : Machine CoordinatorState Call (Except Err Unit) where
  step s c :=
    match c.perform F s with
    | .ok s' => (.ok (), s')
    | .error e => (.error e, s)

end Digest

end Coordinator
end ZeroRuntime
