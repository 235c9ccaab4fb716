import ZeroRuntime.SessionScheduler.Fenced

/-!
# ZeroRuntime.SessionScheduler.Worker

The worker of the session scheduler (`core/runtime/runtime_worker_service.py`), whose state is a
file of its own.

* `Disk`: the file of the worker, the file of the scheduler and the files of the sessions.
* `runWorkerIteration` answers with the saves it makes, in order. A crash leaves the disk after
  some of them.
* What the goal executor and the event bus answer is an argument.
-/

namespace ZeroRuntime
namespace SessionScheduler

open Lib Sessions

inductive WorkerStatus where
  | created | starting | running | idle | paused | stopping | stopped | blocked | failed
deriving DecidableEq, Repr

structure WorkerState where
  contract : String
  workerId : String
  workerName : String
  workerStatus : WorkerStatus
  schedulerStatePath : String
  schedulerId : String
  startedAt : ℕ
  updatedAt : ℕ
  lastHeartbeatAt : ℕ
  stoppedAt : Option ℕ := none
  currentLease : Option SessionLease := none
  currentSessionId : Option String := none
  currentDispatchId : Option String := none
  loopIteration : ℕ := 0
  successfulDispatches : ℕ := 0
  waitingDispatches : ℕ := 0
  blockedDispatches : ℕ := 0
  failedDispatches : ℕ := 0
  criticalFailures : ℕ := 0
  recoveredLeases : ℕ := 0
  idleIterations : ℕ := 0
  lastResult : Val := .none
  stopRequested : Bool := false
  pauseRequested : Bool := false
  failure : Option Failure := none
  lastEventId : Option String := none
  pendingExecutorResults : Entries := []
  workerFingerprint : String

structure WorkerDigest extends QueueDigest where
  worker : WorkerState → String
  workerIdentity : String → String → String → String
  dispatchIdentity : String → String → String

/-- An exception: the name of its class and its message. -/
structure Raised where
  kind : String
  message : String
deriving DecidableEq, Repr

/-- `f"{type(exc).__name__}:{exc}"` -/
def Raised.reason (e : Raised) : String := e.kind ++ ":" ++ e.message

/-- What the scheduler raises in an iteration is a `ValueError`. -/
def raisedOf (e : Err) : Raised := ⟨"ValueError", messageOf e⟩

/-- What publishing answers: nothing without a bus, the id of the event, or what it raises. -/
abbrev Published := Except Raised (Option String)

/-- `CONTRACT` -/
def workerContract : String := "zero.runtime.worker_service.v1"

/-- What the goal executor makes of the sessions that wait for a candidate bundle: the results, the
last of them, how many were refused, and the last event. -/
structure Delegation where
  pending : Entries := []
  lastResult : Option Val := none
  blocked : ℕ := 0
  lastEventId : Option String := none

/-- The arguments of an iteration. -/
structure Call where
  schedulerStatePath : String
  workerName : String
  targetRoot : Root
  workspaceRoot : Root
  now : Instant
  leaseSeconds : ℤ
  delegation : Except Raised Delegation
  published : Published
  failed : Published

structure Disk where
  worker : WorkerState
  scheduler : SchedulerState
  files : Files

inductive Write where
  | worker (w : WorkerState)
  | scheduler (s : SchedulerState)
  | session (write : SessionWrite)

def Disk.write (d : Disk) : Write → Disk
  | .worker w => { d with worker := w }
  | .scheduler s => { d with scheduler := s }
  | .session write => { d with files := afterWrite d.files (some write) }

/-- The disk after some saves. -/
def Disk.after (d : Disk) (writes : List Write) : Disk := writes.foldl Disk.write d

/-- The saves of an iteration, and what it returns or raises. -/
structure Outcome where
  writes : List Write
  answer : Except Raised WorkerState

def Outcome.raising (e : Raised) : Outcome := ⟨[], .error e⟩

/-- An outcome after saves that came before. -/
def Outcome.following (writes : List Write) (o : Outcome) : Outcome :=
  { o with writes := writes ++ o.writes }

section Digest

variable (F : WorkerDigest)

def unsignedWorker (w : WorkerState) : WorkerState := { w with workerFingerprint := "" }

/-- `seal_worker_state` -/
def sealWorker (w : WorkerState) : WorkerState :=
  { w with workerFingerprint := F.worker (unsignedWorker w) }

/-- `validate_worker_state` -/
def validateWorker (w : WorkerState) : List String :=
  (if w.contract = workerContract then [] else ["invalid_worker_contract"]) ++
  (if w.workerFingerprint = F.worker (unsignedWorker w) then []
    else ["worker_fingerprint_mismatch"]) ++
  (if w.workerId = "" ∨ w.schedulerId = "" then ["worker_identity_required"] else [])

/-- `create_worker_state` for the scheduler at a path. -/
def createWorker (scheduler : SchedulerState) (schedulerStatePath workerStatePath name : String)
    (now : Instant) : Except Err WorkerState :=
  if Text.strip name = "" then .error (.valueError "worker_name_required")
  else
    .ok (sealWorker F
      { contract := workerContract
        workerId := "runtime-worker-" ++
          F.workerIdentity (Text.strip name) scheduler.schedulerId (Text.lower workerStatePath)
        workerName := Text.strip name
        workerStatus := .created
        schedulerStatePath
        schedulerId := scheduler.schedulerId
        startedAt := timeText now
        updatedAt := timeText now
        lastHeartbeatAt := timeText now
        workerFingerprint := "" })

def heartbeat (w : WorkerState) (status : WorkerStatus) (now : Instant) : WorkerState :=
  sealWorker F
    { w with
      workerStatus := status, updatedAt := timeText now, lastHeartbeatAt := timeText now }

inductive WorkerAction where
  | pause | resume | stop
deriving DecidableEq, Repr

def requestWorkerAction (w : WorkerState) (action : WorkerAction) (now : Instant) : WorkerState :=
  match action with
  | .pause => heartbeat F { w with pauseRequested := true } .paused now
  | .resume => heartbeat F { w with pauseRequested := false, stopRequested := false } .idle now
  | .stop => heartbeat F { w with stopRequested := true } .stopping now

/-! ## The iteration -/

def saveBoth (s : SchedulerState) (w : WorkerState) : Outcome :=
  ⟨[.scheduler (sealSchedulerState F.toQueueDigest s), .worker (sealWorker F w)],
    .ok (sealWorker F w)⟩

def giveBack (s : SchedulerState) (w : WorkerState) (l : SessionLease) (now : Instant) :
    SchedulerState :=
  orKept s (releaseSessionLease F.toQueueDigest s l.leaseId w.workerId l.sessionId now)

/-- The lease that the worker file records is given back. -/
def giveBackHeld (s : SchedulerState) (w : WorkerState) (now : Instant) : SchedulerState :=
  match w.currentLease with
  | some l => giveBack F s w l now
  | none => s

def stoppedWorker (w : WorkerState) (now : Instant) : WorkerState :=
  { heartbeat F w .stopping now with
    currentLease := none, currentSessionId := none, workerStatus := .stopped
    stoppedAt := some (timeText now) }

/-- `stop_requested` -/
def stopIteration (s : SchedulerState) (w : WorkerState) (now : Instant) : Outcome :=
  saveBoth F (giveBackHeld F s w now) (stoppedWorker F w now)

def leaseless (w : WorkerState) : WorkerState :=
  { w with currentLease := none, currentSessionId := none, currentDispatchId := none }

def withoutLease (w : WorkerState) : WorkerState :=
  if w.currentLease.isSome then leaseless w else w

def pausedWorker (w : WorkerState) (now : Instant) : WorkerState :=
  heartbeat F { withoutLease w with idleIterations := w.idleIterations + 1 } .paused now

/-- `pause_requested` -/
def pauseIteration (s : SchedulerState) (w : WorkerState) (now : Instant) : Outcome :=
  saveBoth F (giveBackHeld F s w now) (pausedWorker F w now)

def recordsLease (s : SchedulerState) (l : SessionLease) : Bool :=
  s.entries.any fun e =>
    e.sessionId = l.sessionId && e.leaseId = l.leaseId && e.leaseStatus = .active

/-- The lease the worker goes on with: one that has run out is dropped. -/
def currentOf (s : SchedulerState) (w : WorkerState) (now : Instant) : Option SessionLease :=
  w.currentLease.filter fun l => recordsLease s l || !reached now l.expiresAt

def mismatchFailure : Failure :=
  { critical := true, reasons := ["current_lease_identity_mismatch"] }

def mismatchedWorker (w : WorkerState) (now : Instant) : WorkerState :=
  sealWorker F (heartbeat F
    { w with failure := some mismatchFailure, criticalFailures := w.criticalFailures + 1 }
    .failed now)

/-- `current_lease_identity_mismatch` -/
def mismatchIteration (w : WorkerState) (now : Instant) : Outcome :=
  ⟨[.worker (mismatchedWorker F w now)], .ok (mismatchedWorker F w now)⟩

def waitingWorker (w : WorkerState) (now : Instant) : WorkerState :=
  heartbeat F
    { w with
      waitingDispatches := w.waitingDispatches + 1
      currentLease := none, currentSessionId := none } .idle now

def waitingIteration (s : SchedulerState) (w : WorkerState) (l : SessionLease) (now : Instant) :
    Outcome :=
  match releaseSessionLease F.toQueueDigest s l.leaseId w.workerId l.sessionId now with
  | .error e => .raising (raisedOf e)
  | .ok s => saveBoth F s (waitingWorker F w now)

/-- The result of a dispatch as it is recorded. -/
def answerVal : DispatchAnswer → Val
  | .duplicate id => .dict [("duplicate", .bool true), ("dispatch_id", .str id)]
  | .notDispatched =>
    .dict [("dispatched", .bool false), ("reason", .str "no_dispatchable_session")]
  | .dispatched id sessionId status =>
    .dict [("dispatched", .bool true), ("dispatch_id", .str id), ("session_id", .str sessionId),
      ("session_status", .str status.text)]

/-- What the worker notes of the answer, before the event is published. -/
def noteAnswer (w : WorkerState) (answer : DispatchAnswer) : WorkerState :=
  let w := { w with lastResult := answerVal answer }
  match answer with
  | .dispatched .. => { w with successfulDispatches := w.successfulDispatches + 1 }
  | .notDispatched => { w with waitingDispatches := w.waitingDispatches + 1 }
  | .duplicate _ => { w with blockedDispatches := w.blockedDispatches + 1 }

/-- The event of an answer; there is none where nothing was there to dispatch. -/
def answerEvent (answer : DispatchAnswer) (published : Published) : Published :=
  match answer with
  | .notDispatched => .ok none
  | _ => published

def noteEvent (w : WorkerState) (event : Option String) : WorkerState :=
  match event with
  | some eventId => { w with lastEventId := some eventId }
  | none => w

def finishedWorker (w : WorkerState) (now : Instant) : WorkerState :=
  heartbeat F { leaseless w with idleIterations := 0 } .running now

/-- The end of an iteration with a lease. -/
def finishDispatch (s : SchedulerState) (w : WorkerState) (now : Instant) : Outcome :=
  saveBoth F s (finishedWorker F w now)

def noteFailure (w : WorkerState) (error : Raised) : WorkerState :=
  { w with
    failedDispatches := w.failedDispatches + 1
    failure := some { critical := false, reasons := [error.reason] } }

/-- `except Exception`: the failure is noted and published, and the lease is given back. -/
def failDispatch (s : SchedulerState) (w : WorkerState) (l : SessionLease) (error : Raised)
    (c : Call) : Outcome :=
  match c.failed with
  | .error e => .raising e
  | .ok event =>
    finishDispatch F (giveBack F s w l c.now) (noteEvent (noteFailure w error) event) c.now

/-- The end of an iteration, by what the dispatch answers. -/
def settleDispatch (s : SchedulerState) (w : WorkerState) (l : SessionLease) (c : Call)
    (answer : Except Err (SchedulerState × DispatchAnswer)) : Outcome :=
  match answer with
  | .error e => failDispatch F s w l (raisedOf e) c
  | .ok (s, answer) =>
    match answerEvent answer c.published with
    | .error e => failDispatch F s (noteAnswer w answer) l e c
    | .ok event => finishDispatch F s (noteEvent (noteAnswer w answer) event) c.now

def dispatchIteration (files : Files) (s : SchedulerState) (w : WorkerState) (l : SessionLease)
    (c : Call) : Outcome :=
  let dispatch := dispatchSession F.toQueueDigest files s w.workerId c.targetRoot c.workspaceRoot
    c.now (some l.leaseId) w.currentDispatchId
  (settleDispatch F s w l c dispatch.2).following (dispatch.1.map Write.session).toList

def resumeIteration (files : Files) (s : SchedulerState) (w : WorkerState) (l : SessionLease)
    (c : Call) : Outcome :=
  match entry? s l.sessionId with
  | none => mismatchIteration F w c.now
  | some e =>
    if e.leaseId ≠ l.leaseId ∨ e.leaseOwner ≠ w.workerId then mismatchIteration F w c.now
    else if e.sessionStatus.waiting then waitingIteration F s w l c.now
    else dispatchIteration F files s w l c

def noteDelegation (w : WorkerState) (d : Delegation) : WorkerState :=
  noteEvent
    { w with
      pendingExecutorResults := w.pendingExecutorResults ++ d.pending
      blockedDispatches := w.blockedDispatches + d.blocked
      lastResult := d.lastResult.getD w.lastResult } d.lastEventId

def idleWorker (s : SchedulerState) (w : WorkerState) (now : Instant) : WorkerState :=
  heartbeat F
    { w with
      waitingDispatches := w.waitingDispatches + if s.waitingOperatorSessions = [] then 0 else 1
      idleIterations := w.idleIterations + 1
      lastResult :=
        if (Val.getIn "executor_delegated" w.lastResult.entries).truthy then w.lastResult
        else answerVal .notDispatched } .idle now

/-- Nothing can be leased: the goal executor is asked. -/
def idleIteration (s : SchedulerState) (w : WorkerState) (c : Call) : Outcome :=
  match c.delegation with
  | .error e => .raising e
  | .ok d => saveBoth F s (idleWorker F s (noteDelegation w d) c.now)

def leasedWorker (w : WorkerState) (l : SessionLease) (now : Instant) : WorkerState :=
  sealWorker F (heartbeat F
    { w with
      currentLease := some l
      currentSessionId := some l.sessionId
      currentDispatchId := some ("worker-dispatch-" ++ F.dispatchIdentity w.workerId l.leaseId) }
    .running now)

def leaseIteration (files : Files) (s : SchedulerState) (w : WorkerState) (c : Call) : Outcome :=
  match leaseNextSession F.toQueueDigest files s w.workerId c.leaseSeconds c.now with
  | .error e => .raising (raisedOf e)
  | .ok (s, none) => idleIteration F s w c
  | .ok (s, some l) =>
    let w := leasedWorker F w l c.now
    (dispatchIteration F files s w l c).following
      [.worker w, .scheduler (sealSchedulerState F.toQueueDigest s)]

/-- How many leases a recovery found to have run out. -/
def recoveredCount (before after : List QueueEntry) : ℕ :=
  (before.zip after).countP fun p => p.1.leaseStatus = .active && p.2.leaseStatus = .expired

/-- The iteration, with the scheduler recovered and the worker's counters raised. -/
def iterate (files : Files) (s : SchedulerState) (w : WorkerState) (c : Call) : Outcome :=
  if w.stopRequested then stopIteration F s w c.now
  else if w.pauseRequested then pauseIteration F s w c.now
  else
    match currentOf s w c.now with
    | some l => resumeIteration F files s w l c
    | none => leaseIteration F files s (withoutLease w) c

def countedWorker (w : WorkerState) (recovered : ℕ) : WorkerState :=
  { w with
    recoveredLeases := w.recoveredLeases + recovered, loopIteration := w.loopIteration + 1 }

/-- The files belong together, and to the worker that is called. -/
def bindingReasons (w : WorkerState) (s : SchedulerState) (c : Call) : List String :=
  if w.schedulerId ≠ s.schedulerId then ["worker_scheduler_identity_mismatch"]
  else if Text.lower w.schedulerStatePath ≠ Text.lower c.schedulerStatePath then
    ["scheduler_state_path_mismatch"]
  else if w.workerName ≠ c.workerName then ["worker_name_mismatch"]
  else []

def runWorkerIteration (d : Disk) (c : Call) : Outcome :=
  if validateWorker F d.worker ≠ [] then
    .raising ⟨"ValueError", ";".intercalate (validateWorker F d.worker)⟩
  else
    match recoverSchedulerState F.toQueueDigest d.files d.scheduler c.now with
    | .error e => .raising (raisedOf e)
    | .ok s =>
      if bindingReasons d.worker d.scheduler c ≠ [] then
        .raising ⟨"ValueError", ";".intercalate (bindingReasons d.worker d.scheduler c)⟩
      else
        iterate F d.files s (countedWorker d.worker (recoveredCount d.scheduler.entries s.entries)) c

end Digest

end SessionScheduler
end ZeroRuntime
