import Mathlib.Data.List.Sort
import ZeroRuntime.Lib.Keyed
import ZeroRuntime.Lib.Reasons
import ZeroRuntime.Sessions.EndToEnd

/-!
# ZeroRuntime.SessionScheduler.Model

The session scheduler (`core/runtime/runtime_session_queue.py`,
`core/runtime/runtime_session_scheduler.py`) with its leases: sessions wait as queue entries, an
entry is leased to an owner, its session is dispatched, and the lease is released.

* A lease is recorded twice, on its entry and in the list of leases.
* `Stored` is what a path of a session leads to. A call answers with the new state and, where it
  saves a session, with the `SessionWrite`.
* What the gate behind an operator input decides is an argument, as in `Sessions.EndToEnd`.
-/

namespace ZeroRuntime
namespace SessionScheduler

open Lib Sessions

/-! ## Records -/

inductive LeaseStatus where
  | none | active | expired | released
deriving DecidableEq, Repr

structure QueueEntry where
  queueEntryId : String
  sessionId : String
  sessionPath : String
  sessionFingerprint : String
  sessionStatus : SessionStatus
  requiredAction : RequiredAction
  priority : ℤ
  sequenceNumber : ℕ
  enqueuedAt : ℕ
  availableAt : ℕ
  expiresAt : ℕ
  leaseStatus : LeaseStatus := .none
  leaseId : String := ""
  leaseOwner : String := ""
  leaseAcquiredAt : Option ℕ := none
  leaseExpiresAt : Option ℕ := none
  attemptCount : ℕ := 0
  lastDispatchId : String := ""
  lastResult : Option SessionStatus := none
  blockedReasons : List String := []
  targetRootIdentity : String
  workspaceRootIdentity : String
  waitingSince : Option ℕ
  entryFingerprint : String
deriving DecidableEq, Repr

/-- What the id of a lease is made from. -/
structure LeaseIdentity where
  schedulerId : String
  queueEntryId : String
  owner : String
  attempt : ℕ
  acquiredAt : ℕ
deriving DecidableEq, Repr

structure SessionLease where
  leaseId : String
  sessionId : String
  queueEntryId : String
  leaseOwner : String
  acquiredAt : ℕ
  expiresAt : ℕ
  leaseStatus : LeaseStatus
  attemptNumber : ℕ
  schedulerId : String
  releasedAt : Option ℕ := none
deriving DecidableEq, Repr

/-- `waiting_projection` -/
structure WaitingSession where
  sessionId : String
  sessionPath : String
  requiredAction : RequiredAction
  waitingSince : Option ℕ
  expiresAt : ℕ
  priority : ℤ
  targetRootIdentity : String
deriving DecidableEq, Repr

inductive SchedulerStatus where
  | idle | running | paused
deriving DecidableEq, Repr

structure SchedulerState where
  contract : String
  schedulerId : String
  schedulerStatus : SchedulerStatus
  createdAt : ℕ
  updatedAt : ℕ
  queueVersion : ℕ
  entries : List QueueEntry
  leases : List SessionLease
  completedSessions : List String := []
  failedSessions : List String := []
  cancelledSessions : List String := []
  waitingOperatorSessions : List WaitingSession := []
  processedDispatchIds : List String := []
  schedulerFingerprint : String
deriving DecidableEq, Repr

/-- `fingerprint`, also of what the ids of entries and leases are made from. -/
structure QueueDigest extends SessionDigest where
  entry : QueueEntry → String
  scheduler : SchedulerState → String
  entryIdentity : String → String → String
  leaseIdentity : LeaseIdentity → String

/-- What the path of a session leads to. `load_runtime_session` refuses what is broken with a
message. -/
inductive Stored where
  | missing
  | broken (message : String)
  | session (s : Session)

abbrev Files := String → Stored

/-- A session that is saved at a path. -/
abbrev SessionWrite := String × Session

def afterWrite (files : Files) : Option SessionWrite → Files
  | none => files
  | some (path, s) => fun p => if p = path then .session s else files p

/-- `CONTRACT` -/
def schedulerContract : String := "zero.runtime.session_scheduler.v1"

def queueVersion : ℕ := 1

def leaseSeconds : ℤ := 30

def maxLeaseSeconds : ℤ := 60

/-- `SAFE_DISPATCH_STATUSES` -/
def safeDispatch : SessionStatus → Bool
  | .created | .running => true
  | _ => false

/-- `str(exc)` of a `ValueError`. -/
def messageOf : Err → String
  | .valueError message => message
  | _ => ""

section Digest

variable (F : QueueDigest)

/-! ## Seals and validation -/

def unsignedEntry (e : QueueEntry) : QueueEntry := { e with entryFingerprint := "" }

def sealEntry (e : QueueEntry) : QueueEntry :=
  { e with entryFingerprint := F.entry (unsignedEntry e) }

def unsignedScheduler (s : SchedulerState) : SchedulerState := { s with schedulerFingerprint := "" }

def sealFingerprint (s : SchedulerState) : SchedulerState :=
  { s with schedulerFingerprint := F.scheduler (unsignedScheduler s) }

def sealSchedulerState (s : SchedulerState) : SchedulerState :=
  sealFingerprint F { s with entries := s.entries.map (sealEntry F) }

/-- `create_scheduler_state`, under the id made from its path and time. -/
def createSchedulerState (schedulerId : String) (now : Instant) : SchedulerState :=
  sealSchedulerState F
    { contract := schedulerContract, schedulerId, schedulerStatus := .idle
      createdAt := timeText now, updatedAt := timeText now, queueVersion
      entries := [], leases := [], schedulerFingerprint := "" }

/-- The reasons of one entry, after the entries of `before`. -/
def entryReasons (before : List QueueEntry) (e : QueueEntry) : List String :=
  (if e.entryFingerprint = F.entry (unsignedEntry e) then []
    else ["queue_entry_fingerprint_mismatch:" ++ e.sessionId]) ++
  (if ∃ b ∈ before, b.sequenceNumber = e.sequenceNumber then ["duplicate_sequence_number"]
    else []) ++
  (if (∃ b ∈ before, b.sessionId = e.sessionId) ∧ e.sessionStatus.terminal = false
    then ["duplicate_active_session_entry"] else []) ++
  (if e.leaseStatus = .active ∧ ∃ b ∈ before, b.leaseStatus = .active ∧ b.sessionId = e.sessionId
    then ["duplicate_active_lease"] else [])

def entriesReasons : List QueueEntry → List QueueEntry → List String
  | _, [] => []
  | before, e :: es => entryReasons F before e ++ entriesReasons (before ++ [e]) es

def validateSchedulerState (s : SchedulerState) : List String :=
  (if s.contract = schedulerContract then [] else ["invalid_scheduler_contract"]) ++
  (if s.queueVersion = queueVersion then [] else ["scheduler_migration_required"]) ++
  (if s.schedulerFingerprint = F.scheduler (unsignedScheduler s) then []
    else ["scheduler_fingerprint_mismatch"]) ++
  entriesReasons F [] s.entries

def checked (s : SchedulerState) : Except Err SchedulerState :=
  if validateSchedulerState F s = [] then .ok s
  else .error (.valueError (";".intercalate (validateSchedulerState F s)))

/-! ## The files of the sessions -/

def givenRootReasons (s : Session) (targetRoot workspaceRoot : Option Root) : List String :=
  match targetRoot with
  | some none => ["invalid_root"]
  | targetRoot =>
    (match targetRoot with
      | some (some target) =>
        if target = s.targetRootIdentity then [] else ["target_root_mismatch"]
      | _ => []) ++
    match workspaceRoot with
    | some none => ["invalid_root"]
    | some (some workspace) =>
      if workspace = s.workspaceRootIdentity then [] else ["workspace_root_mismatch"]
    | none => []

/-- `validate_session`, for the roots that are given. -/
def storedReasons (s : Session) (targetRoot workspaceRoot : Option Root) (now : Instant) :
    List String :=
  (if s.contract = sessionContract then [] else ["invalid_session_contract"]) ++
  (if s.sessionFingerprint = F.session (unsigned s) then [] else ["session_fingerprint_mismatch"]) ++
  artifactReasons F.toSessionDigest s ++ givenRootReasons s targetRoot workspaceRoot ++
  (if reached now s.expiresAt then ["session_expired"] else [])

def loadRuntimeSession (files : Files) (path : String) (targetRoot workspaceRoot : Option Root)
    (now : Instant) : Except Err Session :=
  match files path with
  | .missing => .error (.valueError "invalid_session_json")
  | .broken message => .error (.valueError message)
  | .session s =>
    if storedReasons F s targetRoot workspaceRoot now = [] then .ok s
    else
      .error (.valueError (";".intercalate (storedReasons F s targetRoot workspaceRoot now)))

/-! ## The queue -/

def normalizePriority : Val → Except Err ℤ
  | .str "low" => .ok (-10)
  | .str "normal" => .ok 0
  | .str "high" => .ok 10
  | .int n => if -100 ≤ n ∧ n ≤ 100 then .ok n else .error (.valueError "invalid_priority")
  | _ => .error (.valueError "invalid_priority")

def queueEntryIdOf (sessionId path : String) : String :=
  "queue-entry-" ++ F.entryIdentity sessionId (Text.lower path)

def projection (s : Session) (path : String) (priority : ℤ) (sequence : ℕ) (now : Instant) :
    QueueEntry :=
  sealEntry F
    { queueEntryId := queueEntryIdOf F s.sessionId path
      sessionId := s.sessionId
      sessionPath := path
      sessionFingerprint := s.sessionFingerprint
      sessionStatus := s.sessionStatus
      requiredAction := s.requiredAction
      priority
      sequenceNumber := sequence
      enqueuedAt := timeText now
      availableAt := timeText now
      expiresAt := s.expiresAt
      targetRootIdentity := s.targetRootIdentity
      workspaceRootIdentity := s.workspaceRootIdentity
      waitingSince := if s.sessionStatus.waiting then some (timeText now) else none
      entryFingerprint := "" }

def updateEntryFromSession (e : QueueEntry) (s : Session) (now : Instant) : QueueEntry :=
  sealEntry F
    { e with
      sessionFingerprint := s.sessionFingerprint
      sessionStatus := s.sessionStatus
      requiredAction := s.requiredAction
      expiresAt := s.expiresAt
      waitingSince :=
        if s.sessionStatus.waiting then some (e.waitingSince.getD (timeText now)) else none }

/-- The order of `ordered_entries`. -/
def entryLe (a b : QueueEntry) : Prop :=
  b.priority < a.priority ∨ (a.priority = b.priority ∧ a.sequenceNumber ≤ b.sequenceNumber)

instance : DecidableRel entryLe := fun a b =>
  inferInstanceAs (Decidable
    (b.priority < a.priority ∨ (a.priority = b.priority ∧ a.sequenceNumber ≤ b.sequenceNumber)))

def orderedEntries (s : SchedulerState) (includeTerminal : Bool) : List QueueEntry :=
  (s.entries.filter fun e => includeTerminal || !e.sessionStatus.terminal).insertionSort entryLe

def waitingProjection (e : QueueEntry) : WaitingSession where
  sessionId := e.sessionId
  sessionPath := e.sessionPath
  requiredAction := e.requiredAction
  waitingSince := e.waitingSince
  expiresAt := e.expiresAt
  priority := e.priority
  targetRootIdentity := e.targetRootIdentity

def rebuildWaitingProjection (s : SchedulerState) (now : Instant) : SchedulerState :=
  sealSchedulerState F
    { s with
      waitingOperatorSessions :=
        ((orderedEntries s true).filter fun e => e.sessionStatus.waiting).map waitingProjection
      updatedAt := timeText now }

/-- `max(sequence numbers or 0) + 1` -/
def nextSequence (entries : List QueueEntry) : ℕ :=
  entries.foldl (fun n e => max n e.sequenceNumber) 0 + 1

def entry? (s : SchedulerState) (sessionId : String) : Option QueueEntry :=
  s.entries.find? fun e => e.sessionId = sessionId

/-- `_entry` -/
def entryOf (s : SchedulerState) (sessionId : String) : Except Err QueueEntry :=
  match entry? s sessionId with
  | some e => .ok e
  | none => .error (.valueError "scheduled_session_not_found")

def changeEntry (s : SchedulerState) (sessionId : String) (f : QueueEntry → QueueEntry) :
    SchedulerState :=
  { s with entries := modifyFirst (fun e => e.sessionId = sessionId) f s.entries }

def enqueueSession (files : Files) (s : SchedulerState) (path : String) (priority : Val)
    (targetRoot workspaceRoot : Option Root) (now : Instant) : Except Err SchedulerState := do
  let s ← checked F s
  let priority ← normalizePriority priority
  if files path matches .missing then .error .osError
  else
    let session ← loadRuntimeSession F files path targetRoot workspaceRoot now
    match entry? s session.sessionId with
    | some existing =>
      if existing.sessionFingerprint = session.sessionFingerprint then .ok s
      else .error (.valueError "duplicate_active_queue_entry")
    | none =>
      if session.sessionStatus.terminal then .error (.valueError "terminal_session_not_enqueueable")
      else
        let entry := projection F session path priority (nextSequence s.entries) now
        .ok (rebuildWaitingProjection F { s with entries := s.entries ++ [entry] } now)

def pauseQueue (s : SchedulerState) (now : Instant) : Except Err SchedulerState :=
  if validateSchedulerState F s = [] then
    .ok (sealSchedulerState F { s with schedulerStatus := .paused, updatedAt := timeText now })
  else .error (.valueError "invalid_scheduler_state")

def resumeQueue (s : SchedulerState) (now : Instant) : Except Err SchedulerState :=
  if validateSchedulerState F s ≠ [] then .error (.valueError "invalid_scheduler_state")
  else if s.schedulerStatus ≠ .paused then .error (.valueError "queue_not_paused")
  else .ok (sealSchedulerState F { s with schedulerStatus := .idle, updatedAt := timeText now })

/-! ## Leases -/

def unleased (status : LeaseStatus) (e : QueueEntry) : QueueEntry :=
  { e with
    leaseStatus := status, leaseId := "", leaseOwner := ""
    leaseAcquiredAt := none, leaseExpiresAt := none }

/-- The lease of the entry has run out. -/
def overdue (now : Instant) (e : QueueEntry) : Bool :=
  e.leaseStatus = .active && e.leaseExpiresAt.any (reached now)

def expireEntry (now : Instant) (e : QueueEntry) : QueueEntry :=
  if overdue now e then { unleased .expired e with blockedReasons := [] } else e

def blockEntry (reason : String) (e : QueueEntry) : QueueEntry :=
  { e with blockedReasons := [reason], sessionStatus := .blocked }

/-- The entry as the file of its session says it is. -/
def refreshEntry (files : Files) (now : Instant) (e : QueueEntry) : QueueEntry :=
  if files e.sessionPath matches .missing then blockEntry "missing_session_path" e
  else
    match loadRuntimeSession F files e.sessionPath none none now with
    | .error error => blockEntry (messageOf error) e
    | .ok session =>
      let e := updateEntryFromSession F e session now
      if session.sessionStatus = .transactionRunning ∧
          (Val.getIn "transaction_result" session.artifacts).truthy = false then
        blockEntry "transaction_running_recovery_requires_evidence" e
      else e

def recoverEntry (files : Files) (now : Instant) (e : QueueEntry) : QueueEntry :=
  refreshEntry F files now (expireEntry now e)

def recoverSchedulerState (files : Files) (s : SchedulerState) (now : Instant) :
    Except Err SchedulerState := do
  let s ← checked F s
  .ok (rebuildWaitingProjection F { s with entries := s.entries.map (recoverEntry F files now) } now)

/-- The entry can be leased. -/
def dispatchable (now : Instant) (e : QueueEntry) : Bool :=
  safeDispatch e.sessionStatus && e.leaseStatus ≠ .active && reached now e.availableAt

def nextCandidate (s : SchedulerState) (now : Instant) : Option QueueEntry :=
  (orderedEntries s false).find? (dispatchable now)

def leaseIdOf (i : LeaseIdentity) : String := "session-lease-" ++ F.leaseIdentity i

def newLease (s : SchedulerState) (e : QueueEntry) (owner : String) (lifetime : ℕ) (now : Instant) :
    SessionLease where
  leaseId := leaseIdOf F
    { schedulerId := s.schedulerId, queueEntryId := e.queueEntryId, owner
      attempt := e.attemptCount + 1, acquiredAt := timeText now }
  sessionId := e.sessionId
  queueEntryId := e.queueEntryId
  leaseOwner := owner
  acquiredAt := timeText now
  expiresAt := timeText now + lifetime
  leaseStatus := .active
  attemptNumber := e.attemptCount + 1
  schedulerId := s.schedulerId

def leasedEntry (l : SessionLease) (e : QueueEntry) : QueueEntry :=
  { e with
    leaseStatus := .active, leaseId := l.leaseId, leaseOwner := l.leaseOwner
    leaseAcquiredAt := some l.acquiredAt, leaseExpiresAt := some l.expiresAt
    attemptCount := l.attemptNumber }

def grant (s : SchedulerState) (l : SessionLease) : SchedulerState :=
  sealSchedulerState F
    { changeEntry s l.sessionId (leasedEntry l) with
      leases := s.leases ++ [l], schedulerStatus := .running }

def leaseNextSession (files : Files) (s : SchedulerState) (owner : String) (lifetime : ℤ)
    (now : Instant) : Except Err (SchedulerState × Option SessionLease) :=
  if Text.strip owner = "" then .error (.valueError "lease_owner_required")
  else if lifetime < 1 ∨ maxLeaseSeconds < lifetime then
    .error (.valueError "invalid_lease_lifetime")
  else do
    let s ← recoverSchedulerState F files s now
    match nextCandidate s now with
    | none => .ok (s, none)
    | some candidate =>
      let live ← entryOf s candidate.sessionId
      let lease := newLease F s live owner lifetime.toNat now
      .ok (grant F s lease, some lease)

def lease? (s : SchedulerState) (leaseId : String) : Option SessionLease :=
  s.leases.find? fun l => l.leaseId = leaseId

def releasedLease (now : Instant) (l : SessionLease) : SessionLease :=
  { l with leaseStatus := .released, releasedAt := some (timeText now) }

def releaseSessionLease (s : SchedulerState) (leaseId owner sessionId : String) (now : Instant) :
    Except Err SchedulerState := do
  let e ← entryOf s sessionId
  if e.leaseStatus ≠ .active ∨ e.leaseId ≠ leaseId then .error (.valueError "invalid_lease_id")
  else if e.leaseOwner ≠ owner then .error (.valueError "lease_owner_mismatch")
  else if (lease? s leaseId).all fun l => l.schedulerId ≠ s.schedulerId then
    .error (.valueError "lease_scheduler_mismatch")
  else
    let s := changeEntry s sessionId (unleased .released)
    .ok (rebuildWaitingProjection F
      { s with
        leases := modifyFirst (fun l => l.leaseId = leaseId) (releasedLease now) s.leases
        schedulerStatus := .idle } now)

/-! ## Dispatching -/

def addOnce (xs : List String) (x : String) : List String := if x ∈ xs then xs else xs ++ [x]

def terminalLists (s : SchedulerState) (sessionId : String) (status : SessionStatus) :
    SchedulerState :=
  match status with
  | .completed => { s with completedSessions := addOnce s.completedSessions sessionId }
  | .cancelled => { s with cancelledSessions := addOnce s.cancelledSessions sessionId }
  | .blocked | .failed | .expired =>
    { s with failedSessions := addOnce s.failedSessions sessionId }
  | _ => s

/-- `operator_input=None`: no contract is the input's. -/
def noInput : SessionInput where
  contract := ""
  sessionId := ""
  inputId := ""
  operatorId := ""
  inputType := ""
  submittedAt := none

/-- What `resume_runtime_session` without an input makes of a session, and why it refused. -/
def resumeWithout (s : Session) (targetRoot workspaceRoot : Root) (now : Instant) :
    Session × Option String :=
  match resumeRuntimeSession F.toSessionDigest s noInput ⟨[], .accepted, .dict []⟩ targetRoot
      workspaceRoot now with
  | .ok result => (result, none)
  | .error error => (s, some (messageOf error))

inductive DispatchAnswer where
  | duplicate (dispatchId : String)
  | notDispatched
  | dispatched (dispatchId sessionId : String) (status : SessionStatus)
deriving DecidableEq, Repr

def dispatchedEntry (identifier : String) (result : Session) (refusal : Option String)
    (now : Instant) (e : QueueEntry) : QueueEntry :=
  let e := match refusal with
    | some reason => { e with blockedReasons := [reason] }
    | none => e
  { updateEntryFromSession F e result now with
    lastDispatchId := identifier, lastResult := some result.sessionStatus }

/-- A text argument that is there and not empty. -/
def given (x : Option String) : Option String := x.filter fun t => t ≠ ""

/-- The state after a dispatch, before its lease is released. -/
def noteDispatch (s : SchedulerState) (sessionId identifier : String) (result : Session)
    (refusal : Option String) (now : Instant) : SchedulerState :=
  let s := changeEntry s sessionId (dispatchedEntry F identifier result refusal now)
  let s := { s with processedDispatchIds := s.processedDispatchIds ++ [identifier] }
  terminalLists s sessionId result.sessionStatus

def dispatchLeased (files : Files) (s : SchedulerState) (l : SessionLease) (owner : String)
    (targetRoot workspaceRoot : Root) (now : Instant) (dispatchId : Option String) :
    Option SessionWrite × Except Err (SchedulerState × DispatchAnswer) :=
  match entry? s l.sessionId with
  | none => (none, .error (.valueError "scheduled_session_not_found"))
  | some e =>
    match loadRuntimeSession F files e.sessionPath (some targetRoot) (some workspaceRoot) now with
    | .error error => (none, .error error)
    | .ok session =>
      if session.sessionStatus.waiting then (none, .error (.valueError "operator_input_required"))
      else
        let (result, refusal) := resumeWithout F session targetRoot workspaceRoot now
        let result := sealSession F.toSessionDigest result
        let identifier := (given dispatchId).getD ("dispatch:" ++ l.leaseId)
        let s := noteDispatch F s l.sessionId identifier result refusal now
        -- The session is saved here, before the release checks the lease on the entry.
        (some (e.sessionPath, result), do
          let s ← releaseSessionLease F s l.leaseId owner l.sessionId now
          .ok (s, .dispatched identifier l.sessionId result.sessionStatus))

def listed? (s : SchedulerState) (leaseId : String) : Option SessionLease :=
  s.leases.find? fun l => l.leaseId = leaseId ∧ l.leaseStatus = .active

/-- The lease that a dispatch goes by: the one it names, or a new one. -/
def dispatchLease (files : Files) (s : SchedulerState) (owner : String) (now : Instant)
    (leaseId : Option String) : Except Err (SchedulerState × Option SessionLease) :=
  match given leaseId with
  | some id =>
    match listed? s id with
    | some l =>
      if l.leaseOwner = owner then .ok (s, some l)
      else .error (.valueError "invalid_dispatch_lease")
    | none => .error (.valueError "invalid_dispatch_lease")
  | none => leaseNextSession F files s owner leaseSeconds now

def dispatchSession (files : Files) (s : SchedulerState) (owner : String)
    (targetRoot workspaceRoot : Root) (now : Instant) (leaseId dispatchId : Option String) :
    Option SessionWrite × Except Err (SchedulerState × DispatchAnswer) :=
  match (given dispatchId).filter fun id => id ∈ s.processedDispatchIds with
  | some id => (none, .ok (s, .duplicate id))
  | none =>
    match dispatchLease F files s owner now leaseId with
    | .error error => (none, .error error)
    | .ok (s, none) => (none, .ok (s, .notDispatched))
    | .ok (s, some l) => dispatchLeased F files s l owner targetRoot workspaceRoot now dispatchId

/-! ## Operators -/

/-- The end of a call that saved a new version of the session of an entry. -/
def settleEntry (s : SchedulerState) (e : QueueEntry) (result : Session) (now : Instant) :
    SchedulerState :=
  let s := changeEntry s e.sessionId fun e => updateEntryFromSession F e result now
  rebuildWaitingProjection F (terminalLists s e.sessionId result.sessionStatus) now

def submitOperatorInput (files : Files) (s : SchedulerState) (input : SessionInput) (d : Decision)
    (targetRoot workspaceRoot : Root) (now : Instant) : Except Err (SchedulerState × SessionWrite) := do
  let s ← recoverSchedulerState F files s now
  let e ← entryOf s input.sessionId
  if e.leaseStatus = .active then .error (.valueError "session_actively_leased")
  else
    let session ← loadRuntimeSession F files e.sessionPath (some targetRoot) (some workspaceRoot) now
    let result ← resumeRuntimeSession F.toSessionDigest session input d targetRoot workspaceRoot now
    let result := sealSession F.toSessionDigest result
    .ok (settleEntry F s e result now, (e.sessionPath, result))

def cancelScheduledSession (files : Files) (s : SchedulerState) (sessionId operatorId : String)
    (now : Instant) : Except Err (SchedulerState × SessionWrite) := do
  let s ← recoverSchedulerState F files s now
  let e ← entryOf s sessionId
  if e.leaseStatus = .active then .error (.valueError "session_actively_leased")
  else
    let session ← loadRuntimeSession F files e.sessionPath none none now
    let result ← cancelRuntimeSession F.toSessionDigest session operatorId now
    let result := sealSession F.toSessionDigest result
    .ok (settleEntry F s e result now, (e.sessionPath, result))

end Digest

end SessionScheduler
end ZeroRuntime
