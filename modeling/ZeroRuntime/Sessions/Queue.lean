import ZeroRuntime.Sessions.EndToEnd

/-!
# ZeroRuntime.Sessions.Queue

The queue of the session scheduler (`core/runtime/runtime_session_queue.py`): its entries, the seal
on the state, and putting a session into it.

`enqueueSession` is given the session that is stored at the path.
-/

namespace ZeroRuntime
namespace Sessions

open Lib

structure QueueEntry where
  sessionId : String
  sessionPath : String
  sessionFingerprint : String
  sessionStatus : SessionStatus
  requiredAction : RequiredAction
  priority : ℤ
  sequenceNumber : ℕ
  enqueuedAt : ℕ
  expiresAt : ℕ
  leaseActive : Bool := false
  targetRootIdentity : String
  workspaceRootIdentity : String
  waitingSince : Option ℕ
  entryFingerprint : String
deriving DecidableEq, Repr

structure SchedulerState where
  contract : String
  queueVersion : ℕ
  createdAt : ℕ
  updatedAt : ℕ
  entries : List QueueEntry
  schedulerFingerprint : String
deriving DecidableEq, Repr

structure QueueDigest extends SessionDigest where
  entry : QueueEntry → String
  scheduler : SchedulerState → String

/-- `CONTRACT` -/
def schedulerContract : String := "zero.runtime.session_scheduler.v1"

def queueVersion : ℕ := 1

section Digest

variable (F : QueueDigest)

def unsignedEntry (e : QueueEntry) : QueueEntry := { e with entryFingerprint := "" }

def sealEntry (e : QueueEntry) : QueueEntry :=
  { e with entryFingerprint := F.entry (unsignedEntry e) }

def unsignedScheduler (s : SchedulerState) : SchedulerState := { s with schedulerFingerprint := "" }

def sealSchedulerState (s : SchedulerState) : SchedulerState :=
  let s := { s with entries := s.entries.map (sealEntry F) }
  { s with schedulerFingerprint := F.scheduler (unsignedScheduler s) }

def createSchedulerState (now : Instant) : SchedulerState :=
  sealSchedulerState F
    { contract := schedulerContract, queueVersion, createdAt := timeText now
      updatedAt := timeText now, entries := [], schedulerFingerprint := "" }

/-- The reasons of one entry, after the entries of `before`. -/
def entryReasons (before : List QueueEntry) (e : QueueEntry) : List String :=
  (if e.entryFingerprint = F.entry (unsignedEntry e) then []
    else ["queue_entry_fingerprint_mismatch:" ++ e.sessionId]) ++
  (if before.any fun b => b.sequenceNumber = e.sequenceNumber then ["duplicate_sequence_number"]
    else []) ++
  (if (before.any fun b => b.sessionId = e.sessionId) && !e.sessionStatus.terminal
    then ["duplicate_active_session_entry"] else []) ++
  (if e.leaseActive && before.any fun b => b.leaseActive && b.sessionId = e.sessionId
    then ["duplicate_active_lease"] else [])

def entriesReasons : List QueueEntry → List QueueEntry → List String
  | _, [] => []
  | before, e :: es => entryReasons F before e ++ entriesReasons (before ++ [e]) es

def validateSchedulerState (s : SchedulerState) : List String :=
  (if s.contract = schedulerContract then [] else ["invalid_scheduler_contract"]) ++
  (if s.queueVersion = queueVersion then [] else ["scheduler_migration_required"]) ++
  (if s.schedulerFingerprint = F.scheduler (unsignedScheduler s) then []
    else ["scheduler_fingerprint_mismatch"]) ++
  entriesReasons F [] s.entries

def projection (s : Session) (path : String) (priority : ℤ) (sequence : ℕ) (now : Instant) :
    QueueEntry :=
  sealEntry F
    { sessionId := s.sessionId
      sessionPath := path
      sessionFingerprint := s.sessionFingerprint
      sessionStatus := s.sessionStatus
      requiredAction := s.requiredAction
      priority
      sequenceNumber := sequence
      enqueuedAt := timeText now
      expiresAt := s.expiresAt
      targetRootIdentity := s.targetRootIdentity
      workspaceRootIdentity := s.workspaceRootIdentity
      waitingSince := if s.sessionStatus.waiting then some (timeText now) else none
      entryFingerprint := "" }

/-- `max(sequence numbers or 0) + 1` -/
def nextSequence (entries : List QueueEntry) : ℕ :=
  entries.foldl (fun n e => max n e.sequenceNumber) 0 + 1

/-- `enqueue_session`, for the session loaded from `path`. -/
def enqueueSession (state : SchedulerState) (path : String) (loaded : Except Err Session)
    (priority : ℤ) (now : Instant) : Except Err SchedulerState :=
  let reasons := validateSchedulerState F state
  if reasons ≠ [] then .error (.valueError (";".intercalate reasons))
  else if priority < -100 ∨ 100 < priority then .error (.valueError "invalid_priority")
  else do
    let session ← loaded
    match state.entries.find? fun e => e.sessionId = session.sessionId with
    | some existing =>
      if existing.sessionFingerprint = session.sessionFingerprint then .ok state
      else .error (.valueError "duplicate_active_queue_entry")
    | none =>
      if session.sessionStatus.terminal then .error (.valueError "terminal_session_not_enqueueable")
      else
        let entry := projection F session path priority (nextSequence state.entries) now
        .ok (sealSchedulerState F
          { state with entries := state.entries ++ [entry], updatedAt := timeText now })

end Digest

end Sessions
end ZeroRuntime
