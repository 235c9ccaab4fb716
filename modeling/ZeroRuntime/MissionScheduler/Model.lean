import ZeroRuntime.Lib.Reasons
import ZeroRuntime.Lib.Sorted
import ZeroRuntime.Sessions.Operator

/-!
# ZeroRuntime.MissionScheduler.Model

The mission scheduler (`core/runtime/runtime_mission_scheduler.py`): missions wait as entries, an
entry is leased to an owner, a driver runs its mission, and the lease is released.

* `SchedulerDigest` stands for `fingerprint`, on entries, states and the identities of entries and
  leases. Paths are resolved; a counter is what `int(x or 0)` makes of its field.
* `startIteration` and `finishIteration` are `run_mission_scheduler_iteration` before and after its
  driver runs: other schedulers may use the file in between.
* What the driver and the event bus answer is an argument.
-/

namespace ZeroRuntime
namespace MissionScheduler

open Lib Sessions

/-! ## Records -/

inductive EntryStatus where
  | queued | leased | running | waiting
  | completed | partiallyCompleted | blocked | failed | cancelled | expired
deriving DecidableEq, Repr

namespace EntryStatus

/-- `TERMINAL_ENTRY_STATUSES`, which are also `MISSION_TERMINAL_STATUSES`, by their texts. -/
def terminals : List (String × EntryStatus) :=
  [("completed", completed), ("partially_completed", partiallyCompleted), ("blocked", blocked),
    ("failed", failed), ("cancelled", cancelled), ("expired", expired)]

def terminal : EntryStatus → Bool
  | queued | leased | running | waiting => false
  | completed | partiallyCompleted | blocked | failed | cancelled | expired => true

/-- The statuses that need a lease. -/
def held : EntryStatus → Bool
  | leased | running => true
  | _ => false

def ofText (text : String) : Option EntryStatus := (terminals.find? (·.1 = text)).map Prod.snd

end EntryStatus

/-- `expires_at` of a lease: not there, a text that is no time, or a time. -/
inductive Expiry where
  | missing | unreadable | at (time : ℕ)
deriving DecidableEq, Repr

structure MissionLease where
  leaseId : Val
  owner : Val
  acquiredAt : ℕ
  expiresAt : Expiry

structure Entry where
  contract : String
  entryId : String
  missionId : String
  missionPath : String
  missionStatus : String
  entryStatus : EntryStatus
  priority : ℤ
  enqueuedAt : ℕ
  updatedAt : ℕ
  startedAt : Option ℕ := none
  completedAt : Option ℕ
  lease : Option MissionLease := none
  attemptCount : ℤ := 0
  lastDriverResult : Val := .none
  lastError : Val := .none
  entryFingerprint : String

inductive SchedulerStatus where
  | created | running | idle | paused | stopping | stopped | blocked | failed
deriving DecidableEq, Repr

structure SchedulerState where
  contract : String
  schedulerId : String
  schedulerName : String
  schedulerStatus : SchedulerStatus
  entries : Dict String Entry
  entryOrder : List String
  createdAt : ℕ
  updatedAt : ℕ
  startedAt : Option ℕ := none
  stoppedAt : Option ℕ := none
  loopIteration : ℤ := 0
  completedMissions : ℤ := 0
  waitingMissions : ℤ := 0
  blockedMissions : ℤ := 0
  failedMissions : ℤ := 0
  recoveredLeases : ℤ := 0
  idleIterations : ℤ := 0
  stopRequested : Bool := false
  pauseRequested : Bool := false
  currentEntryId : Option String := none
  currentMissionId : Option String := none
  lastResult : Val := .none
  lastEventId : Option String := none
  failure : Val := .none
  schedulerFingerprint : String

/-- What the id of a lease is made from. -/
structure LeaseIdentity where
  schedulerId : String
  entryId : String
  owner : String
  acquiredAt : ℕ
deriving DecidableEq, Repr

structure SchedulerDigest where
  entry : Entry → String
  state : SchedulerState → String
  entryIdentity : String → String → String
  leaseIdentity : LeaseIdentity → String

/-- An exception: the name of its class and its message. -/
structure Raised where
  kind : String
  message : String
deriving DecidableEq, Repr

def valueError (message : String) : Raised := ⟨"ValueError", message⟩

/-- `f"{type(exc).__name__}:{exc}"` -/
def Raised.reason (e : Raised) : String := e.kind ++ ":" ++ e.message

/-- `CONTRACT` -/
def schedulerContract : String := "zero.runtime.mission_scheduler.v1"

def entryContract : String := "zero.runtime.mission_scheduler_entry.v1"

/-- `not str(x or "").strip()` -/
def blank (x : Val) : Bool := x.text = ""

section Digest

variable (F : SchedulerDigest)

def entryIdOf (missionId missionPath : String) : String :=
  "mission-scheduler-entry-" ++ F.entryIdentity missionId missionPath

def leaseIdOf (i : LeaseIdentity) : String := "mission-scheduler-lease-" ++ F.leaseIdentity i

/-! ## Seals and validation -/

def unsignedEntry (e : Entry) : Entry := { e with entryFingerprint := "" }

/-- `seal_mission_scheduler_entry` -/
def sealEntry (e : Entry) : Entry := { e with entryFingerprint := F.entry (unsignedEntry e) }

def leaseReasons (lease : Option MissionLease) : List String :=
  match lease with
  | none => ["mission_scheduler_active_lease_required"]
  | some l =>
    if blank l.leaseId then ["mission_scheduler_lease_id_required"]
    else if blank l.owner then ["mission_scheduler_lease_owner_required"]
    else if l.expiresAt = .missing then ["mission_scheduler_lease_expiry_required"]
    else []

/-- `validate_mission_scheduler_entry` -/
def validateEntry (e : Entry) : List String :=
  (if e.contract = entryContract then [] else ["invalid_mission_scheduler_entry_contract"]) ++
  (if e.entryFingerprint = F.entry (unsignedEntry e) then []
    else ["mission_scheduler_entry_fingerprint_mismatch"]) ++
  (if blank (.str e.entryId) then ["mission_scheduler_entry_id_required"] else []) ++
  (if blank (.str e.missionId) then ["mission_id_required"] else []) ++
  (if blank (.str e.missionPath) then ["mission_path_required"] else []) ++
  (if -100 ≤ e.priority ∧ e.priority ≤ 100 then [] else ["invalid_mission_scheduler_priority"]) ++
  (if e.entryStatus.held then leaseReasons e.lease else [])

def unsignedState (s : SchedulerState) : SchedulerState := { s with schedulerFingerprint := "" }

/-- `seal_mission_scheduler_state` -/
def sealState (s : SchedulerState) : SchedulerState :=
  { s with schedulerFingerprint := F.state (unsignedState s) }

def entryReasons (entries : Dict String Entry) : String → List String :=
  keyedReasons "mission_scheduler_entry_identity_mismatch:" Entry.entryId (validateEntry F) entries

/-- `validate_mission_scheduler_state` -/
def validateState (s : SchedulerState) : List String :=
  (if s.contract = schedulerContract then [] else ["invalid_mission_scheduler_contract"]) ++
  (if s.schedulerFingerprint = F.state (unsignedState s) then []
    else ["mission_scheduler_fingerprint_mismatch"]) ++
  (if blank (.str s.schedulerId) then ["mission_scheduler_id_required"] else []) ++
  (if SameKeys s.entryOrder s.entries.keys then []
    else ["mission_scheduler_entry_order_mismatch"]) ++
  s.entryOrder.flatMap (entryReasons F s.entries)

/-- `create_mission_scheduler_state`, under the id made from its name and path. -/
def createState (schedulerId schedulerName : String) (now : Instant) :
    Except Raised SchedulerState :=
  let name := Text.strip schedulerName
  if name = "" then .error (valueError "mission_scheduler_name_required")
  else
    .ok (sealState F
      { contract := schedulerContract, schedulerId, schedulerName := name
        schedulerStatus := .created, entries := Dict.empty, entryOrder := []
        createdAt := timeText now, updatedAt := timeText now, schedulerFingerprint := "" })

/-- `load_mission_scheduler_state` of a file that holds a state. -/
def loadState (file : SchedulerState) : Except Raised SchedulerState :=
  if validateState F file = [] then .ok file
  else .error (valueError (String.intercalate ";" (validateState F file)))

/-- `save_mission_scheduler_state`: the state that is saved, and from then on in the file. -/
def saveState (s : SchedulerState) : Except Raised SchedulerState := loadState F (sealState F s)

/-! ## Operations on the state -/

/-- What `load_mission` reads of a mission. -/
structure MissionFile where
  missionId : Val
  missionStatus : Val

/-- `enqueue_mission` of the mission at a path, as `load_mission` answers. -/
def enqueueMission (s : SchedulerState) (path : String) (mission : Except Raised MissionFile)
    (priority : ℤ) (now : Instant) : Except Raised SchedulerState :=
  if priority < -100 ∨ 100 < priority then
    .error (valueError "invalid_mission_scheduler_priority")
  else do
    let s ← loadState F s
    let mission ← mission
    let missionId := mission.missionId.text
    if missionId = "" then .error (valueError "mission_id_required")
    else
      let entryId := entryIdOf F missionId path
      match s.entries.get? entryId with
      | some existing =>
        if existing.missionId ≠ missionId then
          .error (valueError "mission_scheduler_entry_collision")
        else .ok s
      | none =>
        let status := mission.missionStatus.text
        let entryStatus := (EntryStatus.ofText status).getD .queued
        let at' := timeText now
        let entry := sealEntry F
          { contract := entryContract, entryId, missionId, missionPath := path
            missionStatus := status, entryStatus, priority, enqueuedAt := at', updatedAt := at'
            completedAt := if entryStatus.terminal then some at' else none
            entryFingerprint := "" }
        .ok (sealState F
          { s with
            entries := s.entries.set entryId entry
            entryOrder := s.entryOrder ++ [entryId]
            updatedAt := at' })

def isExpired (lease : Option MissionLease) (now : Instant) : Bool :=
  match lease with
  | some { expiresAt := .at time, .. } => reached now time
  | _ => true

/-- The lease of the entry is one that has run out. -/
def overdue (now : Instant) (e : Entry) : Bool := e.entryStatus.held && isExpired e.lease now

def requeued (now : Instant) (e : Entry) : Entry :=
  { e with
    entryStatus := .queued
    lease := none
    updatedAt := timeText now
    lastError := .dict [("reason", .str "mission_scheduler_lease_expired")] }

/-- One turn of the loop of `_recover_expired_leases`: the entries, and how many were recovered. -/
def recoverEntry (now : Instant) (acc : Dict String Entry × ℤ) (id : String) :
    Dict String Entry × ℤ :=
  match acc.1.get? id with
  | none => acc
  | some e =>
    if overdue now e then (acc.1.set id (sealEntry F (requeued now e)), acc.2 + 1) else acc

def recoverExpiredLeases (s : SchedulerState) (now : Instant) : SchedulerState × ℤ :=
  let (entries, recovered) := s.entryOrder.foldl (recoverEntry F now) (s.entries, 0)
  (sealState F { s with entries, recoveredLeases := s.recoveredLeases + recovered }, recovered)

/-- The last place of an entry in the order. -/
def orderIndex (order : List String) (id : String) : ℕ :=
  match order.reverse.idxOf? id with
  | some i => order.length - 1 - i
  | none => 1000000000

def candidateBefore (order : List String) (a b : Entry) : Bool :=
  if a.priority ≠ b.priority then b.priority < a.priority
  else if orderIndex order a.entryId ≠ orderIndex order b.entryId then
    orderIndex order a.entryId < orderIndex order b.entryId
  else a.enqueuedAt < b.enqueuedAt

/-- The first of `_ordered_candidate_entries`. -/
def nextCandidate (s : SchedulerState) : Option Entry :=
  firstBest (candidateBefore s.entryOrder)
    (s.entries.values.filter fun e => e.entryStatus = .queued ∨ e.entryStatus = .waiting)

theorem nextCandidate_get? {s : SchedulerState} {e : Entry}
    (hkeyed : ∀ id e, s.entries.get? id = some e → e.entryId = id)
    (he : nextCandidate s = some e) :
    s.entries.get? e.entryId = some e ∧ (e.entryStatus = .queued ∨ e.entryStatus = .waiting) := by
  obtain ⟨hmem, hstatus⟩ := List.mem_filter.mp (firstBest_mem he)
  obtain ⟨id, hget⟩ := Dict.mem_values.mp hmem
  have hid := hkeyed id e hget
  subst hid
  exact ⟨hget, of_decide_eq_true hstatus⟩

def newLease (s : SchedulerState) (e : Entry) (owner : String) (leaseSeconds : ℕ) (now : Instant) :
    MissionLease where
  leaseId := .str (leaseIdOf F
    { schedulerId := s.schedulerId, entryId := e.entryId, owner, acquiredAt := timeText now })
  owner := .str owner
  acquiredAt := timeText now
  expiresAt := .at (timeText now + leaseSeconds)

def leasedEntry (lease : MissionLease) (e : Entry) : Entry :=
  { e with entryStatus := .leased, lease := some lease, updatedAt := lease.acquiredAt }

def grant (s : SchedulerState) (e : Entry) (lease : MissionLease) : SchedulerState :=
  sealState F
    { s with
      entries := s.entries.set e.entryId (sealEntry F (leasedEntry lease e))
      currentEntryId := some e.entryId
      currentMissionId := some e.missionId
      updatedAt := lease.acquiredAt }

def leaseNextMission (s : SchedulerState) (owner : String) (leaseSeconds : ℤ) (now : Instant) :
    Except Raised (SchedulerState × Option MissionLease) :=
  let owner := Text.strip owner
  if owner = "" then .error (valueError "mission_scheduler_lease_owner_required")
  else if leaseSeconds < 1 then .error (valueError "invalid_mission_scheduler_lease_seconds")
  else
    let s := (recoverExpiredLeases F s now).1
    match nextCandidate s with
    | none => .ok (s, none)
    | some e =>
      let lease := newLease F s e owner leaseSeconds.toNat now
      .ok (grant F s e lease, some lease)

/-- An entry whose lease was given back. -/
def released (next : EntryStatus) (now : Instant) (e : Entry) : Entry :=
  { e with
    entryStatus := next
    lease := none
    updatedAt := timeText now
    completedAt := if next.terminal then some (timeText now) else e.completedAt }

def leaseError (lease : Option MissionLease) (leaseId owner : String) : Option String :=
  match lease with
  | none => some "mission_scheduler_lease_identity_mismatch"
  | some l =>
    if l.leaseId.eq (.str leaseId) = false then some "mission_scheduler_lease_identity_mismatch"
    else if l.owner.eq (.str owner) = false then some "mission_scheduler_lease_owner_mismatch"
    else none

def releaseMissionLease (s : SchedulerState) (entryId leaseId owner : String) (next : EntryStatus)
    (now : Instant) : Except Raised SchedulerState :=
  match s.entries.get? entryId with
  | none => .error (valueError "mission_scheduler_entry_not_found")
  | some e =>
    match leaseError e.lease leaseId owner with
    | some message => .error (valueError message)
    | none =>
      .ok (sealState F
        { s with
          entries := s.entries.set entryId (sealEntry F (released next now e))
          currentEntryId := none
          currentMissionId := none
          updatedAt := timeText now })

inductive Action where
  | pause | resume | stop
deriving DecidableEq, Repr

/-- `request_mission_scheduler_action` -/
def requestAction (s : SchedulerState) (action : Action) (now : Instant) : SchedulerState :=
  let s := { s with updatedAt := timeText now }
  match action with
  | .pause => sealState F { s with pauseRequested := true, schedulerStatus := .paused }
  | .resume =>
    sealState F
      { s with pauseRequested := false, stopRequested := false, schedulerStatus := .idle }
  | .stop => sealState F { s with stopRequested := true, schedulerStatus := .stopping }

/-! ## An iteration -/

/-- What publishing answers: nothing without a bus, the id of the event, or what it raises. -/
abbrev Published := Except Raised (Option String)

/-- The file after a part of an iteration, and what that part returns or raises. -/
abbrev Outcome (α : Type) := SchedulerState × Except Raised α

/-- A state is saved, and the part of the iteration goes on with what was saved. -/
def saving {α : Type} (file s : SchedulerState) (next : SchedulerState → Outcome α) : Outcome α :=
  match saveState F s with
  | .ok s => next s
  | .error e => (file, .error e)

/-- The state that is in the file is published, and saved again. -/
def announce (s : SchedulerState) (published : Published) : Outcome SchedulerState :=
  match published with
  | .error e => (s, .error e)
  | .ok none => saving F s s fun s => (s, .ok s)
  | .ok (some eventId) => saving F s { s with lastEventId := some eventId } fun s => (s, .ok s)

/-- A mission whose driver is running. -/
structure Dispatch where
  entryId : String
  missionId : String
  leaseId : String
  owner : String
deriving DecidableEq, Repr

def beginIteration (s : SchedulerState) (now : Instant) : SchedulerState :=
  let (s, recovered) := recoverExpiredLeases F s now
  { s with
    loopIteration := s.loopIteration + 1
    recoveredLeases := s.recoveredLeases + recovered }

def startedEntry (now : Instant) (e : Entry) : Entry :=
  { e with
    entryStatus := .running
    startedAt := some (e.startedAt.getD (timeText now))
    updatedAt := timeText now
    attemptCount := e.attemptCount + 1 }

def markRunning (s : SchedulerState) (entryId : String) (now : Instant) : SchedulerState :=
  { s with
    entries := s.entries.modify entryId fun e => sealEntry F (startedEntry now e)
    schedulerStatus := .running
    idleIterations := 0
    startedAt := some (s.startedAt.getD (timeText now)) }

def noMission : Val :=
  .dict [("dispatched", .bool false), ("reason", .str "no_dispatchable_mission")]

def endQuietly (file s : SchedulerState) (published : Published) : Outcome (Option Dispatch) :=
  saving F file s fun s => ((announce F s published).1, (announce F s published).2.map fun _ => none)

/-- `run_mission_scheduler_iteration` up to the driver: it has returned, or a driver is running. -/
def startIteration (file : SchedulerState) (owner : String) (leaseSeconds : ℤ) (now : Instant)
    (published : Published) : Outcome (Option Dispatch) :=
  match loadState F file with
  | .error e => (file, .error e)
  | .ok s =>
    let s := beginIteration F s now
    if s.stopRequested then
      endQuietly F file
        { s with
          schedulerStatus := .stopped, stoppedAt := some (timeText now), updatedAt := timeText now }
        published
    else if s.pauseRequested then
      endQuietly F file
        { s with
          schedulerStatus := .paused, idleIterations := s.idleIterations + 1
          updatedAt := timeText now }
        published
    else
      match leaseNextMission F s owner leaseSeconds now with
      | .error e => (file, .error e)
      | .ok (s, none) =>
        endQuietly F file
          { s with
            schedulerStatus := .idle, idleIterations := s.idleIterations + 1
            lastResult := noMission, updatedAt := timeText now }
          published
      | .ok (s, some lease) =>
        let entryId := s.currentEntryId.getD ""
        let dispatch : Dispatch :=
          { entryId, missionId := s.currentMissionId.getD "", leaseId := lease.leaseId.toText
            owner }
        saving F file (markRunning F s entryId now) fun s =>
          match published with
          | .error e => (s, .error e)
          | .ok none => (s, .ok (some dispatch))
          | .ok (some eventId) =>
            saving F s { s with lastEventId := some eventId } fun s => (s, .ok (some dispatch))

def finalStatus (result : Entries) : String := (Val.getIn "mission_status" result).text

def nextStatus (result : Entries) : EntryStatus :=
  match EntryStatus.ofText (finalStatus result) with
  | some status => status
  | none =>
    match Val.getIn "mission_waiting" result with
    | .bool true => .waiting
    | _ => .queued

/-- The counters after a mission has been stored with a status. -/
def counted (next : EntryStatus) (s : SchedulerState) : SchedulerState :=
  match next with
  | .completed => { s with completedMissions := s.completedMissions + 1 }
  | .waiting => { s with waitingMissions := s.waitingMissions + 1 }
  | .blocked => { s with blockedMissions := s.blockedMissions + 1 }
  | .failed => { s with failedMissions := s.failedMissions + 1 }
  | _ => s

def dispatchedResult (d : Dispatch) (result : Entries) : Val :=
  .dict
    [("dispatched", .bool true), ("entry_id", .str d.entryId), ("mission_id", .str d.missionId),
      ("mission_status", .str (finalStatus result)),
      ("driver_status", Val.getIn "driver_status" result),
      ("stopped_reason", Val.getIn "stopped_reason" result)]

def failedResult (d : Dispatch) (e : Raised) : Val :=
  .dict
    [("dispatched", .bool false), ("entry_id", .str d.entryId), ("mission_id", .str d.missionId),
      ("reason", .str e.reason)]

def endedEntry (result : Entries) (e : Entry) : Entry :=
  { e with
    missionStatus := finalStatus result
    lastDriverResult := .dict result
    lastError := .none }

/-- An entry is changed and sealed again. -/
def noting (s : SchedulerState) (entryId : String) (f : Entry → Entry) : SchedulerState :=
  { s with entries := s.entries.modify entryId fun e => sealEntry F (f e) }

/-- The state with the result of a mission, whose entry was stored with a status. -/
def bookResult (s : SchedulerState) (d : Dispatch) (result : Entries) (now : Instant) :
    SchedulerState :=
  { counted (nextStatus result) { s with lastResult := dispatchedResult d result } with
    schedulerStatus := .running, updatedAt := timeText now }

/-- What a driver has returned is stored and its lease released. -/
def storeResult (s : SchedulerState) (d : Dispatch) (result : Entries) (now : Instant) :
    Except Raised SchedulerState := do
  let s ← loadState F s
  let s ← releaseMissionLease F (noting F s d.entryId (endedEntry result)) d.entryId d.leaseId
    d.owner (nextStatus result) now
  saveState F (bookResult s d result now)

def failedEntry (e : Raised) (entry : Entry) : Entry :=
  { entry with
    lastError := .dict [("reason", .str e.reason)]
    missionStatus := if entry.missionStatus = "" then "unknown" else entry.missionStatus }

/-- The entry once an exception was noted on it, and its lease released if it still is its. -/
def noteFailure (s : SchedulerState) (d : Dispatch) (e : Raised) (now : Instant) :
    SchedulerState :=
  let s := noting F s d.entryId (failedEntry e)
  match releaseMissionLease F s d.entryId d.leaseId d.owner .queued now with
  | .ok s => s
  | .error _ => s

/-- The state with an exception that was noted. -/
def bookFailure (s : SchedulerState) (d : Dispatch) (e : Raised) (now : Instant) : SchedulerState :=
  { s with
    failedMissions := s.failedMissions + 1
    schedulerStatus := .blocked
    failure := .dict [("critical", .bool false), ("reasons", .list [.str e.reason])]
    lastResult := failedResult d e
    updatedAt := timeText now }

/-- The exception branch. -/
def finishFailed (file : SchedulerState) (d : Dispatch) (e : Raised) (now : Instant)
    (published : Published) : Outcome SchedulerState :=
  match loadState F file with
  | .error e => (file, .error e)
  | .ok s =>
    saving F file (bookFailure (noteFailure F s d e now) d e now) fun s => announce F s published

/-- `run_mission_scheduler_iteration` once the driver has returned or raised; `ended` and `failed`
are what publishing the end of the mission and a failure answer. -/
def finishIteration (file : SchedulerState) (d : Dispatch) (driver : Except Raised Entries)
    (ended failed : Published) (now : Instant) : Outcome SchedulerState :=
  match driver with
  | .error e => finishFailed F file d e now failed
  | .ok result =>
    match storeResult F file d result now with
    | .error e => finishFailed F file d e now failed
    | .ok s =>
      match announce F s ended with
      | (file, .error e) => finishFailed F file d e now failed
      | (file, .ok s) => (file, .ok s)

/-- What the world answers to an iteration. -/
structure Answers where
  started : Published
  driver : Except Raised Entries
  ended : Published
  failed : Published

/-- `run_mission_scheduler_iteration`, with nobody else at the file. -/
def runIteration (file : SchedulerState) (owner : String) (leaseSeconds : ℤ) (now : Instant)
    (a : Answers) : Outcome SchedulerState :=
  match startIteration F file owner leaseSeconds now a.started with
  | (file, .error e) => (file, .error e)
  | (file, .ok none) => (file, .ok file)
  | (file, .ok (some d)) => finishIteration F file d a.driver a.ended a.failed now

end Digest

end MissionScheduler
end ZeroRuntime
