import Mathlib.Data.PNat.Basic
import ZeroRuntime.Lib.Dict
import ZeroRuntime.Lib.Machine
import ZeroRuntime.Lib.Value

/-!
# ZeroRuntime.Lease.Registry

The lease registry of runtime sessions (`core/runtime/runtime_session_lease.py`): a table of
sessions, each naming its lease, and a table of every lease ever granted.

A method answers with what it returns, or the exception it raises, and the registry as it then is:
`renew_lease` and `acquire_lease` record an expiry before they raise or go on. Wall-clock stamps and
the event log, which no method reads, are left out.

`fingerprint` stands for the hexadecimal SHA-256 of the canonical JSON text of a session, an owner
and a generation.
-/

namespace ZeroRuntime
namespace Lease

open Lib

inductive LeaseStatus where
  | active | expired | released | transferred | revoked
deriving DecidableEq, Repr

inductive SessionStatus where
  | registered | active | expired | zombie | transferred | released
deriving DecidableEq, Repr

def LeaseStatus.text : LeaseStatus → String
  | .active => "active"
  | .expired => "expired"
  | .released => "released"
  | .transferred => "transferred"
  | .revoked => "revoked"

abbrev Entries := List (String × Val)

structure RuntimeSessionRecord where
  sessionId : String
  ownerId : String := ""
  taskId : String := ""
  status : SessionStatus := .registered
  leaseId : String := ""
  lastHeartbeatTick : ℤ := 0
  createdTick : ℤ := 0
  updatedTick : ℤ := 0
  takeoverCount : ℤ := 0
  payload : Entries := []
  metadata : Entries := []

structure RuntimeSessionLease where
  leaseId : String
  sessionId : String
  ownerId : String
  status : LeaseStatus := .active
  acquiredTick : ℤ := 0
  renewedTick : ℤ := 0
  expiresTick : ℤ := 0
  generation : ℕ+ := 1
  previousOwnerId : String := ""
  payload : Entries := []
  metadata : Entries := []

structure RuntimeSessionLeaseRegistry where
  defaultTtlTicks : ℤ
  zombieAfterTicks : ℤ
  sessions : Dict String RuntimeSessionRecord
  leases : Dict String RuntimeSessionLease

abbrev RegistryM (α : Type) := Except Err α × RuntimeSessionLeaseRegistry

def validateText (fieldName value : String) : Except Err String :=
  let text := Text.strip value
  if text = "" then .error (.rejected (fieldName ++ "_required")) else .ok text

namespace RuntimeSessionLeaseRegistry

def init (defaultTtlTicks zombieAfterTicks : ℤ) : RuntimeSessionLeaseRegistry :=
  ⟨max 1 defaultTtlTicks, max 1 zombieAfterTicks, .empty, .empty⟩

def putSession (r : RuntimeSessionLeaseRegistry) (id : String) (s : RuntimeSessionRecord) :
    RuntimeSessionLeaseRegistry := { r with sessions := r.sessions.set id s }

def putLease (r : RuntimeSessionLeaseRegistry) (id : String) (l : RuntimeSessionLease) :
    RuntimeSessionLeaseRegistry := { r with leases := r.leases.set id l }

/-- `dict.update` on the entries of a mapping. -/
def update (kvs new : Entries) : Entries := new.foldl (fun acc e => Val.put e.1 e.2 acc) kvs

/-- The record `register_session` stores for a valid session id. -/
def registered (existing : Option RuntimeSessionRecord) (sessionId taskId ownerId : String)
    (currentTick : ℤ) (payload metadata : Entries) : RuntimeSessionRecord :=
  match existing with
  | some s =>
    { s with
      taskId := if taskId ≠ "" then taskId else s.taskId
      ownerId := if ownerId ≠ "" then ownerId else s.ownerId
      updatedTick := currentTick
      payload := if payload.isEmpty then s.payload else payload
      metadata := update s.metadata metadata }
  | none =>
    { sessionId := sessionId, taskId := taskId, ownerId := ownerId
      lastHeartbeatTick := currentTick, createdTick := currentTick, updatedTick := currentTick
      payload := payload, metadata := metadata }

def storeSession (r : RuntimeSessionLeaseRegistry) (sessionId taskId ownerId : String)
    (currentTick : ℤ) (payload metadata : Entries) : RuntimeSessionLeaseRegistry :=
  r.putSession sessionId (registered (r.sessions.get? sessionId) sessionId taskId ownerId
    currentTick payload metadata)

def registerSession (r : RuntimeSessionLeaseRegistry) (sessionId taskId ownerId : String)
    (currentTick : ℤ) (payload metadata : Entries) : RegistryM RuntimeSessionRecord :=
  match validateText "session_id" sessionId with
  | .error e => (.error e, r)
  | .ok sessionId =>
    (.ok (registered (r.sessions.get? sessionId) sessionId taskId ownerId currentTick payload
      metadata), r.storeSession sessionId taskId ownerId currentTick payload metadata)

def markSessionExpired (r : RuntimeSessionLeaseRegistry) (sessionId : String) (currentTick : ℤ) :
    RegistryM RuntimeSessionRecord :=
  match r.sessions.get? sessionId with
  | none => (.error (.rejected ("runtime_session_not_found: " ++ Text.quoted sessionId)), r)
  | some s =>
    let expired := { s with status := .expired, updatedTick := currentTick }
    (.ok expired, r.putSession sessionId expired)

/-- Recording that a lease has run out, and its session with it. -/
def expire (r : RuntimeSessionLeaseRegistry) (lease : RuntimeSessionLease) (sessionId : String)
    (currentTick : ℤ) : RegistryM RuntimeSessionRecord :=
  (r.putLease lease.leaseId { lease with status := .expired }).markSessionExpired sessionId
    currentTick

def recordedLease (r : RuntimeSessionLeaseRegistry) (sessionId : String) :
    Option RuntimeSessionLease := do
  let s ← r.sessions.get? sessionId
  if s.leaseId = "" then none
  else
    let lease ← r.leases.get? s.leaseId
    if lease.status = .active then some lease else none

def activeLeaseForSession (r : RuntimeSessionLeaseRegistry) (sessionId : String)
    (currentTick : ℤ) : RegistryM (Option RuntimeSessionLease) :=
  match r.recordedLease sessionId with
  | none => (.ok none, r)
  | some lease =>
    if lease.expiresTick < currentTick then
      let e := r.expire lease sessionId currentTick
      (e.1.map fun _ => none, e.2)
    else (.ok (some lease), r)

section Leases

variable (fingerprint : String → String → ℕ+ → String)

def leaseIdOf (sessionId ownerId : String) (generation : ℕ+) : String :=
  "runtime-session-lease-" ++ Text.take 16 (fingerprint sessionId ownerId generation)

def ttl (r : RuntimeSessionLeaseRegistry) (ttlTicks : Option ℤ) : ℤ :=
  max 1 (ttlTicks.getD r.defaultTtlTicks)

/-- The lease `acquire_lease` grants over the current one. -/
def grantedLease (r : RuntimeSessionLeaseRegistry) (current : Option RuntimeSessionLease)
    (sessionId ownerId : String) (currentTick : ℤ) (ttlTicks : Option ℤ) (metadata : Entries) :
    RuntimeSessionLease :=
  let generation := match current with
    | none => 1
    | some c => if c.ownerId = ownerId then c.generation else c.generation + 1
  let previousOwnerId := (current.map fun c => c.ownerId).getD ""
  { leaseId := leaseIdOf fingerprint sessionId ownerId generation
    sessionId := sessionId
    ownerId := ownerId
    acquiredTick := currentTick
    renewedTick := currentTick
    expiresTick := currentTick + r.ttl ttlTicks
    generation := generation
    previousOwnerId := if previousOwnerId ≠ ownerId then previousOwnerId else ""
    metadata := metadata }

/-- Marking the lease another owner holds as transferred. -/
def transfer (r : RuntimeSessionLeaseRegistry) (current : Option RuntimeSessionLease)
    (ownerId : String) : RuntimeSessionLeaseRegistry :=
  match current with
  | none => r
  | some c =>
    if c.ownerId = ownerId then r else r.putLease c.leaseId { c with status := .transferred }

/-- Storing a granted lease and naming it in its session's record. -/
def grant (r : RuntimeSessionLeaseRegistry) (lease : RuntimeSessionLease) (currentTick : ℤ) :
    RegistryM RuntimeSessionLease :=
  let r := r.putLease lease.leaseId lease
  match r.sessions.get? lease.sessionId with
  | none => (.error .keyError, r)
  | some s =>
    (.ok lease, r.putSession lease.sessionId
      { s with ownerId := lease.ownerId, status := .active, leaseId := lease.leaseId,
               updatedTick := currentTick })

def acquire (r : RuntimeSessionLeaseRegistry) (sessionId ownerId : String) (currentTick : ℤ)
    (ttlTicks : Option ℤ) (force : Bool) (metadata : Entries) : RegistryM RuntimeSessionLease :=
  let r := if r.sessions.contains sessionId then r
    else r.storeSession sessionId "" ownerId currentTick [] []
  match r.activeLeaseForSession sessionId currentTick with
  | (.error e, r) => (.error e, r)
  | (.ok current, r) =>
    match current.filter fun c => c.ownerId ≠ ownerId && !force with
    | some c => (.error (.rejected ("runtime_session_lease_conflict: session=" ++
        Text.quoted sessionId ++ " active_owner=" ++ Text.quoted c.ownerId)), r)
    | none => (r.transfer current ownerId).grant
        (r.grantedLease fingerprint current sessionId ownerId currentTick ttlTicks metadata)
        currentTick

def acquireLease (r : RuntimeSessionLeaseRegistry) (sessionId ownerId : String) (currentTick : ℤ)
    (ttlTicks : Option ℤ) (force : Bool) (metadata : Entries) : RegistryM RuntimeSessionLease :=
  match validateText "session_id" sessionId, validateText "owner_id" ownerId with
  | .error e, _ => (.error e, r)
  | .ok _, .error e => (.error e, r)
  | .ok sessionId, .ok ownerId =>
    r.acquire fingerprint sessionId ownerId currentTick ttlTicks force metadata

/-- `takeover_session` once its arguments are checked. -/
def takeover (r : RuntimeSessionLeaseRegistry) (sessionId newOwnerId : String) (currentTick : ℤ)
    (reason : String) (ttlTicks : Option ℤ) : RegistryM RuntimeSessionLease :=
  let r := if r.sessions.contains sessionId then r
    else r.storeSession sessionId "" "" currentTick [] []
  let oldTakeoverCount := ((r.sessions.get? sessionId).map fun s => s.takeoverCount).getD 0
  match r.acquireLease fingerprint sessionId newOwnerId currentTick ttlTicks true
      [("takeover_reason", .str reason)] with
  | (.error e, r) => (.error e, r)
  | (.ok lease, r) =>
    match r.sessions.get? sessionId with
    | none => (.error .keyError, r)
    | some s => (.ok lease, r.putSession sessionId
        { s with status := .transferred, takeoverCount := oldTakeoverCount + 1,
                 updatedTick := currentTick })

def takeoverSession (r : RuntimeSessionLeaseRegistry) (sessionId newOwnerId : String)
    (currentTick : ℤ) (reason : String) (ttlTicks : Option ℤ) : RegistryM RuntimeSessionLease :=
  match validateText "session_id" sessionId, validateText "new_owner_id" newOwnerId with
  | .error e, _ => (.error e, r)
  | .ok _, .error e => (.error e, r)
  | .ok sessionId, .ok newOwnerId =>
    r.takeover fingerprint sessionId newOwnerId currentTick reason ttlTicks

end Leases

def renew (r : RuntimeSessionLeaseRegistry) (leaseId ownerId : String) (currentTick : ℤ)
    (ttlTicks : Option ℤ) (heartbeat : Bool) : RegistryM RuntimeSessionLease :=
  match r.leases.get? leaseId with
  | none => (.error (.rejected ("runtime_session_lease_not_found: " ++ Text.quoted leaseId)), r)
  | some lease =>
    if lease.ownerId ≠ ownerId then
      (.error (.rejected "runtime_session_lease_owner_mismatch"), r)
    else if lease.status ≠ .active then
      (.error (.rejected
        ("runtime_session_lease_not_active: " ++ Text.quoted lease.status.text)), r)
    else if lease.expiresTick < currentTick then
      match (r.putLease leaseId { lease with status := .expired }).markSessionExpired
          lease.sessionId currentTick with
      | (.error e, r) => (.error e, r)
      | (.ok _, r) => (.error (.rejected "runtime_session_lease_expired"), r)
    else
      let renewed := { lease with
        renewedTick := currentTick, expiresTick := currentTick + r.ttl ttlTicks }
      let r := r.putLease leaseId renewed
      match r.sessions.get? lease.sessionId with
      | none => (.ok renewed, r)
      | some s => (.ok renewed, r.putSession lease.sessionId
          { s with status := .active, ownerId := ownerId, leaseId := leaseId,
                   lastHeartbeatTick := if heartbeat then currentTick else s.lastHeartbeatTick,
                   updatedTick := currentTick })

def renewLease (r : RuntimeSessionLeaseRegistry) (leaseId ownerId : String) (currentTick : ℤ)
    (ttlTicks : Option ℤ) (heartbeat : Bool) : RegistryM RuntimeSessionLease :=
  match validateText "lease_id" leaseId, validateText "owner_id" ownerId with
  | .error e, _ => (.error e, r)
  | .ok _, .error e => (.error e, r)
  | .ok leaseId, .ok ownerId => r.renew leaseId ownerId currentTick ttlTicks heartbeat

/-- `heartbeat` once its arguments are checked. -/
def beat (r : RuntimeSessionLeaseRegistry) (sessionId ownerId : String) (currentTick : ℤ) :
    RegistryM RuntimeSessionRecord :=
  match r.sessions.get? sessionId with
  | none => (.error (.rejected ("runtime_session_not_found: " ++ Text.quoted sessionId)), r)
  | some s =>
    match (r.leases.get? s.leaseId).filter fun l => l.ownerId = ownerId && l.status = .active with
    | none => (.error (.rejected "runtime_session_heartbeat_without_active_lease"), r)
    | some lease =>
      match r.renewLease lease.leaseId ownerId currentTick none true with
      | (.error e, r) => (.error e, r)
      | (.ok _, r) => ((r.sessions.get? sessionId).elim (.error .keyError) .ok, r)

def heartbeat (r : RuntimeSessionLeaseRegistry) (sessionId ownerId : String) (currentTick : ℤ) :
    RegistryM RuntimeSessionRecord :=
  match validateText "session_id" sessionId, validateText "owner_id" ownerId with
  | .error e, _ => (.error e, r)
  | .ok _, .error e => (.error e, r)
  | .ok sessionId, .ok ownerId => r.beat sessionId ownerId currentTick

/-- `release_lease` once its arguments are checked. -/
def release (r : RuntimeSessionLeaseRegistry) (leaseId ownerId : String) (currentTick : ℤ) :
    RegistryM RuntimeSessionLease :=
  match r.leases.get? leaseId with
  | none => (.error (.rejected ("runtime_session_lease_not_found: " ++ Text.quoted leaseId)), r)
  | some lease =>
    if lease.ownerId ≠ ownerId then
      (.error (.rejected "runtime_session_lease_owner_mismatch"), r)
    else
      let released := { lease with status := .released }
      let r := r.putLease leaseId released
      match r.sessions.get? lease.sessionId with
      | none => (.ok released, r)
      | some s => (.ok released, r.putSession lease.sessionId
          { s with status := .released, updatedTick := currentTick })

def releaseLease (r : RuntimeSessionLeaseRegistry) (leaseId ownerId : String) (currentTick : ℤ) :
    RegistryM RuntimeSessionLease :=
  match validateText "lease_id" leaseId, validateText "owner_id" ownerId with
  | .error e, _ => (.error e, r)
  | .ok _, .error e => (.error e, r)
  | .ok leaseId, .ok ownerId => r.release leaseId ownerId currentTick

def skipped (s : RuntimeSessionRecord) : Bool := s.status = .released || s.status = .zombie

/-- The loop of `detect_expired`, over the sessions as they were when it began. -/
def expireLoop (currentTick : ℤ) : List (String × RuntimeSessionRecord) →
    RuntimeSessionLeaseRegistry → RegistryM (List RuntimeSessionRecord)
  | [], r => (.ok [], r)
  | (sessionId, s) :: rest, r =>
    match (r.leases.get? s.leaseId).filter fun l =>
        !skipped s && l.status = .active && l.expiresTick < currentTick with
    | none => expireLoop currentTick rest r
    | some lease =>
      match r.expire lease sessionId currentTick with
      | (.error e, r) => (.error e, r)
      | (.ok expired, r) =>
        let more := expireLoop currentTick rest r
        (more.1.map fun found => expired :: found, more.2)

def detectExpired (r : RuntimeSessionLeaseRegistry) (currentTick : ℤ) :
    RegistryM (List RuntimeSessionRecord) := expireLoop currentTick r.sessions.entries r

def heartbeatTick (s : RuntimeSessionRecord) : ℤ :=
  if s.lastHeartbeatTick ≤ 0 then s.createdTick else s.lastHeartbeatTick

/-- The loop of `detect_zombies`. -/
def zombieLoop (currentTick : ℤ) : List (String × RuntimeSessionRecord) →
    RuntimeSessionLeaseRegistry → List RuntimeSessionRecord × RuntimeSessionLeaseRegistry
  | [], r => ([], r)
  | (sessionId, s) :: rest, r =>
    if skipped s || currentTick - heartbeatTick s < r.zombieAfterTicks then
      zombieLoop currentTick rest r
    else
      let zombie := { s with status := .zombie, updatedTick := currentTick }
      let more := zombieLoop currentTick rest (r.putSession sessionId zombie)
      (zombie :: more.1, more.2)

def detectZombies (r : RuntimeSessionLeaseRegistry) (currentTick : ℤ) :
    List RuntimeSessionRecord × RuntimeSessionLeaseRegistry :=
  zombieLoop currentTick r.sessions.entries r

def tick (r : RuntimeSessionLeaseRegistry) (currentTick : ℤ) :
    RegistryM (List RuntimeSessionRecord × List RuntimeSessionRecord) :=
  match r.detectExpired currentTick with
  | (.error e, r) => (.error e, r)
  | (.ok expired, r) =>
    let z := r.detectZombies currentTick
    (.ok (expired, z.1), z.2)

inductive LeaseCall where
  | registerSession (sessionId taskId ownerId : String) (currentTick : ℤ)
      (payload metadata : Entries)
  | acquireLease (sessionId ownerId : String) (currentTick : ℤ) (ttlTicks : Option ℤ)
      (force : Bool) (metadata : Entries)
  | renewLease (leaseId ownerId : String) (currentTick : ℤ) (ttlTicks : Option ℤ)
      (heartbeat : Bool)
  | heartbeat (sessionId ownerId : String) (currentTick : ℤ)
  | releaseLease (leaseId ownerId : String) (currentTick : ℤ)
  | takeoverSession (sessionId newOwnerId : String) (currentTick : ℤ) (reason : String)
      (ttlTicks : Option ℤ)
  | detectExpired (currentTick : ℤ)
  | detectZombies (currentTick : ℤ)
  | tick (currentTick : ℤ)

inductive LeaseAnswer where
  | session (r : Except Err RuntimeSessionRecord)
  | lease (r : Except Err RuntimeSessionLease)
  | sessions (r : Except Err (List RuntimeSessionRecord))
  | ticked (r : Except Err (List RuntimeSessionRecord × List RuntimeSessionRecord))

def call (fingerprint : String → String → ℕ+ → String) (r : RuntimeSessionLeaseRegistry) :
    LeaseCall → LeaseAnswer × RuntimeSessionLeaseRegistry
  | .registerSession sessionId taskId ownerId now payload metadata =>
    (r.registerSession sessionId taskId ownerId now payload metadata).map .session id
  | .acquireLease sessionId ownerId now ttlTicks force metadata =>
    (r.acquireLease fingerprint sessionId ownerId now ttlTicks force metadata).map .lease id
  | .renewLease leaseId ownerId now ttlTicks heartbeat =>
    (r.renewLease leaseId ownerId now ttlTicks heartbeat).map .lease id
  | .heartbeat sessionId ownerId now => (r.heartbeat sessionId ownerId now).map .session id
  | .releaseLease leaseId ownerId now => (r.releaseLease leaseId ownerId now).map .lease id
  | .takeoverSession sessionId newOwnerId now reason ttlTicks =>
    (r.takeoverSession fingerprint sessionId newOwnerId now reason ttlTicks).map .lease id
  | .detectExpired now => (r.detectExpired now).map .sessions id
  | .detectZombies now => (r.detectZombies now).map (fun found => .sessions (.ok found)) id
  | .tick now => (r.tick now).map .ticked id

def machine (fingerprint : String → String → ℕ+ → String) :
    Machine RuntimeSessionLeaseRegistry LeaseCall LeaseAnswer := ⟨call fingerprint⟩

end RuntimeSessionLeaseRegistry
end Lease
end ZeroRuntime
