import ZeroRuntime.Lib.Dict
import ZeroRuntime.Lib.Machine
import ZeroRuntime.Lib.Value

/-!
# ZeroRuntime.Ownership.Fabric

The ownership fabric (`core/runtime/runtime_ownership_isolation_fabric.py`): runtimes are registered
with an owner, capabilities and paths, they are stopped in one of three ways, and every use of a
capability on a target is decided.

* A runtime is looked up by its id without the spaces around it, and a stopped runtime is written
  under the id as it was given.
* `Text.startsWith` is how targets are compared with paths.
-/

namespace ZeroRuntime
namespace Ownership

open Lib

/-! ## Records -/

inductive RuntimeStatus where
  | active | quarantined | isolated | frozen
deriving DecidableEq, Repr

def RuntimeStatus.text : RuntimeStatus → String
  | active => "active"
  | quarantined => "quarantined"
  | isolated => "isolated"
  | frozen => "frozen"

inductive Authority where
  | allow | deny | escalate
deriving DecidableEq, Repr

structure RuntimeCapabilityScope where
  nameSpace : String
  ownerId : String
  capabilities : List String
  allowedPaths : List String
  deniedPaths : List String
deriving DecidableEq, Repr

structure RuntimeIsolationBoundary where
  runtimeId : String
  nameSpace : String
  ownerId : String
  status : RuntimeStatus
  quarantineReason : String
  restrictedCapabilities : List String
  blockedSessions : List String
deriving DecidableEq, Repr

structure RuntimeAuthorityDecision where
  runtimeId : String
  nameSpace : String
  ownerId : String
  capability : String
  target : String
  decision : Authority
  reason : String
deriving DecidableEq, Repr

structure RuntimeOwnershipRecord where
  runtimeId : String
  nameSpace : String
  ownerId : String
  sessionIds : List String
  status : RuntimeStatus
  capabilityScope : RuntimeCapabilityScope
  isolationBoundary : RuntimeIsolationBoundary
deriving DecidableEq, Repr

structure Fabric where
  ownerships : Dict String RuntimeOwnershipRecord
  decisions : List RuntimeAuthorityDecision

def Fabric.empty : Fabric := ⟨Dict.empty, []⟩

/-! ## Operations -/

structure RegisterArgs where
  runtimeId : String
  nameSpace : String
  ownerId : String
  sessionIds : List String := []
  capabilities : List String := []
  allowedPaths : List String := []
  deniedPaths : List String := []

def validateText (fieldName value : String) : Except Err String :=
  let text := Text.strip value
  if text = "" then .error (.rejected (fieldName ++ "_required")) else .ok text

section Operations

variable (f : Fabric)

def getRuntime (runtimeId : String) : Except Err RuntimeOwnershipRecord := do
  let runtimeId ← validateText "runtime_id" runtimeId
  match f.ownerships.get? runtimeId with
  | none => .error (.rejected ("runtime does not exist: " ++ Text.quoted runtimeId))
  | some record => .ok record

def registerRuntime (a : RegisterArgs) : Except Err (RuntimeOwnershipRecord × Fabric) := do
  let runtimeId ← validateText "runtime_id" a.runtimeId
  let nameSpace ← validateText "namespace" a.nameSpace
  let ownerId ← validateText "owner_id" a.ownerId
  if f.ownerships.contains runtimeId then
    .error (.rejected ("runtime already exists: " ++ Text.quoted runtimeId))
  else
    let record : RuntimeOwnershipRecord :=
      { runtimeId, nameSpace, ownerId
        sessionIds := a.sessionIds
        status := .active
        capabilityScope :=
          { nameSpace, ownerId
            capabilities := a.capabilities
            allowedPaths := a.allowedPaths
            deniedPaths := a.deniedPaths }
        isolationBoundary :=
          { runtimeId, nameSpace, ownerId
            status := .active
            quarantineReason := ""
            restrictedCapabilities := []
            blockedSessions := [] } }
    .ok (record, { f with ownerships := f.ownerships.set runtimeId record })

/-- What `quarantine_runtime`, `isolate_runtime` and `freeze_runtime` do with a boundary. -/
abbrev Restriction := RuntimeIsolationBoundary → RuntimeIsolationBoundary

/-- The record is written under the id as it was given. -/
def stopRuntime (runtimeId : String) (status : RuntimeStatus) (restrict : Restriction) :
    Except Err (RuntimeOwnershipRecord × Fabric) := do
  let record ← getRuntime f runtimeId
  let updated :=
    { record with status, isolationBoundary := restrict { record.isolationBoundary with status } }
  .ok (updated, { f with ownerships := f.ownerships.set runtimeId updated })

def quarantineRuntime (runtimeId reason : String)
    (restrictedCapabilities blockedSessions : List String) :
    Except Err (RuntimeOwnershipRecord × Fabric) :=
  stopRuntime f runtimeId .quarantined fun boundary =>
    { boundary with quarantineReason := reason, restrictedCapabilities, blockedSessions }

def isolateRuntime (runtimeId reason : String) : Except Err (RuntimeOwnershipRecord × Fabric) :=
  stopRuntime f runtimeId .isolated fun boundary => { boundary with quarantineReason := reason }

def freezeRuntime (runtimeId reason : String) : Except Err (RuntimeOwnershipRecord × Fabric) :=
  stopRuntime f runtimeId .frozen fun boundary => { boundary with quarantineReason := reason }

/-- What is decided, and why. The owner is not looked at. -/
def decisionFor (record : RuntimeOwnershipRecord) (capability target : String) :
    Authority × String :=
  let scope := record.capabilityScope
  if record.status ∈ [RuntimeStatus.quarantined, .isolated, .frozen] then
    (.deny, "runtime status blocks capability: " ++ record.status.text)
  else if capability ∉ scope.capabilities then (.deny, "capability not granted")
  else if scope.deniedPaths.any (Text.startsWith target) then (.deny, "target path denied")
  else if scope.allowedPaths ≠ [] ∧ ¬scope.allowedPaths.any (Text.startsWith target) then
    (.escalate, "target outside allowed capability scope")
  else (.allow, "capability granted")

def authorize (runtimeId capability target ownerId : String) :
    Except Err (RuntimeAuthorityDecision × Fabric) := do
  let record ← getRuntime f runtimeId
  let (decision, reason) := decisionFor record capability target
  let item : RuntimeAuthorityDecision :=
    { runtimeId, nameSpace := record.nameSpace, ownerId, capability, target, decision, reason }
  .ok (item, { f with decisions := f.decisions ++ [item] })

end Operations

end Ownership
end ZeroRuntime
