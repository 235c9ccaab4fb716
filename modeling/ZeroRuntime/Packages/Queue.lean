import ZeroRuntime.Lib.Machine
import ZeroRuntime.Lib.Written
import ZeroRuntime.Packages.Record

/-!
# ZeroRuntime.Packages.Queue

The runtime queue of work packages (`core/runtime/work_package_queue.py`): a directory with one
file for each package.

* `fileName`: the file of a package id, which may be that of another id as well.
* `enqueue` adds a record, or notes on the record of the same work that the package came again.
* `runtimePackageQueue` takes one call after the other. `trouble` is what a call meets where it
  writes: the progress snapshot, the checkpoint of the session, the memory of finished packages and
  JSON may all raise there, with the file as it was.
-/

namespace ZeroRuntime
namespace Packages

open Lib Goals Queue

structure RuntimePackageQueue where
  /-- The records by the names of their files. -/
  files : Dict String Entries := .empty

section Calls

variable (host : Host)

/-- `_path`, without the directory. -/
def fileName (packageId : String) : Except Err String :=
  let inName := fun c => host.isalnum c || c = '-' || c = '_' || c = '.'
  let trimmed := fun c => c = '.' || c = '_' || c = '-'
  let safe := ((packageId.toList.map fun c => if inName c then c else '_').dropWhile trimmed).rdropWhile
    trimmed
  if safe = [] then .error (queueError "package_id_required")
  else .ok (String.ofList safe ++ ".json")

/-- `_read` -/
def readRecord (q : RuntimePackageQueue) (packageId : String) : Except Err (String × Entries) := do
  let name ← fileName host packageId
  match q.files.get? name with
  | none => .error (queueError ("work_package_not_found:" ++ packageId))
  | some record => .ok (name, record)

abbrev Answered := Except Err (Option Entries) × RuntimePackageQueue

/-- `_write` -/
def writeRecord (q : RuntimePackageQueue) (record : Entries) (trouble : Option Err) : Answered :=
  match trouble with
  | some e => (.error e, q)
  | none =>
    match fileName host (textAt "package_id" record) with
    | .error e => (.error e, q)
    | .ok name => (.ok (some record), { q with files := q.files.set name record })

def listPackages (q : RuntimePackageQueue) : List Entries := q.files.sortKeys.values

def newRecord (package : Entries) : Except Err Entries := do
  let lineage ← extractQueueLineage (.dict package)
  .ok (putAll
    [("status", .str "queued"),
      ("runtime_state", .dict [("status", .str "queued"),
        ("execution_path", workPackageExecutionPath)])]
    (putAll lineage package))

/-- The note that a package came again, on the record of its work. -/
def duplicateRecord (existing package : Entries) (packageId now : String)
    (matched : List (String × String)) : Except Err Entries := do
  let (merged, conflicts) ← mergeQueueLineage existing (.dict package) true
  let event : Val := .dict [("result", .str "duplicate_idempotent"),
    ("matched_identity", .dict (matched.map fun e => (e.1, .str e.2))),
    ("incoming_package_id", .str packageId),
    ("lineage_conflicts", .list (conflicts.map fun c =>
      .dict [("field", .str c.field), ("kept", c.kept), ("rejected", c.rejected)])),
    ("timestamp", .str now)]
  let merged ← appendTo "queue_idempotency_events" event merged
  .ok (Val.put "queue_admission" event merged)

/-- The record of the work that the package names, if there is one, and what of it matches. -/
def duplicateOf (q : RuntimePackageQueue) (package : Entries) :
    Except Err (Option (Entries × List (String × String))) := do
  let packageId := textAt "package_id" package
  let name ← fileName host packageId
  let duplicate ← duplicateIdentity host.digest (.dict package) ((listPackages q).map Val.dict)
  match q.files.get? name with
  | none => .ok (duplicate.map fun d => (d.1.entries, d.2))
  | some record => do
    let existingSession ← queueSessionId (.dict record)
    let incomingSession ← queueSessionId (.dict package)
    if existingSession ≠ incomingSession then
      .error (queueError ("package_id_session_collision:" ++ packageId ++ ":" ++ existingSession ++
        ":" ++ incomingSession))
    else
      let matched := (duplicate.map Prod.snd).getD []
      .ok (some (record, if matched = [] then [("package_id", packageId)] else matched))

def admittedRecord (q : RuntimePackageQueue) (package : Entries) (now : String) :
    Except Err Entries := do
  match ← duplicateOf host q package with
  | none => newRecord package
  | some (existing, matched) =>
    duplicateRecord existing package (textAt "package_id" package) now matched

def enqueue (q : RuntimePackageQueue) (package : Entries) (now : String) (trouble : Option Err) :
    Answered :=
  match admittedRecord host q package now with
  | .error e => (.error e, q)
  | .ok record => writeRecord host q record trouble

def onRecord (q : RuntimePackageQueue) (packageId : String) (call : RecordCall)
    (trouble : Option Err) : Answered :=
  match readRecord host q packageId with
  | .error e => (.error e, q)
  | .ok (_, record) =>
    match call.change host packageId record with
    | .error e => (.error e, q)
    | .ok (.kept record) => (.ok (some record), q)
    | .ok (.written record) => writeRecord host q record trouble

def readyToClaim (record : Entries) : Bool :=
  isText "queued" (Val.getIn "status" record) &&
    (isText "planned" (Val.getIn "planning_status" record) &&
      (Val.getIn "runtime_queue_item" record).isDict)

def nextPlanned (q : RuntimePackageQueue) : Option Entries := (listPackages q).find? readyToClaim

def claimNext (q : RuntimePackageQueue) (trouble : Option Err) : Answered :=
  match nextPlanned q with
  | none => (.ok none, q)
  | some record =>
    match Val.find "package_id" record with
    | none => (.error .keyError, q)
    | some packageId => onRecord host q packageId.toText .claim trouble

inductive Call where
  | enqueue (package : Entries) (now : String) (trouble : Option Err)
  | claimNext (trouble : Option Err)
  | onRecord (packageId : String) (call : RecordCall) (trouble : Option Err)

def runtimePackageQueue : Machine RuntimePackageQueue Call (Except Err (Option Entries)) where
  step q call :=
    match call with
    | .enqueue package now trouble => enqueue host q package now trouble
    | .claimNext trouble => claimNext host q trouble
    | .onRecord packageId call trouble => onRecord host q packageId call trouble

end Calls

end Packages
end ZeroRuntime
