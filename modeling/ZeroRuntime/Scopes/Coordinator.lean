import ZeroRuntime.Lib.Dict
import ZeroRuntime.Lib.Machine
import ZeroRuntime.Lib.Value

/-!
# ZeroRuntime.Scopes.Coordinator

The coordinator of runtime transactions (`core/runtime/runtime_transaction_coordinator.py`):
transactions are begun, collect the ids of what belongs to them, and are closed by a commit, a
rollback or a seal.

* `Helpers`: the fields of a closure record and the normal form of the metadata of an answer, which
  other modules compute. Both may raise.
* The journal and the event bus are the arguments `journal` and `emit` of a call: what they raise.
  The journal is written before a transaction changes, an event is emitted after that.
-/

namespace ZeroRuntime
namespace Scopes

open Lib

abbrev Entries := List (String × Val)

inductive ScopeStatus where
  | created | active | rollbackRequired | committed | rolledBack | sealed | failed
deriving DecidableEq, Repr

def ScopeStatus.text : ScopeStatus → String
  | created => "created"
  | active => "active"
  | rollbackRequired => "rollback_required"
  | committed => "committed"
  | rolledBack => "rolled_back"
  | sealed => "sealed"
  | failed => "failed"

/-- `CLOSED_STATUSES` -/
def ScopeStatus.closed : ScopeStatus → Bool
  | committed | rolledBack | sealed | failed => true
  | created | active | rollbackRequired => false

structure RuntimeTransactionScope where
  transactionId : String
  parentTransactionId : String := ""
  lineage : Entries := []
  authorityMetadata : Entries := []
  provenance : Entries := []
  status : ScopeStatus := .created
  startedAt : String
  finishedAt : String := ""
  executionIds : List String := []
  mutationTransactionIds : List String := []
  stateIds : List String := []
  snapshotIds : List String := []
  replayIds : List String := []
  sideEffectIds : List String := []
  rollbackRequired : Bool := false
  verified : Bool := false
  sealed : Bool := false
  metadata : Entries := []

def RuntimeTransactionScope.isClosed (scope : RuntimeTransactionScope) : Bool :=
  scope.status.closed || scope.sealed

structure RuntimeTransactionSnapshot where
  transactionId : String
  files : List Entries := []
  metadata : Entries := []
  createdAt : String

structure RuntimeTransactionResult where
  scope : RuntimeTransactionScope
  status : ScopeStatus
  committed : Bool
  rolledBack : Bool
  sealed : Bool
  verified : Bool
  rollbackRequired : Bool
  metadata : Entries

structure RuntimeTransactionCoordinator where
  scopes : Dict String RuntimeTransactionScope := .empty
  snapshots : Dict String RuntimeTransactionSnapshot := .empty

structure Helpers where
  /-- `build_runtime_closure_fields` of a payload, which may hold the transaction itself. -/
  closure : RuntimeTransactionScope → Entries → Except Err Entries
  /-- `_normalize_execution_metadata` -/
  normalize : Entries → Except Err Entries

def mergeMetadata (base extra : Entries) : Entries :=
  extra.foldl (fun merged e => Val.put e.1 e.2 merged) base

def appendUnique (values : List String) (value : String) : List String :=
  let cleaned := Text.strip value
  if cleaned = "" ∨ cleaned ∈ values then values else values ++ [cleaned]

def RuntimeTransactionScope.acted (scope : RuntimeTransactionScope) (action : String)
    (metadata : Entries) : Entries :=
  mergeMetadata scope.metadata
    (mergeMetadata [("last_action", .str action), ("previous_status", .str scope.status.text)]
      metadata)

def store (c : RuntimeTransactionCoordinator) (scope : RuntimeTransactionScope) :
    RuntimeTransactionCoordinator := { c with scopes := c.scopes.set scope.transactionId scope }

def getScope (c : RuntimeTransactionCoordinator) (transactionId : String) :
    Except Err RuntimeTransactionScope :=
  match c.scopes.get? (Text.strip transactionId) with
  | none => .error .keyError
  | some scope => .ok scope

inductive BoundIds where
  | execution | mutation | state | snapshot | replay | sideEffect
deriving DecidableEq, Repr

def BoundIds.action : BoundIds → String
  | execution => "bind_execution"
  | mutation => "bind_mutation"
  | state => "bind_state"
  | snapshot => "bind_snapshot"
  | replay => "bind_replay"
  | sideEffect => "bind_side_effect"

/-- The transaction with one more id of that kind. -/
def BoundIds.add (value : String) (scope : RuntimeTransactionScope) :
    BoundIds → RuntimeTransactionScope
  | execution => { scope with executionIds := appendUnique scope.executionIds value }
  | mutation =>
    { scope with mutationTransactionIds := appendUnique scope.mutationTransactionIds value }
  | state => { scope with stateIds := appendUnique scope.stateIds value }
  | snapshot => { scope with snapshotIds := appendUnique scope.snapshotIds value }
  | replay => { scope with replayIds := appendUnique scope.replayIds value }
  | sideEffect => { scope with sideEffectIds := appendUnique scope.sideEffectIds value }

section Calls

variable (H : Helpers)

abbrev Answered (α : Type) := Except Err α × RuntimeTransactionCoordinator

/-- `_require_open`; what is refused is noted in the metadata of the transaction. -/
def requireOpen (c : RuntimeTransactionCoordinator) (transactionId : String) :
    Answered RuntimeTransactionScope :=
  match getScope c transactionId with
  | .error e => (.error e, c)
  | .ok scope =>
    if scope.isClosed then
      match H.closure scope (mergeMetadata scope.metadata
          [("transaction_status", .str scope.status.text), ("reopen_attempt", .bool true),
            ("requested_status", .str "open"),
            ("source", .str "runtime_transaction_coordinator")]) with
      | .error e => (.error e, c)
      | .ok closure =>
        (.error (.raised ("transaction is closed: " ++ transactionId)),
          store c { scope with
            metadata := mergeMetadata scope.metadata
              [("last_action", .str "closed_transaction_reopen_rejected"),
                ("closure_evidence", Val.getIn "closure_evidence" closure),
                ("runtime_closure", .dict closure)] })
    else (.ok scope, c)

def result (scope : RuntimeTransactionScope) (committed rolledBack sealed : Bool)
    (metadata : Entries) : Except Err RuntimeTransactionResult := do
  let metadata ← H.normalize metadata
  .ok { scope := scope, status := scope.status
        committed := committed || scope.status = .committed
        rolledBack := rolledBack || scope.status = .rolledBack
        sealed := sealed || scope.sealed, verified := scope.verified
        rollbackRequired := scope.rollbackRequired, metadata := metadata }

/-- The action with the metadata of the call, as answers name it. -/
def named (action : String) (metadata : Entries) : Entries :=
  mergeMetadata [("action", .str action)] metadata

def beginTransaction (c : RuntimeTransactionCoordinator) (transactionId parentTransactionId : String)
    (lineage authorityMetadata provenance metadata : Entries) (journal : Option Err)
    (now : String) : Answered RuntimeTransactionResult :=
  let cleanedId := Text.strip transactionId
  let parentId := Text.strip parentTransactionId
  if cleanedId = "" then (.error (.valueError "transaction_id is required"), c)
  else if c.scopes.contains cleanedId then
    (.error (.valueError ("transaction already exists: " ++ cleanedId)), c)
  else if parentId ≠ "" ∧ c.scopes.contains parentId = false then
    (.error (.valueError ("parent transaction does not exist: " ++ parentId)), c)
  else
    match journal with
    | some e => (.error e, c)
    | none =>
      let scope : RuntimeTransactionScope :=
        { transactionId := cleanedId, parentTransactionId := parentId, lineage := lineage
          authorityMetadata := authorityMetadata, provenance := provenance, status := .active
          startedAt := now, metadata := metadata }
      (result H scope false false false [("action", .str "begin_transaction")], store c scope)

def captureSnapshot (c : RuntimeTransactionCoordinator) (transactionId : String)
    (files : List Entries) (metadata : Entries) (journal : Option Err) (now : String) :
    Answered RuntimeTransactionSnapshot :=
  match requireOpen H c transactionId with
  | (.error e, c) => (.error e, c)
  | (.ok scope, c) =>
    match journal with
    | some e => (.error e, c)
    | none =>
      let snapshot : RuntimeTransactionSnapshot :=
        { transactionId := scope.transactionId, files := files, metadata := metadata
          createdAt := now }
      (.ok snapshot, { c with snapshots := c.snapshots.set scope.transactionId snapshot })

def act (c : RuntimeTransactionCoordinator) (transactionId action : String) (metadata : Entries)
    (change : RuntimeTransactionScope → RuntimeTransactionScope) :
    Answered RuntimeTransactionResult :=
  match requireOpen H c transactionId with
  | (.error e, c) => (.error e, c)
  | (.ok scope, c) =>
    let updated := { change scope with metadata := scope.acted action metadata }
    (result H updated false false false (named action metadata), store c updated)

/-- `bind_execution`, …, `bind_side_effect` -/
def bindId (c : RuntimeTransactionCoordinator) (transactionId : String) (ids : BoundIds)
    (value : String) (metadata : Entries) : Answered RuntimeTransactionResult :=
  act H c transactionId ids.action metadata fun scope => ids.add value scope

def markVerified (c : RuntimeTransactionCoordinator) (transactionId : String)
    (metadata : Entries) : Answered RuntimeTransactionResult :=
  act H c transactionId "mark_verified" metadata fun scope => { scope with verified := true }

def markRollbackRequired (c : RuntimeTransactionCoordinator) (transactionId : String)
    (metadata : Entries) : Answered RuntimeTransactionResult :=
  act H c transactionId "mark_rollback_required" metadata fun scope =>
    { scope with status := .rollbackRequired, rollbackRequired := true }

/-- The end of a commit or a rollback: the event is emitted once the transaction is stored. -/
def close (c : RuntimeTransactionCoordinator) (updated : RuntimeTransactionScope)
    (action : String) (metadata : Entries) (journal emit : Option Err) :
    Answered RuntimeTransactionResult :=
  match journal with
  | some e => (.error e, c)
  | none =>
    match emit with
    | some e => (.error e, store c updated)
    | none =>
      (result H updated (action = "commit") (action = "rollback") false (named action metadata),
        store c updated)

def commit (c : RuntimeTransactionCoordinator) (transactionId : String) (metadata : Entries)
    (journal emit : Option Err) (now : String) : Answered RuntimeTransactionResult :=
  match requireOpen H c transactionId with
  | (.error e, c) => (.error e, c)
  | (.ok scope, c) =>
    if scope.rollbackRequired then
      (.error (.raised ("cannot commit rollback-required transaction: " ++ transactionId)), c)
    else
      close H c
        { scope with
          status := .committed, finishedAt := now, metadata := scope.acted "commit" metadata }
        "commit" metadata journal emit

/-- `rollback`, with `_require_not_sealed`. -/
def rollback (c : RuntimeTransactionCoordinator) (transactionId : String) (metadata : Entries)
    (journal emit : Option Err) (now : String) : Answered RuntimeTransactionResult :=
  match getScope c transactionId with
  | .error e => (.error e, c)
  | .ok scope =>
    if scope.sealed then (.error (.raised ("transaction is sealed: " ++ transactionId)), c)
    else if scope.status = .committed then
      (.error (.raised ("cannot rollback committed transaction: " ++ transactionId)), c)
    else
      close H c
        { scope with
          status := .rolledBack, finishedAt := now, rollbackRequired := false
          metadata := scope.acted "rollback" metadata }
        "rollback" metadata journal emit

/-- `seal` -/
def sealScope (c : RuntimeTransactionCoordinator) (transactionId : String) (metadata : Entries)
    (now : String) : Answered RuntimeTransactionResult :=
  match getScope c transactionId with
  | .error e => (.error e, c)
  | .ok scope =>
    if scope.sealed then
      match H.closure scope (mergeMetadata (mergeMetadata scope.metadata metadata)
          [("transaction_status", .str scope.status.text)]) with
      | .error e => (.error e, c)
      | .ok closure =>
        let updated := { scope with
          metadata := mergeMetadata scope.metadata (mergeMetadata
            [("last_action", .str "seal_already_sealed"),
              ("closure_evidence", Val.getIn "closure_evidence" closure),
              ("runtime_closure", .dict closure)] metadata) }
        (result H updated (updated.status = .committed) (updated.status = .rolledBack) true
          (named "seal_already_sealed" metadata), store c updated)
    else
      let updated := { scope with
        status := .sealed, sealed := true
        finishedAt := if scope.finishedAt = "" then now else scope.finishedAt
        metadata := scope.acted "seal" metadata }
      (result H updated (scope.status = .committed) (scope.status = .rolledBack) true
        (named "seal" metadata), store c updated)

inductive Call where
  | begin (transactionId parentTransactionId : String)
      (lineage authorityMetadata provenance metadata : Entries) (journal : Option Err)
      (now : String)
  | snapshot (transactionId : String) (files : List Entries) (metadata : Entries)
      (journal : Option Err) (now : String)
  | bind (transactionId : String) (ids : BoundIds) (value : String) (metadata : Entries)
  | verified (transactionId : String) (metadata : Entries)
  | rollbackRequired (transactionId : String) (metadata : Entries)
  | commit (transactionId : String) (metadata : Entries) (journal emit : Option Err) (now : String)
  | rollback (transactionId : String) (metadata : Entries) (journal emit : Option Err)
      (now : String)
  | sealed (transactionId : String) (metadata : Entries) (now : String)

/-- The coordinator takes one call after the other. -/
def coordinator : Machine RuntimeTransactionCoordinator Call (Except Err Unit) where
  step c call :=
    let answered {α : Type} (x : Answered α) : Except Err Unit × RuntimeTransactionCoordinator :=
      (x.1.map fun _ => (), x.2)
    match call with
    | .begin transactionId parent lineage authority provenance metadata journal now =>
      answered (beginTransaction H c transactionId parent lineage authority provenance metadata
        journal now)
    | .snapshot transactionId files metadata journal now =>
      answered (captureSnapshot H c transactionId files metadata journal now)
    | .bind transactionId ids value metadata =>
      answered (bindId H c transactionId ids value metadata)
    | .verified transactionId metadata => answered (markVerified H c transactionId metadata)
    | .rollbackRequired transactionId metadata =>
      answered (markRollbackRequired H c transactionId metadata)
    | .commit transactionId metadata journal emit now =>
      answered (commit H c transactionId metadata journal emit now)
    | .rollback transactionId metadata journal emit now =>
      answered (rollback H c transactionId metadata journal emit now)
    | .sealed transactionId metadata now => answered (sealScope H c transactionId metadata now)

end Calls

end Scopes
end ZeroRuntime
