import ZeroRuntime.Lib.Dict
import ZeroRuntime.Transactions.Surface

/-!
# ZeroRuntime.Transactions.Registry

The registry of mutation transactions: transactions are created as proposed and moved on by the
`record_*` operations, each of which takes the id of a transaction or a transaction itself, and
writes the transaction it answers back to the registry.

`digest` is the hexadecimal digest the ids are cut from. Times are given to each call.
-/

namespace ZeroRuntime
namespace Transactions

open Lib

abbrev Entries := List (String × Val)

/-- `RuntimeTransactionState` -/
inductive TxState where
  | proposed | preflight | approved | blocked | applied | verified | committed | rolledBack | failed
  | audited
deriving DecidableEq, Repr

def TxState.text : TxState → String
  | proposed => "proposed"
  | preflight => "preflight"
  | approved => "approved"
  | blocked => "blocked"
  | applied => "applied"
  | verified => "verified"
  | committed => "committed"
  | rolledBack => "rolled_back"
  | failed => "failed"
  | audited => "audited"

/-- `RuntimeTransactionKind` -/
inductive TxKind where
  | fileMutation | gitMutation | runtimeMutation | unknownMutation
deriving DecidableEq, Repr

/-- `RuntimeTransactionRisk` -/
inductive TxRisk where
  | low | moderate | high | critical
deriving DecidableEq, Repr

structure RuntimeTransaction where
  transactionId : String
  taskId : String
  stepId : String
  traceId : String
  authoritySource : String
  surface : String
  kind : TxKind
  risk : TxRisk
  state : TxState
  affectedFiles : List String
  preflightResult : Entries
  approvalResult : Entries
  applyResult : Entries
  verificationResult : Entries
  commitResult : Entries
  rollbackResult : Entries
  failureResult : Entries
  auditRefs : List String
  replayRefs : List String
  parentTransactionId : String
  replaySource : String
  recoverySource : String
  repairLoopId : String
  repairSource : String
  originalTransactionId : String
  originalTraceId : String
  createdAt : ℕ
  updatedAt : ℕ
  stateHistory : List TxState

/-- `_TRANSACTIONS` -/
abbrev TxStore := Dict String RuntimeTransaction

def allowedTransitions : TxState → List TxState
  | .proposed => [.preflight]
  | .preflight => [.approved, .blocked]
  | .approved => [.applied]
  | .applied => [.verified, .rolledBack, .failed]
  | .verified => [.committed, .rolledBack, .failed]
  | .blocked | .committed | .rolledBack | .failed => [.audited]
  | .audited => []

def resultOk : Option Entries → Bool
  | none => false
  | some result =>
    let get (k : String) : Val := Val.getIn k result
    let isFalse : Val → Bool
      | .bool b => !b
      | _ => false
    if isFalse (get "ok") || isFalse (get "allowed") then false
    else ["ok", "allowed", "approved", "verification_ok", "committed", "rollback_applied"].any
      fun k => (get k).truthy

def normalizeTextTuple (value : Val) : List String :=
  let values : List Val :=
    match value with
    | .none => []
    | .dict kvs => kvs.map Prod.snd
    | .list xs => xs
    | x => [x]
  (values.filter fun item => item.text ≠ "").map Val.toText

/-- `tuple(dict.fromkeys(xs))` -/
def fromKeys (xs : List String) : List String :=
  xs.foldl (fun seen x => if x ∈ seen then seen else seen ++ [x]) []

/-! ## Creating -/

structure CreateArgs where
  taskId : Val
  stepId : Val
  traceId : Val
  authoritySource : Val
  surface : Val
  affectedFiles : Val := .none
  auditRefs : Val := .none
  replayRefs : Val := .none
  parentTransactionId : Val := .str ""
  replaySource : Val := .str ""
  recoverySource : Val := .str ""
  repairLoopId : Val := .str ""
  repairSource : Val := .str ""
  originalTransactionId : Val := .str ""
  originalTraceId : Val := .str ""

namespace CreateArgs

/-- What a transaction cannot do without. -/
def required (a : CreateArgs) : Entries :=
  [("task_id", a.taskId), ("step_id", a.stepId), ("trace_id", a.traceId),
    ("authority_source", a.authoritySource),
    ("surface", .str (classifyRuntimeSurface a.surface).name)]

end CreateArgs

def kindForSurface : RuntimeSurfaceKind → TxKind
  | .fileMutation => .fileMutation
  | .gitMutation => .gitMutation
  | .runtimeMutation => .runtimeMutation
  | _ => .unknownMutation

/-- `RuntimeTransactionRisk(risk.value)`: there is none for a surface without risk. -/
def riskOf : RuntimeSurfaceRisk → Option TxRisk
  | .none => none
  | .low => some .low
  | .moderate => some .moderate
  | .high => some .high
  | .critical => some .critical

section Digest

variable (digest : String → String)

def transactionId (required : Entries) (ordinal : ℕ) : String :=
  "runtime_tx:" ++ Text.take 16
    (digest ("(" ++ (Val.dict required).toText ++ ", " ++ toString ordinal ++ ")"))

def createTransaction (stored : TxStore) (a : CreateArgs) (now : ℕ) :
    Except Err (RuntimeTransaction × TxStore) :=
  let classified := classifyRuntimeSurface a.surface
  let missing := (a.required.filter fun e => e.2.text = "").map Prod.fst
  let str (x : Val) : String := (x.orElse (.str "")).toText
  if classified.anonymous ∨ ¬classified.requiresTransaction then
    .error (.valueError "transaction surface must be a registered mutation surface")
  else if missing ≠ [] then
    .error (.valueError ("anonymous transaction rejected: " ++ ", ".intercalate missing))
  else if classified.name = "rollback_restore" ∧
      ¬(a.parentTransactionId.orElse a.affectedFiles).truthy then
    .error (.valueError "rollback_restore requires parent transaction or rollback evidence")
  else
    match riskOf classified.risk with
    | none => .error (.valueError "'none' is not a valid RuntimeTransactionRisk")
    | some risk =>
      let tx : RuntimeTransaction :=
        { transactionId := transactionId digest a.required (stored.entries.length + 1)
          taskId := a.taskId.toText
          stepId := a.stepId.toText
          traceId := a.traceId.toText
          authoritySource := a.authoritySource.toText
          surface := classified.name
          kind := kindForSurface classified.kind
          risk
          state := .proposed
          affectedFiles := normalizeTextTuple a.affectedFiles
          preflightResult := []
          approvalResult := []
          applyResult := []
          verificationResult := []
          commitResult := []
          rollbackResult := []
          failureResult := []
          auditRefs := normalizeTextTuple a.auditRefs
          replayRefs := normalizeTextTuple a.replayRefs
          parentTransactionId := str a.parentTransactionId
          replaySource := str a.replaySource
          recoverySource := str a.recoverySource
          repairLoopId := str a.repairLoopId
          repairSource := str a.repairSource
          originalTransactionId := str a.originalTransactionId
          originalTraceId := str a.originalTraceId
          createdAt := now
          updatedAt := now
          stateHistory := [.proposed] }
      .ok (tx, stored.set tx.transactionId tx)

end Digest

/-! ## Moving on -/

/-- What a call is given: an id, or a transaction that the caller holds. -/
inductive TxRef where
  | id (value : Val)
  | object (tx : RuntimeTransaction)

def getTransaction (stored : TxStore) : TxRef → Except Err RuntimeTransaction
  | .object tx => .ok tx
  | .id value =>
    match stored.get? (value.orElse (.str "")).toText with
    | some tx => .ok tx
    | none => .error .keyError

/-- A field that is replaced. -/
inductive Update where
  | affectedFiles (xs : List String)
  | preflightResult (result : Entries)
  | approvalResult (result : Entries)
  | applyResult (result : Entries)
  | verificationResult (result : Entries)
  | commitResult (result : Entries)
  | rollbackResult (result : Entries)
  | failureResult (result : Entries)
  | auditRefs (xs : List String)

def Update.on (tx : RuntimeTransaction) : Update → RuntimeTransaction
  | affectedFiles xs => { tx with affectedFiles := xs }
  | preflightResult result => { tx with preflightResult := result }
  | approvalResult result => { tx with approvalResult := result }
  | applyResult result => { tx with applyResult := result }
  | verificationResult result => { tx with verificationResult := result }
  | commitResult result => { tx with commitResult := result }
  | rollbackResult result => { tx with rollbackResult := result }
  | failureResult result => { tx with failureResult := result }
  | auditRefs xs => { tx with auditRefs := xs }

def replaceTx (stored : TxStore) (tx : RuntimeTransaction) (state : TxState)
    (updates : List Update) (now : ℕ) : RuntimeTransaction × TxStore :=
  let history := if state ≠ tx.state then tx.stateHistory ++ [state] else tx.stateHistory
  let updated := { updates.foldl Update.on tx with state, updatedAt := now, stateHistory := history }
  (updated, stored.set updated.transactionId updated)

def transition (stored : TxStore) (tx : RuntimeTransaction) (state : TxState)
    (updates : List Update) (now : ℕ) : Except Err (RuntimeTransaction × TxStore) :=
  if state ∉ allowedTransitions tx.state then
    .error (.valueError ("invalid transaction transition: " ++ tx.state.text ++ "->" ++ state.text))
  else .ok (replaceTx stored tx state updates now)

/-- `dict(result or {})` -/
def dictOf (result : Option Entries) : Entries := result.getD []

/-- What was recorded of a transaction. -/
inductive RecordOp where
  | preflight (result : Option Entries)
  | approval (result : Option Entries)
  | apply (result : Option Entries) (affectedFiles : Val)
  | verification (result : Option Entries)
  | commit (result : Option Entries)
  | rollback (result : Option Entries)
  | failure (reason : Val) (result : Option Entries)
  | audit (refs : Val)

section Record

variable (stored : TxStore) (ref : TxRef) (now : ℕ)

def recordPreflight (result : Option Entries) : Except Err (RuntimeTransaction × TxStore) := do
  let tx ← getTransaction stored ref
  transition stored tx .preflight [.preflightResult (dictOf result)] now

def recordApproval (result : Option Entries) : Except Err (RuntimeTransaction × TxStore) := do
  let tx ← getTransaction stored ref
  transition stored tx (if resultOk result then .approved else .blocked)
    [.approvalResult (dictOf result)] now

def recordApply (result : Option Entries) (affectedFiles : Val) :
    Except Err (RuntimeTransaction × TxStore) := do
  let tx ← getTransaction stored ref
  let files := normalizeTextTuple affectedFiles
  let updates : List Update :=
    if files ≠ [] then [.affectedFiles (fromKeys (tx.affectedFiles ++ files))] else []
  transition stored tx .applied (.applyResult (dictOf result) :: updates) now

def recordVerification (result : Option Entries) : Except Err (RuntimeTransaction × TxStore) := do
  let tx ← getTransaction stored ref
  if resultOk result then
    transition stored tx .verified [.verificationResult (dictOf result)] now
  else
    let reason := ((Val.getIn "reason" (dictOf result)).orElse
      (Val.getIn "message" (dictOf result))).orElse (.str "verification_failed")
    transition stored tx .failed
      [.verificationResult (dictOf result), .failureResult [("reason", .str reason.toText)]] now

def recordCommit (result : Option Entries) : Except Err (RuntimeTransaction × TxStore) := do
  let tx ← getTransaction stored ref
  if tx.state ≠ .verified ∨ ¬resultOk (some tx.verificationResult) then
    .error (.valueError "committed transaction requires verified success")
  else transition stored tx .committed [.commitResult (dictOf result)] now

def recordRollback (result : Option Entries) : Except Err (RuntimeTransaction × TxStore) := do
  let tx ← getTransaction stored ref
  let hasEvidence := dictOf result ≠ [] ∨ tx.rollbackResult ≠ [] ∨ tx.applyResult ≠ [] ∨
    tx.parentTransactionId ≠ ""
  if ¬hasEvidence then .error (.valueError "rollback requires evidence")
  else if tx.state ∉ [TxState.applied, .verified, .failed] then
    .error (.valueError "rolled_back requires applied state or rollback evidence")
  else if tx.state = .failed then
    .ok (replaceTx stored tx tx.state [.rollbackResult (dictOf result)] now)
  else transition stored tx .rolledBack [.rollbackResult (dictOf result)] now

def recordFailure (reason : Val) (result : Option Entries) :
    Except Err (RuntimeTransaction × TxStore) := do
  if reason.text = "" then .error (.valueError "failed state requires reason")
  else
    let tx ← getTransaction stored ref
    let failed := (dictOf result).foldl (fun kvs e => Val.put e.1 e.2 kvs)
      [("reason", .str reason.toText)]
    transition stored tx .failed [.failureResult failed] now

def recordAudit (refs : Val) : Except Err (RuntimeTransaction × TxStore) := do
  let tx ← getTransaction stored ref
  if tx.state ∉ [TxState.blocked, .committed, .rolledBack, .failed] then
    .error (.valueError "audit requires terminal transaction state")
  else
    transition stored tx .audited
      [.auditRefs (fromKeys (tx.auditRefs ++ normalizeTextTuple refs))] now

def record : RecordOp → Except Err (RuntimeTransaction × TxStore)
  | .preflight result => recordPreflight stored ref now result
  | .approval result => recordApproval stored ref now result
  | .apply result affectedFiles => recordApply stored ref now result affectedFiles
  | .verification result => recordVerification stored ref now result
  | .commit result => recordCommit stored ref now result
  | .rollback result => recordRollback stored ref now result
  | .failure reason result => recordFailure stored ref now reason result
  | .audit refs => recordAudit stored ref now refs

end Record

end Transactions
end ZeroRuntime
