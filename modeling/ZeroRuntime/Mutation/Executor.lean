import ZeroRuntime.Mutation.Commit

/-!
# ZeroRuntime.Mutation.Executor

`execute_pipeline` (`engineering_governed_workspace_mutation_executor.py`): the stages in their
order, the final token consumption, the result and the closure (`..._token_consumption.py`,
`..._result.py`, `..._execution_closure.py`).

* `enterPipeline`: root binding, admission, live preconditions and the transaction store. It either
  answers for good or hands on what was entered.
* `prepareStages`: from the token consumption to the commit gate.
* `gatePhase`, `commitPhase`: the pipeline up to the gate, and up to the answer of the commit.
* `settle`: everything after the commit.
-/

namespace ZeroRuntime
namespace Mutation

open Lib Workspace

/-! ## Tokens, result, closure -/

/-- Both tokens are consumed, whether or not the execution succeeded. -/
def finalizeTokenConsumption (txid : String) : Run Entries := do
  let m ← readJson txid .manifest
  match Val.find "token_consumption" m with
  | some (.dict t) =>
    let t := Val.put "preparation" (.str "consumed") (Val.put "authorization" (.str "consumed") t)
    writeJsonAtomic txid .manifest (.dict (Val.put "token_consumption" (.dict t) m))
    pure t
  | some _ => Eff.raise .typeError
  | none => Eff.raise .keyError

inductive ResultStatus where
  | succeeded | failedRolledBack | failedRecoveryRequired | rejected | invalid
  | duplicateSuppressed
deriving DecidableEq, Repr

structure ResultArtifact where
  status : ResultStatus
  handoffId : Val
  handoffFingerprint : Val
  transactionId : String
  commitStatus : Status
  postCommitStatus : Status
  rollbackStatus : Status
  recoveryStatus : Status
  manualRecoveryRequired : Bool
  authorizationTokenState : Val
  preparationTokenState : Val
  mutationPerformed : Bool
  filesystemWritePerformed : Bool

def resultStatus (store : StoreArtifact) (commit : CommitArtifact) (post : PostArtifact)
    (rollback : RollbackArtifact) (recovery : RecoveryArtifact) : ResultStatus :=
  if store.status = .duplicateSuppressed then .duplicateSuppressed
  else if commit.status = .committed ∧ post.status = .verified then .succeeded
  else if recovery.status = .verified ∧ rollback.status = .rolledBack then .failedRolledBack
  else if recovery.manualRecoveryRequired then .failedRecoveryRequired
  else if (commit.status = .invalid ∨ commit.status = .failed) ∧
      commit.committedOperationIds.isEmpty = true then .rejected
  else .invalid

def buildResult (handoff : Entries) (store : StoreArtifact) (commit : CommitArtifact)
    (post : PostArtifact) (rollback : RollbackArtifact) (recovery : RecoveryArtifact)
    (tokenState : Entries) : ResultArtifact :=
  let st := resultStatus store commit post rollback recovery
  { status := st
    handoffId := Val.getIn "handoff_id" handoff
    handoffFingerprint := Val.getIn "fingerprint" handoff
    transactionId := store.transactionId
    commitStatus := commit.status
    postCommitStatus := post.status
    rollbackStatus := rollback.status
    recoveryStatus := recovery.status
    manualRecoveryRequired := st = .failedRecoveryRequired
    authorizationTokenState := getD tokenState "authorization" (.str "not_consumed")
    preparationTokenState := getD tokenState "preparation" (.str "not_consumed")
    mutationPerformed := commit.status = .committed
    filesystemWritePerformed := commit.status = .committed ∨ commit.status = .partiallyCommitted }

inductive ClosureStatus where
  | closed | recoveryRequired | notClosed
deriving DecidableEq, Repr

def closeExecution (result : ResultArtifact) : ClosureStatus :=
  match result.status with
  | .succeeded | .failedRolledBack | .duplicateSuppressed => .closed
  | .failedRecoveryRequired => .recoveryRequired
  | _ => .notClosed

/-- What `execute_pipeline` answers; the artifacts of stages that were not reached are absent. -/
structure Report where
  rootBinding : RootBinding
  executorAdmission : Admission
  error : Option String := none
  failure : Option String := none
  livePrecondition : Option Precondition := none
  transactionStore : Option StoreArtifact := none
  prepared : Option Prepared := none
  commitGate : Option Gate := none
  atomicCommit : Option CommitArtifact := none
  postCommitVerification : Option PostArtifact := none
  rollback : Option RollbackArtifact := none
  recoveryVerification : Option RecoveryArtifact := none
  result : Option ResultArtifact := none
  executionClosure : Option ClosureStatus := none

def Report.resultStatus (r : Report) : Option ResultStatus := r.result.map fun x => x.status

/-! ## The pipeline -/

/-- What is known once the transaction store has answered. -/
structure Entered where
  ops : List Entries
  binding : RootBinding
  admission : Admission
  precondition : Precondition
  store : StoreArtifact

inductive Entry where
  | answered (r : Report)
  | entered (e : Entered)

def validateOnly (D : Digest) (root : WorkspaceRoot) (handoff : Entries) : Run Report := do
  let binding ← bindWorkspaceRoot D root handoff
  let admission ← Eff.ofExcept (admitWorkspaceMutationExecutor D binding handoff)
  let ops ← Eff.ofExcept (opsFromHandoff handoff)
  let pre ← if admission.status = .admitted then inspectLivePreconditions D ops
    else pure ⟨.invalid, ["executor_not_admitted"]⟩
  pure { rootBinding := binding
         executorAdmission := admission
         livePrecondition := some pre
         transactionStore := some ⟨.planned, admission.transactionId, []⟩ }

/-- The report of a handoff whose transaction has come to its end before. -/
def duplicateReport (handoff : Entries) (e : Entered) : Report :=
  let result := buildResult handoff e.store ⟨.duplicateSuppressed, [], []⟩
    ⟨.duplicateSuppressed, []⟩ ⟨.duplicateSuppressed, [], []⟩ ⟨.duplicateSuppressed, false, []⟩
    [("authorization", .str "consumed"), ("preparation", .str "consumed")]
  { rootBinding := e.binding
    executorAdmission := e.admission
    livePrecondition := some e.precondition
    transactionStore := some e.store
    result := some result
    executionClosure := some (closeExecution result) }

def enterPipeline (D : Digest) (root : WorkspaceRoot) (handoff : Entries) : Run Entry := do
  let binding ← bindWorkspaceRoot D root handoff
  let admission ← Eff.ofExcept (admitWorkspaceMutationExecutor D binding handoff)
  let ops ← Eff.ofExcept (opsFromHandoff handoff)
  if admission.status = .admitted then do
    let pre ← inspectLivePreconditions D ops
    if pre.status = .satisfied then do
      let store ← createTransactionStore admission.transactionId admission.workspaceId
        (Val.getIn "handoff_id" handoff) admission.operationIds
      let e : Entered := ⟨ops, binding, admission, pre, store⟩
      pure (if store.status = .duplicateSuppressed then .answered (duplicateReport handoff e)
        else .entered e)
    else pure (.answered { rootBinding := binding
                           executorAdmission := admission
                           livePrecondition := some pre
                           failure := some "precondition_mismatch" })
  else pure (.answered { rootBinding := binding
                         executorAdmission := admission
                         failure := some "executor_not_admitted" })

def prepareStages (D : Digest) (handoff : Entries) (e : Entered) : Run (Prepared × Gate) := do
  let txid := e.store.transactionId
  let token ← prepareTokenConsumption handoff e.store
  let _ ← transitionState txid "preconditions_verified"
  let backup ← captureBackups e.store e.ops
  let staging ← stageMutations D txid e.ops
  let p : Prepared := ⟨token, backup, staging, validateStage e.ops staging token⟩
  let gate ← authorizeCommit handoff e.ops e.admission e.precondition e.store p
  pure (p, gate)

/-- What the verification, the rollback and the recovery answer to a commit. -/
structure Settled where
  post : PostArtifact
  rollback : RollbackArtifact
  recovery : RecoveryArtifact

def settleCommit (D : Digest) (txid : String) (ops : List Entries) (commit : CommitArtifact) :
    Run Settled := do
  let post ← if commit.status = .committed then verifyPostCommit D txid ops commit
    else pure ⟨.notVerified, []⟩
  if commit.status ≠ .committed ∨ post.status ≠ .verified then do
    let rollback ← rollbackTransaction D txid ops commit
    let recovery ← verifyRecovery txid rollback
    pure ⟨post, rollback, recovery⟩
  else pure ⟨post, ⟨.notRequired, [], []⟩, ⟨.verified, false, []⟩⟩

/-- A phase of the pipeline: either the pipeline has answered before it, or it was reached. -/
inductive Phase (α : Type) where
  | answered (r : Report)
  | reached (a : α)

/-- What stands at the commit gate. -/
structure Gated where
  entered : Entered
  prepared : Prepared
  gate : Gate

/-- The pipeline up to its commit gate. -/
def gatePhase (D : Digest) (root : WorkspaceRoot) (handoff : Entries) : Run (Phase Gated) := do
  match ← enterPipeline D root handoff with
  | .answered r => pure (.answered r)
  | .entered e =>
    let p ← prepareStages D handoff e
    pure (.reached ⟨e, p.1, p.2⟩)

/-- The pipeline up to the answer of its commit. -/
def commitPhase (D : Digest) (root : WorkspaceRoot) (handoff : Entries) :
    Run (Phase (Gated × CommitArtifact)) := do
  match ← gatePhase D root handoff with
  | .answered r => pure (.answered r)
  | .reached g =>
    let commit ← atomicCommit D g.entered.store.transactionId g.entered.ops g.gate
    pure (.reached (g, commit))

def settle (D : Digest) (handoff : Entries) (g : Gated) (commit : CommitArtifact) :
    Run Report := do
  let e := g.entered
  let s ← settleCommit D e.store.transactionId e.ops commit
  let tokens ← finalizeTokenConsumption e.store.transactionId
  let result := buildResult handoff e.store commit s.post s.rollback s.recovery tokens
  pure { rootBinding := e.binding
         executorAdmission := e.admission
         livePrecondition := some e.precondition
         transactionStore := some e.store
         prepared := some g.prepared
         commitGate := some g.gate
         atomicCommit := some commit
         postCommitVerification := some s.post
         rollback := some s.rollback
         recoveryVerification := some s.recovery
         result := some result
         executionClosure := some (closeExecution result) }

def executePipeline (D : Digest) (root : WorkspaceRoot) (handoff : Entries)
    (executeConfirmed : Bool) : Run Report :=
  if executeConfirmed then do
    match ← commitPhase D root handoff with
    | .answered r => pure r
    | .reached c => settle D handoff c.1 c.2
  else do
    let r ← validateOnly D root handoff
    pure { r with error := some "execute_confirmation_required" }

/-! ## A sample workspace -/

/-- Fingerprints that tell handoffs with different ids apart. -/
def sampleDigest : Digest where
  sha s := s
  fingerprint v := (Val.getIn "handoff_id" v.entries).toText

def sampleRoot : WorkspaceRoot := { name := "workspace" }

/-- One file `a`. -/
def sampleTree : FileTree :=
  match FileTree.empty.put ["a"] (.text "one") with
  | .ok w => w
  | .error _ => FileTree.empty

def sampleWorkspace : Workspace := { tree := sampleTree }

def sampleHandoff (id tokenId : String) (ops : List Entries) : Entries :=
  [("schema", .str "zero.engineering.mutation_executor_handoff.v1"), ("handoff_id", .str id),
    ("human_authorization_obtained", .bool true),
    ("authorization_token", .dict [("token_id", .str tokenId),
      ("token_purpose", .str "workspace_mutation_transaction_admission"), ("use_limit", .int 1),
      ("token_consumed", .bool false)]),
    ("preparation_token", .dict [("token_consumed", .bool false)]),
    ("package", .dict [("operations", .list (ops.map .dict))])]

def sampleOperation (kind : OpKind) (id path : String) (more : Entries) : Entries :=
  [("operation_id", .str id), ("operation_type", .str kind.text), ("path", .str path)] ++ more

def createOperation (id path : String) : Entries :=
  sampleOperation .createTextFile id path [("content", .str "new")]

def replaceOperation (id path : String) : Entries :=
  sampleOperation .replaceTextFile id path [("content", .str "two")]

def renameOperation (id source path : String) : Entries :=
  sampleOperation .renamePath id path [("source_path", .str source)]

end Mutation
end ZeroRuntime
