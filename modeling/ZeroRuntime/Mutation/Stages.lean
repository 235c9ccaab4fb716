import ZeroRuntime.Mutation.Admission

/-!
# ZeroRuntime.Mutation.Stages

From the new transaction to its commit gate: preparing the token consumption, capturing backups,
staging, validating what is staged, and the gate (`..._token_consumption.py`,
`..._backup_capture.py`, `..._staging.py`, `..._stage_validation.py`, `..._commit_gate.py`).

None of these stages touches the tree: they write to the transaction directory.
-/

namespace ZeroRuntime
namespace Mutation

open Lib Workspace

/-! ## Token consumption -/

inductive TokenStatus where
  | pending | invalid | duplicateSuppressed
deriving DecidableEq, Repr

structure TokenArtifact where
  status : TokenStatus
  authorizationTokenId : Val
  preparationTokenId : Val
  reasonCodes : List String

/-- What the manifest records while the tokens are in use. -/
def pendingTokens (tokenId preparationId : Val) : Val :=
  .dict [("authorization", .str "pending"), ("preparation", .str "pending"),
    ("authorization_token_id", tokenId), ("preparation_token_id", preparationId)]

def tokenStatus (store : StoreStatus) (unused : Bool) : TokenStatus :=
  if store = .duplicateSuppressed then .duplicateSuppressed
  else if store = .created ∧ unused = true then .pending
  else .invalid

def tokenStatusReasons (store : StoreStatus) (unused : Bool) : List String :=
  (if unused then [] else ["token_invalid"]) ++
  (if store = .duplicateSuppressed ∨ store = .created then [] else ["transaction_state_invalid"])

def recordPending (txid : String) (tokenId preparationId : Val) : Run Unit := do
  let m ← readJson txid .manifest
  writeJsonAtomic txid .manifest
    (.dict (Val.put "token_consumption" (pendingTokens tokenId preparationId) m))

def prepareTokenConsumption (handoff : Entries) (store : StoreArtifact) : Run TokenArtifact := do
  let tok := getD handoff "authorization_token" (.dict [])
  let ptok := getD handoff "preparation_token" (.dict [])
  let consumed ← Eff.ofExcept (tok.attr "token_consumed")
  let prepared ← Eff.ofExcept (ptok.attr "token_consumed")
  let tokenId ← Eff.ofExcept (tok.attr "token_id")
  let preparationId ← Eff.ofExcept (ptok.attr "token_id")
  let unused := isFalse consumed && isFalse prepared
  let status := tokenStatus store.status unused
  if status = .pending then recordPending store.transactionId tokenId preparationId
  pure ⟨status, tokenId, preparationId, reasons (tokenStatusReasons store.status unused)⟩

/-! ## Backups -/

/-- What is found where a backup is to be taken. -/
inductive Found where
  | missing
  | text (t : String)
  | directory
  | wrongKind

def lookAt (kind : OpKind) (src : Path) : Run Found := do
  if !(← has src) then pure .missing
  else if ← isFile src then do
    let t ← readText src
    pure (.text t)
  else if ← isDir src then pure (if kind = .renamePath then .directory else .wrongKind)
  else pure .wrongKind

def writeBackup (txid : String) (i : ℕ) (t : String) : Run Unit := do
  writeNew txid (.backupFile i) (.text t)
  let _ ← readBytes txid (.backupFile i)
  pure ()

def backupText (txid : String) (i : ℕ) (t : String) (total : ℕ) : Run (List String × ℕ) := do
  let total := total + utf8Length t
  if maxBackup < total then pure (["backup_byte_bound_exceeded"], total)
  else match ← Eff.attempt (writeBackup txid i t) with
    | .ok () => pure ([], total)
    | .error _ => pure (["backup_failed"], total)

def backupAt (txid : String) (kind : OpKind) (i : ℕ) (rel : Val) (total : ℕ) :
    Run (List String × ℕ) := do
  match ← resolveInside rel with
  | .error rs => pure (rs ++ ["backup_failed"], total)
  | .ok src =>
    match ← Eff.attempt (lookAt kind src) with
    | .ok (.text t) => backupText txid i t total
    | .ok .directory => pure ([], total)
    | .ok .wrongKind => pure (["target_kind_invalid"], total)
    | .ok .missing | .error _ => pure (["backup_failed"], total)

/-- The reasons against the backup of one operation, and the bytes captured so far. -/
def captureBackup (txid : String) (i : ℕ) (o : Entries) (total : ℕ) : Run (List String × ℕ) :=
  match opKind o with
  | some .replaceTextFile => backupAt txid .replaceTextFile i (targetRel o) total
  | some .deleteFile => backupAt txid .deleteFile i (targetRel o) total
  | some .renamePath => backupAt txid .renamePath i (sourceRel o) total
  | _ => pure ([], total)

def captureEach (txid : String) : ℕ → ℕ → List Entries → Run (List String × ℕ)
  | _, total, [] => pure ([], total)
  | i, total, o :: os => do
    let one ← captureBackup txid i o total
    let more ← captureEach txid (i + 1) one.2 os
    pure (one.1 ++ more.1, more.2)

structure BackupArtifact where
  captured : Bool
  totalBackupBytes : ℕ
  reasonCodes : List String

def captureBackups (store : StoreArtifact) (ops : List Entries) : Run BackupArtifact := do
  let r ← captureEach store.transactionId 0 0 ops
  let rs := (if store.status = .created then [] else ["transaction_state_invalid"]) ++ r.1
  if rs.isEmpty then let _ ← transitionState store.transactionId "backups_captured"
  pure ⟨rs.isEmpty, r.2, reasons rs⟩

/-! ## Staging -/

structure StagedRecord where
  operationId : Val
  stagedContentFingerprint : Val

def writeStaged (D : Digest) (txid : String) (i : ℕ) (c : String) : Run String := do
  writeNew txid (.staged i) (.text c)
  match ← readBytes txid (.staged i) with
  | .text t => pure (D.sha t)
  | .binary _ => Eff.raise .unicodeError

def expectsContent (D : Digest) (o : Entries) (c : String) : Bool :=
  !(expectedAfter o).truthy || (expectedAfter o).eq (.str (D.sha c))

def stageText (D : Digest) (txid : String) (i : ℕ) (o : Entries) :
    Run (List String × List StagedRecord) :=
  match content o with
  | .str c =>
    if maxContent < utf8Length c then pure (["content_bound_exceeded"], [])
    else do
      let rs := if expectsContent D o c then [] else ["content_fingerprint_mismatch"]
      match ← Eff.attempt (writeStaged D txid i c) with
      | .ok fp => pure (rs, [⟨operationId o, .str fp⟩])
      | .error _ => pure (rs ++ ["staging_failed"], [])
  | _ => pure (["content_fingerprint_mismatch"], [])

def intent (D : Digest) (o : Entries) : Val :=
  .dict [("operation_id", operationId o), ("operation_type", opType o),
    ("target_path_fingerprint", .str (D.sha ((targetRel o).orElse (.str "")).toText)),
    ("source_path_fingerprint", .str (D.sha ((sourceRel o).orElse (.str "")).toText))]

def stageIntent (D : Digest) (txid : String) (i : ℕ) (o : Entries) :
    Run (List String × List StagedRecord) := do
  match ← Eff.attempt (writeJsonAtomic txid (.intent i) (intent D o)) with
  | .ok () => pure ([], [⟨operationId o, .none⟩])
  | .error _ => pure (["staging_failed"], [])

def stageOne (D : Digest) (txid : String) (i : ℕ) (o : Entries) :
    Run (List String × List StagedRecord) :=
  match opKind o with
  | some .createTextFile | some .replaceTextFile => stageText D txid i o
  | _ => stageIntent D txid i o

def stageEach (D : Digest) (txid : String) :
    ℕ → List Entries → Run (List String × List StagedRecord)
  | _, [] => pure ([], [])
  | i, o :: os => do
    let one ← stageOne D txid i o
    let more ← stageEach D txid (i + 1) os
    pure (one.1 ++ more.1, one.2 ++ more.2)

structure StagingArtifact where
  staged : Bool
  stagedRecords : List StagedRecord
  reasonCodes : List String

def stageMutations (D : Digest) (txid : String) (ops : List Entries) : Run StagingArtifact := do
  let r ← stageEach D txid 0 ops
  if r.1.isEmpty then let _ ← transitionState txid "staged"
  pure ⟨r.1.isEmpty, r.2, reasons r.1⟩

/-! ## Stage validation -/

def recordReasons (o : Entries) (r : StagedRecord) : List String :=
  (if (operationId o).eq r.operationId then [] else ["operation_order_mismatch"]) ++
  (if (opKind o = some .createTextFile ∨ opKind o = some .replaceTextFile) ∧
      (expectedAfter o).truthy = true ∧ (expectedAfter o).eq r.stagedContentFingerprint = false
    then ["content_fingerprint_mismatch"] else [])

structure StageValidation where
  valid : Bool
  reasonCodes : List String

def validateStage (ops : List Entries) (staging : StagingArtifact) (token : TokenArtifact) :
    StageValidation :=
  let rs := (if staging.staged then [] else ["staging_failed"]) ++
    (if staging.stagedRecords.length = ops.length then [] else ["stage_operation_count_mismatch"]) ++
    (if token.status = .pending then [] else ["token_invalid"]) ++
    ((ops.zip staging.stagedRecords).flatMap fun e => recordReasons e.1 e.2)
  ⟨rs.isEmpty, reasons rs⟩

/-! ## The commit gate -/

/-- What the stages before the gate answered. -/
structure Prepared where
  token : TokenArtifact
  backup : BackupArtifact
  staging : StagingArtifact
  validation : StageValidation

def scopeStillMatchesAuthorizedOperations (handoff : Entries) (ops : List Entries)
    (admission : Admission) : List String :=
  match Val.getIn "authorized_scope" handoff with
  | .dict scope =>
    scopeReasons scope ops (getD scope "operation_count" (.int admission.operationCount))
      (.int admission.operationCount)
  | _ => []

def gateReasons (handoff : Entries) (ops : List Entries) (admission : Admission)
    (pre : Precondition) (store : StoreArtifact) (p : Prepared) : List String :=
  (if admission.status = .admitted then [] else ["executor_not_admitted"]) ++
  (if pre.status = .satisfied then [] else ["precondition_mismatch"]) ++
  (if store.status = .created then [] else ["transaction_state_invalid"]) ++
  (if p.backup.captured then [] else ["backup_failed"]) ++
  (if p.staging.staged then [] else ["staging_failed"]) ++
  (if p.validation.valid then [] else ["stage_validation_failed"]) ++
  (if p.token.status = .pending then [] else ["token_invalid"]) ++
  scopeStillMatchesAuthorizedOperations handoff ops admission

structure Gate where
  authorized : Bool
  reasonCodes : List String

def authorizeCommit (handoff : Entries) (ops : List Entries) (admission : Admission)
    (pre : Precondition) (store : StoreArtifact) (p : Prepared) : Run Gate := do
  let rs := gateReasons handoff ops admission pre store p
  if rs.isEmpty then let _ ← transitionState store.transactionId "commit_admitted"
  pure ⟨rs.isEmpty, reasons rs⟩

end Mutation
end ZeroRuntime
