import ZeroRuntime.Lib.Canonical
import ZeroRuntime.Lib.HashChain

/-!
# ZeroRuntime.Evidence.Chain

The runtime evidence chain (`core/runtime/runtime_evidence_chain.py`): building evidence records and
validating lists of them.

* A record is hashed over its texts and lineage fields, without its id, its hash and its signature.
* `EvidenceDigest` stands for the hexadecimal SHA-256 of a value's JSON, keys sorted.
* Records are mappings; what a list holds besides is dropped by the validation before anything else.
-/

namespace ZeroRuntime
namespace Evidence

open Lib

abbrev Entries := List (String × Val)

structure EvidenceDigest where
  sha : Val → String
  hex : ∀ v c, c ∈ (sha v).toList → Text.isSpace c = false

def evidenceRequiredFields : List String :=
  ["evidence_id", "transaction_id", "execution_intent", "boundary_state", "approval_chain_id",
    "capability_grant_id", "verification_state", "rollback_state", "seal_state", "timestamp",
    "previous_evidence_id", "evidence_hash", "evidence_signature"]

def hashedTextFields : List String :=
  ["transaction_id", "execution_intent", "boundary_state", "approval_chain_id",
    "capability_grant_id", "verification_state", "rollback_state", "seal_state", "timestamp",
    "previous_evidence_id"]

def evidenceSealedLineageFields : List String :=
  ["source_execution_id", "execution_session_id", "action_execution_id", "replay_session_id",
    "continuation_id", "handoff_id", "mutation_transaction_id", "mutation_request_id",
    "authority_metadata", "audit_lineage", "mutation_lineage"]

def hashedFields : List String := hashedTextFields ++ evidenceSealedLineageFields

/-! ## Hash and signature -/

/-- `_text(record.get(field))` -/
def textOf (record : Entries) (field : String) : String := (Val.getIn field record).text

/-- What is hashed of a lineage field: lists and mappings as they are, anything else as a text. -/
def lineageValue (v : Val) : Val :=
  match v with
  | .dict _ | .list _ => v.sorted
  | _ => .str v.text

def hashedValue (record : Entries) (field : String) : Val :=
  if hashedTextFields.contains field then .str (textOf record field)
  else lineageValue (Val.getIn field record)

def evidenceHashPayload (record : Entries) : Val :=
  .dict (hashedFields.map fun f => (f, hashedValue record f))

section Digest

variable (H : EvidenceDigest)

def computeRuntimeEvidenceHash (record : Entries) : String := H.sha (evidenceHashPayload record)

def computeRuntimeEvidenceSignature (record : Entries) : String :=
  "runtime-evidence-signature-" ++ Text.take 24 (H.sha (.dict
    [("evidence_hash", .str (textOf record "evidence_hash")),
      ("evidence_id", .str (textOf record "evidence_id"))]))

def evidenceIdOf (hash : String) : String := "runtime-evidence-" ++ Text.take 16 hash

/-! ## Building a record -/

structure EvidenceFields where
  transactionId : Val
  executionIntent : Val
  boundaryState : Val
  approvalChainId : Val := .str ""
  capabilityGrantId : Val := .str ""
  verificationState : Val := .str ""
  rollbackState : Val := .str ""
  sealState : Val := .str ""
  previousEvidenceId : Val := .str ""
  timestamp : Val := .none
  sourceExecutionId : Val := .str ""
  executionSessionId : Val := .str ""
  actionExecutionId : Val := .str ""
  replaySessionId : Val := .str ""
  continuationId : Val := .str ""
  handoffId : Val := .str ""
  mutationTransactionId : Val := .str ""
  mutationRequestId : Val := .str ""
  authorityMetadata : Val := .none
  auditLineage : Val := .none
  mutationLineage : Val := .none

def evidenceRecord (a : EvidenceFields) (now id hash signature : String) : Entries :=
  [("schema_version", .str "runtime_evidence_chain.v1"), ("evidence_id", .str id),
    ("transaction_id", .str a.transactionId.text),
    ("execution_intent", .str a.executionIntent.text),
    ("boundary_state", .str a.boundaryState.text),
    ("approval_chain_id", .str a.approvalChainId.text),
    ("capability_grant_id", .str a.capabilityGrantId.text),
    ("verification_state", .str a.verificationState.text),
    ("rollback_state", .str a.rollbackState.text), ("seal_state", .str a.sealState.text),
    ("timestamp", .str (if a.timestamp.text = "" then now else a.timestamp.text)),
    ("previous_evidence_id", .str a.previousEvidenceId.text), ("evidence_hash", .str hash),
    ("evidence_signature", .str signature),
    ("source_execution_id", .str a.sourceExecutionId.text),
    ("execution_session_id", .str a.executionSessionId.text),
    ("action_execution_id", .str a.actionExecutionId.text),
    ("replay_session_id", .str a.replaySessionId.text),
    ("continuation_id", .str a.continuationId.text), ("handoff_id", .str a.handoffId.text),
    ("mutation_transaction_id", .str a.mutationTransactionId.text),
    ("mutation_request_id", .str a.mutationRequestId.text),
    ("authority_metadata", a.authorityMetadata.orElse (.dict [])),
    ("audit_lineage", a.auditLineage.orElse (.dict [])),
    ("mutation_lineage", a.mutationLineage.orElse (.dict []))]

/-- `build_runtime_evidence_record`, at the time `now`. -/
def buildRuntimeEvidenceRecord (a : EvidenceFields) (now : String) : Entries :=
  let hash := computeRuntimeEvidenceHash H (evidenceRecord a now "" "" "")
  let id := evidenceIdOf hash
  evidenceRecord a now id hash
    (computeRuntimeEvidenceSignature H (evidenceRecord a now id hash ""))

/-! ## Validation -/

inductive IssueKind where
  | missingEvidenceChain | tamperedEvidence | transactionEvidenceMismatch
  | brokenEvidenceLinkage | replayEvidenceMismatch | invalidSealEvidence
deriving DecidableEq, Repr

/-- An issue and the index of the record it is about. -/
structure Issue where
  kind : IssueKind
  index : Option ℕ := none
  evidenceId : String := ""
deriving DecidableEq, Repr

structure RecordValidation where
  missingFields : List String
  invalidFields : List String
deriving DecidableEq, Repr

def RecordValidation.ok (v : RecordValidation) : Bool :=
  v.missingFields.isEmpty && v.invalidFields.isEmpty

def validateRuntimeEvidenceRecord (record : Entries) : RecordValidation where
  missingFields := evidenceRequiredFields.filter fun f => !Val.hasKey f record
  invalidFields :=
    if record.isEmpty then []
    else
      (if textOf record "evidence_hash" = computeRuntimeEvidenceHash H record then []
        else ["evidence_hash"]) ++
      (if textOf record "evidence_signature" = computeRuntimeEvidenceSignature H record then []
        else ["evidence_signature"])

/-- The issues of one record; `previous` is the id of the one before it, `""` for the first. -/
def recordIssues (transactionId : String) (index : ℕ) (previous : String) (record : Entries) :
    List Issue :=
  let id := textOf record "evidence_id"
  (if (validateRuntimeEvidenceRecord H record).ok then [] else [⟨.tamperedEvidence, index, id⟩]) ++
  (if transactionId ≠ "" ∧ textOf record "transaction_id" ≠ Text.strip transactionId
    then [⟨.transactionEvidenceMismatch, index, id⟩] else []) ++
  (if textOf record "previous_evidence_id" = previous then []
    else [⟨.brokenEvidenceLinkage, index, id⟩])

def chainIssues (transactionId : String) : ℕ → String → List Entries → List Issue
  | _, _, [] => []
  | i, previous, r :: rs =>
    recordIssues H transactionId i previous r ++
      chainIssues transactionId (i + 1) (textOf r "evidence_id") rs

end Digest

/-- The id that a seal or a replay names, `""` when it names none. -/
def namedEvidenceId (evidence : Entries) : String :=
  ((Val.getIn "latest_evidence_id" evidence).orElse (Val.getIn "evidence_id" evidence)).text

def isFalse : Val → Bool
  | .bool false => true
  | _ => false

def latestEvidenceId (records : List Entries) : String :=
  lastId (fun r => textOf r "evidence_id") "" records

/-- The named id is that of the last record, where both are there. -/
def namesLatest (records : List Entries) (evidence : Entries) : Bool :=
  namedEvidenceId evidence = "" || records.isEmpty ||
    namedEvidenceId evidence = latestEvidenceId records

inductive ReplayState where
  | notChecked | mismatch | consistent
deriving DecidableEq, Repr

def replayEvidenceState (records : List Entries) (replay : Entries) : ReplayState :=
  if replay.isEmpty then .notChecked
  else if !namesLatest records replay then .mismatch
  else if isFalse (Val.getIn "consistent" replay) ||
      isFalse (Val.getIn "replay_evidence_consistent" replay) then .mismatch
  else .consistent

def sealEvidenceValid (records : List Entries) (sealEvidence : Entries) : Bool :=
  sealEvidence.isEmpty || (namesLatest records sealEvidence && !(isFalse (Val.getIn "sealed" sealEvidence) ||
    isFalse (Val.getIn "evidence_seal_valid" sealEvidence)))

inductive IntegrityState where
  | valid | missing | broken | tampered | replayMismatch | invalidSeal
deriving DecidableEq, Repr

def integrityState (issues : List Issue) : IntegrityState :=
  let has := fun k => issues.any fun i => i.kind = k
  if has .tamperedEvidence then .tampered
  else if has .brokenEvidenceLinkage then .broken
  else if has .replayEvidenceMismatch || has .transactionEvidenceMismatch then .replayMismatch
  else if has .invalidSealEvidence then .invalidSeal
  else if has .missingEvidenceChain then .missing
  else .valid

structure ChainValidation where
  issues : List Issue
  replayState : ReplayState
  evidenceSealValid : Bool
  latestEvidenceId : String
  evidenceCount : ℕ

def ChainValidation.ok (v : ChainValidation) : Bool := v.issues.isEmpty

def ChainValidation.integrity (v : ChainValidation) : IntegrityState := integrityState v.issues

def validateRuntimeEvidenceChain (H : EvidenceDigest) (records : List Entries)
    (transactionId : String) (replay sealEvidence : Entries) : ChainValidation :=
  let replayState := replayEvidenceState records replay
  let sealValid := sealEvidenceValid records sealEvidence
  { issues := (if records.isEmpty then [⟨.missingEvidenceChain, none, ""⟩] else []) ++
      chainIssues H transactionId 0 "" records ++
      (if replayState = .mismatch then [⟨.replayEvidenceMismatch, none, ""⟩] else []) ++
      (if sealValid then [] else [⟨.invalidSealEvidence, none, ""⟩])
    replayState := replayState
    evidenceSealValid := sealValid
    latestEvidenceId := latestEvidenceId records
    evidenceCount := records.length }

end Evidence
end ZeroRuntime
