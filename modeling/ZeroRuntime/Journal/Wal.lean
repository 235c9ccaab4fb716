import ZeroRuntime.Journal.Projection
import ZeroRuntime.Lib.Canonical

/-!
# ZeroRuntime.Journal.Wal

The write-ahead journal of the runtime (`core/runtime/runtime_journal.py`, with the fingerprints of
`core/runtime/runtime_integrity.py`).

* `walRecord` is the construction of a record, `toDict` what a line of the file holds, `fromDict`
  how a line is read back.
* `WalDigest` stands for the hexadecimal SHA-256 of a value's JSON, keys sorted.
* A line is a value, torn or blank: `torn` is a proper part of the text of a mapping, which is no
  JSON.
-/

namespace ZeroRuntime
namespace Journal

open Lib

structure WalDigest where
  sha : Val → String
  sha_ne : ∀ v, sha v ≠ ""

def runtimeKernelVersion : String := "6.0.0"

def runtimeAbiVersion : String := "1.0"

structure RuntimeWALRecord where
  sequence : ℤ
  recordType : String
  payload : Entries
  metadata : Entries
  timestamp : String
  recordId : String
  runtimeVersion : String
  abiVersion : String
  integrityHash : String

/-! ## Fingerprints -/

/-- `INTEGRITY_HASH_FIELD` and `SEAL_FIELD`, left out of every mapping that is fingerprinted. -/
def sealKey (k : String) : Bool := k == "integrity_hash" || k == "runtime_seal"

section Digest

variable (H : WalDigest)

def stableHash (v : Val) : String := H.sha v.sorted

def stableFingerprint (v : Val) : String := H.sha (v.canonical sealKey)

inductive Reason where
  | missing | mismatch | verified
deriving DecidableEq, Repr

structure RuntimeIntegrityReport where
  verified : Bool
  expectedFingerprint : String := ""
  actualFingerprint : String := ""
  reason : Reason
deriving DecidableEq, Repr

def verifyIntegrity (payload : Entries) : RuntimeIntegrityReport :=
  let expected := ((Val.getIn "integrity_hash" payload).orElse (.str "")).toText
  let actual := stableFingerprint H (.dict payload)
  if expected = "" then
    { verified := false, actualFingerprint := actual, reason := .missing }
  else if expected ≠ actual then
    { verified := false, expectedFingerprint := expected, actualFingerprint := actual,
      reason := .mismatch }
  else
    { verified := true, expectedFingerprint := expected, actualFingerprint := actual,
      reason := .verified }

end Digest

/-! ## Records -/

namespace RuntimeWALRecord

/-- `to_dict(include_integrity=False)` -/
def content (r : RuntimeWALRecord) : Entries :=
  [("record_id", .str r.recordId), ("runtime_version", .str r.runtimeVersion),
    ("abi_version", .str r.abiVersion), ("sequence", .int r.sequence),
    ("record_type", .str r.recordType), ("timestamp", .str r.timestamp),
    ("payload", projectJournalRestorePayload (.dict r.payload)),
    ("metadata", projectJournalRestorePayload (.dict r.metadata))]

/-- `to_dict()` -/
def toDict (r : RuntimeWALRecord) : Entries :=
  r.content ++ [("integrity_hash", .str r.integrityHash)]

/-- `RuntimeWALRecord.verify_integrity` -/
def verify (H : WalDigest) (r : RuntimeWALRecord) : RuntimeIntegrityReport :=
  verifyIntegrity H r.toDict

end RuntimeWALRecord

section Digest

variable (H : WalDigest)

/-- The id that goes with the content of a record. -/
def recordIdOf (sequence : ℤ) (recordType : String) (payload metadata : Entries) : String :=
  "runtime-wal-" ++ Text.take 16 (stableHash H (.dict
    [("sequence", .int sequence), ("record_type", .str recordType), ("payload", .dict payload),
      ("metadata", .dict metadata)]))

def orDefault (s default : String) : String := if s = "" then default else s

/-- `RuntimeWALRecord.__post_init__` -/
def walRecord (sequence : ℤ) (recordType : Val) (payload metadata : Val)
    (timestamp recordId runtimeVersion abiVersion integrityHash : String) :
    Except Err RuntimeWALRecord :=
  let type := recordType.text
  if type = "" then .error (.valueError "runtime_wal_record_type_required")
  else
    let payload := projectMapping payload.entries
    let metadata := projectMapping metadata.entries
    let unsealed : RuntimeWALRecord :=
      { sequence, recordType := type, payload, metadata, timestamp
        recordId := orDefault recordId (recordIdOf H sequence type payload metadata)
        runtimeVersion := orDefault runtimeVersion runtimeKernelVersion
        abiVersion := orDefault abiVersion runtimeAbiVersion
        integrityHash }
    .ok { unsealed with
      integrityHash := orDefault integrityHash (stableFingerprint H (.dict unsealed.content)) }

/-! ## Reading a line -/

/-- Digits, with single underscores between them. -/
def parseDigits : ℕ → List Char → Option ℕ
  | n, [] => some n
  | n, '_' :: c :: cs => if c.isDigit then parseDigits (10 * n + (c.toNat - 48)) cs else none
  | n, c :: cs => if c.isDigit then parseDigits (10 * n + (c.toNat - 48)) cs else none

/-- `int(s)` for a text. -/
def parseInt (s : String) : Except Err ℤ :=
  let digits := fun cs : List Char =>
    match cs with
    | c :: _ => if c.isDigit then parseDigits 0 cs else none
    | [] => none
  let value :=
    match Text.stripChars s.toList with
    | '-' :: cs => (digits cs).map fun n => -(n : ℤ)
    | '+' :: cs => (digits cs).map fun n => (n : ℤ)
    | cs => (digits cs).map fun n => (n : ℤ)
  match value with
  | some n => .ok n
  | none => .error (.valueError "invalid literal for int() with base 10")

/-- `int(x)`; `truncate` is that of a number that is no integer, by its text. -/
def intOf (truncate : String → Except Err ℤ) : Val → Except Err ℤ
  | .bool b => .ok (if b then 1 else 0)
  | .int n => .ok n
  | .str s => parseInt s
  | .other t _ _ => truncate t
  | _ => .error .typeError

/-- `str(payload.get(key) or default)` -/
def textOr (line : Entries) (key default : String) : String :=
  ((Val.getIn key line).orElse (.str default)).toText

/-- `payload.get(key)`, when that is a mapping. -/
def mappingOf (line : Entries) (key : String) : Entries := (Val.getIn key line).entries

/-- The mapping is equal to its projection. -/
def isProjected (kvs : Entries) : Bool :=
  Val.eq (projectJournalRestorePayload (.dict kvs)) (.dict kvs)

/-- The hash a line is read with: none where a projection changes what it stores. -/
def storedHash (line : Entries) : String :=
  if isProjected (mappingOf line "payload") && isProjected (mappingOf line "metadata") then
    textOr line "integrity_hash" ""
  else ""

/-- `RuntimeWALRecord.from_dict`, at the time `now`. -/
def fromDict (truncate : String → Except Err ℤ) (now : String) (line : Entries) :
    Except Err RuntimeWALRecord := do
  let sequence ← intOf truncate ((Val.getIn "sequence" line).orElse (.int 0))
  walRecord H sequence (.str (textOr line "record_type" ""))
    (projectJournalRestorePayload (.dict (mappingOf line "payload")))
    (projectJournalRestorePayload (.dict (mappingOf line "metadata")))
    (textOr line "timestamp" now) (textOr line "record_id" "")
    (textOr line "runtime_version" runtimeKernelVersion)
    (textOr line "abi_version" runtimeAbiVersion) (storedHash line)

end Digest

/-! ## The journal and its file -/

inductive Line where
  | whole (v : Val)
  | torn
  | blank

/-- A journal with the lines of the file at its path. -/
structure RuntimeJournal where
  records : List RuntimeWALRecord := []
  sequence : ℤ := 0
  file : List Line := []

structure JournalReport where
  verified : Bool
  actualFingerprint : String := ""
  failures : List RuntimeIntegrityReport := []
deriving DecidableEq, Repr

structure Reconstruction where
  runtimeVersion : String
  abiVersion : String
  artifactType : String
  recordCount : ℕ
  lastSequence : ℤ
  integrity : JournalReport
  stateTransitions : List Val
  transactionBoundaries : List Val
  memorySnapshots : List Val
  capabilityState : List Val
  intentState : List Val
  schedulerState : List Val
  distributedState : List Val
  records : List Entries

/-- `records[-1].sequence if records else 0` -/
def lastSequence (records : List RuntimeWALRecord) : ℤ :=
  (records.getLast?.map RuntimeWALRecord.sequence).getD 0

def bySequence (records : List RuntimeWALRecord) : List RuntimeWALRecord :=
  records.insertionSort fun r r' => r.sequence ≤ r'.sequence

def payloadsOf (kind : RuntimeWALRecord → Bool) (records : List RuntimeWALRecord) : List Val :=
  (records.filter kind).map fun r => projectJournalRestorePayload (.dict r.payload)

def ofType (type : String) (r : RuntimeWALRecord) : Bool := r.recordType == type

def isStateTransition (r : RuntimeWALRecord) : Bool :=
  ofType "runtime_event" r &&
    Val.eq (Val.getIn "event_type" r.payload) (.str "RuntimeStateTransitionEvent")

namespace RuntimeJournal

section Digest

variable (H : WalDigest)

/-- `RuntimeJournal.append`, at the time `now`: the number is taken before the record is made. -/
def append (recordType payload metadata : Val) (now : String) (j : RuntimeJournal) :
    RuntimeJournal × Except Err RuntimeWALRecord :=
  let sequence := j.sequence + 1
  match walRecord H sequence recordType (payload.orElse (.dict [])) (metadata.orElse (.dict []))
      now "" runtimeKernelVersion runtimeAbiVersion "" with
  | .error e => ({ j with sequence }, .error e)
  | .ok r =>
    ({ records := j.records ++ [r], sequence, file := j.file ++ [.whole (.dict r.toDict)] }, .ok r)

def verifyIntegrity (j : RuntimeJournal) : JournalReport :=
  let failures := (j.records.filter fun r => !(r.verify H).verified).map fun r => r.verify H
  if failures.isEmpty then
    { verified := true
      actualFingerprint := stableHash H (.list (j.records.map fun r => .dict r.toDict)) }
  else { verified := false, failures }

def reconstruct (j : RuntimeJournal) : Reconstruction :=
  let records := bySequence j.records
  { runtimeVersion := runtimeKernelVersion
    abiVersion := runtimeAbiVersion
    artifactType := "runtime_journal"
    recordCount := records.length
    lastSequence := lastSequence records
    integrity := j.verifyIntegrity H
    stateTransitions := payloadsOf isStateTransition records
    transactionBoundaries := payloadsOf (fun r => Text.startsWith r.recordType "transaction_") records
    memorySnapshots := payloadsOf (ofType "runtime_memory_snapshot") records
    capabilityState := payloadsOf (ofType "runtime_capability_graph") records
    intentState := payloadsOf (ofType "runtime_intent_evaluation") records
    schedulerState := payloadsOf (ofType "runtime_scheduler_state") records
    distributedState := payloadsOf (ofType "runtime_distributed_replay") records
    records := records.map RuntimeWALRecord.toDict }

/-- The records of the lines of a file: all of them, or the first error. -/
def readLines (truncate : String → Except Err ℤ) (now : String) :
    List Line → Except Err (List RuntimeWALRecord)
  | [] => .ok []
  | .blank :: lines => readLines truncate now lines
  | .torn :: _ => .error (.valueError "JSONDecodeError")
  | .whole (.dict line) :: lines => do
    let r ← fromDict H truncate now line
    let rs ← readLines truncate now lines
    .ok (r :: rs)
  | .whole _ :: _ => .error .attributeError

def restoreFromJournal (truncate : String → Except Err ℤ) (now : String) (file : List Line) :
    Except Err RuntimeJournal := do
  let records ← readLines H truncate now file
  let records := bySequence records
  .ok { records, sequence := lastSequence records, file }

end Digest

end RuntimeJournal

end Journal
end ZeroRuntime
