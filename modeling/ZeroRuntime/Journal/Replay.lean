import ZeroRuntime.Journal.Wal

/-!
# ZeroRuntime.Journal.Replay

What a journal restores from the file it wrote.

* `Sealed`: the shape of every record that a call leaves in a journal and in its file.
* `fromDict_toDict`: a line is read back as the record with its payload and metadata projected once
  more, and with the hash it was written with.
* `replays_iff`: the restored records are the written ones exactly when every payload and every
  metadata mapping that was appended settles. The reconstruction, the verification and the number
  of the next record do not depend on it.
-/

namespace ZeroRuntime
namespace Journal

open Lib

/-! ## The calls -/

/-- JSON data -/
abbrev Json := { v : Val // WellFormed v }

/-- A reading of the clock, which is never empty. -/
abbrev Timestamp := { s : String // s ≠ "" }

/-- A mapping of JSON data. -/
structure JsonObject where
  entries : Entries
  wellFormed : WellFormed (.dict entries)

structure RuntimeEvent where
  eventId : String
  runtimeVersion : String
  abiVersion : String
  eventType : String
  sequence : ℤ
  timestamp : String
  payload : JsonObject
  metadata : JsonObject

def RuntimeEvent.toDict (e : RuntimeEvent) : Entries :=
  [("event_id", .str e.eventId), ("runtime_version", .str e.runtimeVersion),
    ("abi_version", .str e.abiVersion), ("event_type", .str e.eventType),
    ("sequence", .int e.sequence), ("timestamp", .str e.timestamp),
    ("payload", .dict e.payload.entries), ("metadata", .dict e.metadata.entries)]

inductive Call where
  | append (recordType payload metadata : Json)
  | appendEvent (event : RuntimeEvent) (phase : String) (metadata : Option JsonObject)
  | appendTransactionBoundary (boundary transactionId : String) (metadata : Json)

namespace Call

def recordType : Call → Val
  | append type _ _ => type.1
  | appendEvent _ _ _ => .str "runtime_event"
  | appendTransactionBoundary boundary _ _ => .str ("transaction_" ++ boundary)

def payload : Call → Val
  | append _ payload _ => payload.1
  | appendEvent event _ _ => .dict event.toDict
  | appendTransactionBoundary boundary transactionId _ =>
    .dict [("transaction_id", .str transactionId), ("boundary", .str boundary)]

def metadata : Call → Val
  | append _ _ metadata => metadata.1
  | appendEvent _ phase metadata =>
    .dict (((metadata.map JsonObject.entries).getD []).foldl (fun acc e => Val.put e.1 e.2 acc)
      [("phase", .str phase)])
  | appendTransactionBoundary _ _ metadata => metadata.1

/-- The call names a type, so it does not raise. -/
def Accepted (c : Call) : Prop := c.recordType.text ≠ ""

instance (c : Call) : Decidable c.Accepted := inferInstanceAs (Decidable (_ ≠ _))

/-- What the call appends is bounded once for all. -/
def Settled (c : Call) : Prop :=
  Settles maxDepth (.dict c.payload.entries) ∧ Settles maxDepth (.dict c.metadata.entries)

end Call

/-- One call on the journal, at the time `now`. -/
def step (H : WalDigest) (j : RuntimeJournal) (c : Call × Timestamp) : RuntimeJournal :=
  (j.append H c.1.recordType c.1.payload c.1.metadata c.2.1).1

/-- The journal after a sequence of calls, each with the time it was made at. -/
def written (H : WalDigest) (calls : List (Call × Timestamp)) : RuntimeJournal :=
  calls.foldl (step H) {}

/-! ## Well-formed payloads -/

theorem WellFormed.entries {v : Val} (h : WellFormed v) : WellFormed (.dict v.entries) := by
  cases h with
  | dict kvs hkeys h => exact .dict kvs hkeys h
  | _ => exact .dict [] List.nodup_nil fun _ h => absurd h List.not_mem_nil

variable {kvs : Entries}

theorem WellFormed.put {k : String} {v : Val} (h : WellFormed (.dict kvs)) (hv : WellFormed v) :
    WellFormed (.dict (Val.put k v kvs)) := by
  cases h with
  | dict _ hkeys h =>
    refine .dict _ (Val.nodup_put hkeys) fun e he => ?_
    rcases Val.mem_put he with rfl | he
    · exact hv
    · exact h e he

theorem WellFormed.update {kvs' : Entries} (h : WellFormed (.dict kvs))
    (h' : WellFormed (.dict kvs')) :
    WellFormed (.dict (kvs'.foldl (fun acc e => Val.put e.1 e.2 acc) kvs)) := by
  cases h' with
  | dict _ hkeys h' =>
    clear hkeys
    induction kvs' generalizing kvs with
    | nil => exact h
    | cons e kvs' ih =>
      rw [List.forall_mem_cons] at h'
      exact ih (h.put h'.1) h'.2

theorem RuntimeEvent.toDict_wellFormed (e : RuntimeEvent) : WellFormed (.dict e.toDict) := by
  refine .dict _ (by simp [RuntimeEvent.toDict]) ?_
  unfold RuntimeEvent.toDict
  simp only [List.forall_mem_cons, List.not_mem_nil, IsEmpty.forall_iff, implies_true, and_true]
  exact ⟨.str _, .str _, .str _, .str _, .int _, .str _, e.payload.wellFormed,
    e.metadata.wellFormed⟩

theorem Call.payload_wellFormed (c : Call) : WellFormed c.payload := by
  cases c with
  | append type payload metadata => exact payload.2
  | appendEvent event phase metadata => exact event.toDict_wellFormed
  | appendTransactionBoundary boundary transactionId metadata =>
    refine .dict _ (by simp) ?_
    simp only [List.forall_mem_cons, List.not_mem_nil, IsEmpty.forall_iff, implies_true, and_true]
    exact ⟨.str _, .str _⟩

theorem Call.metadata_wellFormed (c : Call) : WellFormed c.metadata := by
  cases c with
  | append type payload metadata => exact metadata.2
  | appendEvent event phase metadata =>
    refine WellFormed.update (.dict _ (List.nodup_singleton _) ?_) ?_
    · intro e he
      rw [List.mem_singleton] at he
      subst he
      exact .str _
    · cases metadata with
      | none => exact .dict [] List.nodup_nil fun _ h => absurd h List.not_mem_nil
      | some m => exact m.wellFormed
  | appendTransactionBoundary boundary transactionId metadata => exact metadata.2

/-- `payload or {}`, when that is a mapping, is the payload, when that is one. -/
theorem entries_orElse (v : Val) : (v.orElse (.dict [])).entries = v.entries := by
  unfold Val.orElse
  cases v with
  | dict kvs =>
    cases kvs with
    | nil => rfl
    | cons e kvs => rfl
  | _ => split <;> rfl

/-! ## Projections of mappings -/

theorem dict_projectMapping (kvs : Entries) :
    Val.dict (projectMapping kvs) = projectJournalRestorePayload (.dict kvs) := by
  unfold projectMapping projectJournalRestorePayload maxDepth
  rw [project_dict]
  rfl

theorem projectMapping_projectMapping (h : Settles maxDepth (.dict kvs)) :
    projectMapping (projectMapping kvs) = projectMapping kvs := by
  have hdict : Val.dict (projectMapping (projectMapping kvs)) = .dict (projectMapping kvs) := by
    rw [dict_projectMapping, dict_projectMapping]
    exact project_project h
  exact Val.dict.inj hdict

/-- The third projection is the second one. -/
theorem projectMapping_settled (kvs : Entries) :
    projectMapping (projectMapping (projectMapping kvs)) = projectMapping (projectMapping kvs) := by
  refine projectMapping_projectMapping ?_
  rw [dict_projectMapping]
  exact project_settles maxDepth (.dict kvs)

theorem WellFormed.projectMapping (h : WellFormed (.dict kvs)) :
    WellFormed (.dict (projectMapping kvs)) := by
  rw [dict_projectMapping]
  exact h.project maxDepth

/-! ## Records -/

/-- The shape of a record that an accepted call leaves. -/
structure Sealed (H : WalDigest) (r : RuntimeWALRecord) (payload metadata : Entries) : Prop where
  type_stripped : (Val.str r.recordType).text = r.recordType
  type_ne : r.recordType ≠ ""
  payload_eq : r.payload = projectMapping payload
  metadata_eq : r.metadata = projectMapping metadata
  payload_wellFormed : WellFormed (.dict payload)
  metadata_wellFormed : WellFormed (.dict metadata)
  timestamp_ne : r.timestamp ≠ ""
  recordId_ne : r.recordId ≠ ""
  runtimeVersion_ne : r.runtimeVersion ≠ ""
  abiVersion_ne : r.abiVersion ≠ ""
  hash_eq : r.integrityHash = stableFingerprint H (.dict r.content)

/-- The record as it is read back. -/
def RuntimeWALRecord.restored (r : RuntimeWALRecord) : RuntimeWALRecord :=
  { r with payload := projectMapping r.payload, metadata := projectMapping r.metadata }

theorem text_text (v : Val) : (Val.str v.text).text = v.text := by
  unfold Val.text
  by_cases h : v.truthy
  · rw [if_pos h]
    by_cases hs : (Val.str (Text.strip v.toText)).truthy
    · rw [if_pos hs]
      exact Text.strip_strip _
    · rw [if_neg hs]
      simpa [Val.truthy] using hs
  · rw [if_neg h, if_neg (by simp [Val.truthy])]

theorem orDefault_ne {default : String} (h : default ≠ "") (s : String) : orDefault s default ≠ "" := by
  unfold orDefault
  split
  · exact h
  · rename_i hs
    exact hs

theorem orDefault_of_ne {s default : String} (h : s ≠ "") : orDefault s default = s := if_neg h

section Digest

variable {H : WalDigest}

theorem recordIdOf_ne (sequence : ℤ) (recordType : String) (payload metadata : Entries) :
    recordIdOf H sequence recordType payload metadata ≠ "" := by
  intro h
  have hlist := congrArg String.toList h
  unfold recordIdOf at hlist
  rw [String.toList_append] at hlist
  have hnil := (List.append_eq_nil_iff.mp hlist).1
  exact absurd hnil (by decide)

theorem stableFingerprint_ne (v : Val) : stableFingerprint H v ≠ "" := H.sha_ne _

/-- The record that is made of a type, a payload and metadata without an id and a hash. -/
theorem sealed_walRecord {sequence : ℤ} {recordType payload metadata : Val} {now : Timestamp}
    {r : RuntimeWALRecord} (hpayload : WellFormed payload) (hmetadata : WellFormed metadata)
    (h : walRecord H sequence recordType payload metadata now.1 "" runtimeKernelVersion
      runtimeAbiVersion "" = .ok r) :
    Sealed H r payload.entries metadata.entries ∧ r.sequence = sequence := by
  unfold walRecord at h
  dsimp only at h
  split at h
  · cases h
  · rename_i htype
    have hid := fun payload metadata => orDefault_ne
      (recordIdOf_ne (H := H) sequence recordType.text payload metadata) ""
    have hversion : orDefault runtimeKernelVersion runtimeKernelVersion ≠ "" := by decide
    have habi : orDefault runtimeAbiVersion runtimeAbiVersion ≠ "" := by decide
    obtain rfl := Except.ok.inj h
    refine ⟨?_, rfl⟩
    exact
      { type_stripped := text_text recordType
        type_ne := htype
        payload_eq := rfl
        metadata_eq := rfl
        payload_wellFormed := hpayload.entries
        metadata_wellFormed := hmetadata.entries
        timestamp_ne := now.2
        recordId_ne := hid _ _
        runtimeVersion_ne := hversion
        abiVersion_ne := habi
        hash_eq := rfl }

/-- A call is refused for its type only. -/
theorem walRecord_ok (sequence : ℤ) {recordType : Val} (payload metadata : Val)
    (now recordId runtimeVersion abiVersion integrityHash : String) (h : recordType.text ≠ "") :
    ∃ r, walRecord H sequence recordType payload metadata now recordId runtimeVersion abiVersion
      integrityHash = .ok r := by
  unfold walRecord
  dsimp only
  rw [if_neg h]
  exact ⟨_, rfl⟩

variable {r : RuntimeWALRecord} {payload metadata : Entries}

theorem content_restored (h : Sealed H r payload metadata) : r.restored.content = r.content := by
  have hsettled := fun kvs => congrArg Val.dict (projectMapping_settled kvs)
  unfold RuntimeWALRecord.content RuntimeWALRecord.restored
  rw [← dict_projectMapping, ← dict_projectMapping, ← dict_projectMapping, ← dict_projectMapping,
    h.payload_eq, h.metadata_eq, hsettled, hsettled]

theorem toDict_restored (h : Sealed H r payload metadata) : r.restored.toDict = r.toDict := by
  unfold RuntimeWALRecord.toDict
  rw [content_restored h]
  rfl

theorem toText_textOr {line : Entries} {key s default : String}
    (h : Val.getIn key line = .str s) (hs : s ≠ "") : textOr line key default = s := by
  unfold textOr Val.orElse
  rw [h, if_pos (by simpa [Val.truthy] using hs)]
  rfl

theorem intOf_orElse (truncate : String → Except Err ℤ) (n : ℤ) :
    intOf truncate ((Val.int n).orElse (.int 0)) = .ok n := by
  unfold Val.orElse
  split
  · rfl
  · rename_i h
    have hn : n = 0 := by simpa [Val.truthy] using h
    rw [hn]
    rfl

/-- What a line stores of a payload is its own projection. -/
theorem isProjected_stored {kvs : Entries} (h : WellFormed (.dict kvs)) :
    isProjected (projectMapping (projectMapping kvs)) = true := by
  unfold isProjected
  rw [← dict_projectMapping, projectMapping_settled]
  exact h.projectMapping.projectMapping.eq_refl

theorem mappingOf_toDict (r : RuntimeWALRecord) :
    mappingOf r.toDict "payload" = projectMapping r.payload ∧
      mappingOf r.toDict "metadata" = projectMapping r.metadata := ⟨rfl, rfl⟩

theorem integrityHash_ne (h : Sealed H r payload metadata) : r.integrityHash ≠ "" := by
  rw [h.hash_eq]
  exact stableFingerprint_ne _

theorem storedHash_toDict (h : Sealed H r payload metadata) :
    storedHash r.toDict = r.integrityHash := by
  unfold storedHash
  rw [(mappingOf_toDict r).1, (mappingOf_toDict r).2, h.payload_eq, h.metadata_eq,
    isProjected_stored h.payload_wellFormed, isProjected_stored h.metadata_wellFormed]
  exact toText_textOr rfl (integrityHash_ne h)

/-- Reading back the line of a record. -/
theorem fromDict_toDict (h : Sealed H r payload metadata) (truncate : String → Except Err ℤ)
    (now : String) : fromDict H truncate now r.toDict = .ok r.restored := by
  have hsequence : intOf truncate ((Val.getIn "sequence" r.toDict).orElse (.int 0)) =
      .ok r.sequence := intOf_orElse truncate r.sequence
  have htype : textOr r.toDict "record_type" "" = r.recordType := toText_textOr rfl h.type_ne
  have htimestamp : textOr r.toDict "timestamp" now = r.timestamp :=
    toText_textOr rfl h.timestamp_ne
  have hid : textOr r.toDict "record_id" "" = r.recordId := toText_textOr rfl h.recordId_ne
  have hversion : textOr r.toDict "runtime_version" runtimeKernelVersion = r.runtimeVersion :=
    toText_textOr rfl h.runtimeVersion_ne
  have habi : textOr r.toDict "abi_version" runtimeAbiVersion = r.abiVersion :=
    toText_textOr rfl h.abiVersion_ne
  have hpayload : projectMapping (projectMapping (projectMapping r.payload)) =
      projectMapping r.payload := by
    rw [h.payload_eq, projectMapping_settled, projectMapping_settled]
  have hmetadata : projectMapping (projectMapping (projectMapping r.metadata)) =
      projectMapping r.metadata := by
    rw [h.metadata_eq, projectMapping_settled, projectMapping_settled]
  unfold fromDict
  rw [hsequence, htype, htimestamp, hid, hversion, habi, storedHash_toDict h,
    (mappingOf_toDict r).1, (mappingOf_toDict r).2, ← dict_projectMapping, ← dict_projectMapping]
  change walRecord H r.sequence _ _ _ _ _ _ _ _ = _
  unfold walRecord
  dsimp only
  rw [h.type_stripped, if_neg h.type_ne]
  simp only [Val.entries]
  rw [hpayload, hmetadata, orDefault_of_ne h.recordId_ne, orDefault_of_ne h.runtimeVersion_ne,
    orDefault_of_ne h.abiVersion_ne, orDefault_of_ne (integrityHash_ne h)]
  rfl

theorem verify_restored (h : Sealed H r payload metadata) :
    r.restored.verify H = r.verify H := by
  unfold RuntimeWALRecord.verify
  rw [toDict_restored h]

/-- The hash of a record is left out of what is hashed. -/
theorem canonical_toDict (r : RuntimeWALRecord) :
    (Val.dict r.toDict).canonical sealKey = (Val.dict r.content).canonical sealKey :=
  congrArg Val.dict (Val.canonicalEntries_skip rfl _ r.content)

theorem verified_iff {r : RuntimeWALRecord} :
    (r.verify H).verified = true ↔ r.integrityHash = stableFingerprint H (.dict r.content) := by
  have hexpected : ((Val.getIn "integrity_hash" r.toDict).orElse (.str "")).toText =
      r.integrityHash := by
    change ((Val.str r.integrityHash).orElse (.str "")).toText = r.integrityHash
    unfold Val.orElse
    split
    · rfl
    · rename_i h
      have hempty : r.integrityHash = "" := by simpa [Val.truthy] using h
      rw [hempty]
      rfl
  have hactual : stableFingerprint H (.dict r.toDict) = stableFingerprint H (.dict r.content) := by
    unfold stableFingerprint
    rw [canonical_toDict]
  unfold RuntimeWALRecord.verify verifyIntegrity
  dsimp only
  rw [hexpected, hactual]
  have hne := stableFingerprint_ne (H := H) (.dict r.content)
  split
  · rename_i hempty
    rw [hempty]
    exact ⟨(by intro h; cases h), fun h => absurd h.symm hne⟩
  · split
    · rename_i hdiff
      exact ⟨(by intro h; cases h), fun h => absurd h hdiff⟩
    · rename_i hsame
      exact ⟨fun _ => not_not.mp hsame, fun _ => rfl⟩

end Digest

/-! ## The file of a journal -/

/-- The same sequence, type, id, payload and metadata. -/
structure SameRecord (r r' : RuntimeWALRecord) : Prop where
  sequence : r.sequence = r'.sequence
  recordType : r.recordType = r'.recordType
  recordId : r.recordId = r'.recordId
  payload : Val.eq (.dict r.payload) (.dict r'.payload) = true
  metadata : Val.eq (.dict r.metadata) (.dict r'.metadata) = true

def SealedFor (H : WalDigest) (c : Call) (r : RuntimeWALRecord) : Prop :=
  Sealed H r c.payload.entries c.metadata.entries

/-- A journal and its file after calls, of which those in `accepted` made a record. -/
structure Logged (H : WalDigest) (accepted : List Call) (j : RuntimeJournal) : Prop where
  records : List.Forall₂ (SealedFor H) accepted j.records
  file : j.file = j.records.map fun r => .whole (.dict r.toDict)
  ordered : j.records.Pairwise fun r r' => r.sequence < r'.sequence
  bounded : ∀ r ∈ j.records, r.sequence ≤ j.sequence

/-- The calls that made a record. -/
def acceptedCalls (calls : List (Call × Timestamp)) : List Call :=
  (calls.map Prod.fst).filter fun c => c.Accepted

theorem mem_acceptedCalls {calls : List (Call × Timestamp)} {c : Call} :
    c ∈ acceptedCalls calls ↔ (∃ t, (c, t) ∈ calls) ∧ c.Accepted := by
  unfold acceptedCalls
  simp

section Digest

variable {H : WalDigest} {accepted : List Call} {j : RuntimeJournal}

theorem logged_start : Logged H [] {} where
  records := .nil
  file := rfl
  ordered := List.Pairwise.nil
  bounded := fun _ h => absurd h List.not_mem_nil

theorem WellFormed.orElse {v : Val} (h : WellFormed v) :
    WellFormed (v.orElse (.dict [])) := by
  unfold Val.orElse
  split
  · exact h
  · exact .dict [] List.nodup_nil fun _ h => absurd h List.not_mem_nil

theorem logged_step (h : Logged H accepted j) (c : Call) (now : Timestamp) :
    Logged H (if c.Accepted then accepted ++ [c] else accepted) (step H j (c, now)) := by
  unfold step RuntimeJournal.append
  dsimp only
  by_cases hc : c.Accepted
  · obtain ⟨r, hr⟩ := walRecord_ok (H := H) (j.sequence + 1) (c.payload.orElse (.dict []))
      (c.metadata.orElse (.dict [])) now.1 "" runtimeKernelVersion runtimeAbiVersion "" hc
    have hmade := sealed_walRecord c.payload_wellFormed.orElse c.metadata_wellFormed.orElse hr
    rw [entries_orElse, entries_orElse] at hmade
    rw [if_pos hc, hr]
    refine ⟨?_, ?_, ?_, ?_⟩
    · exact List.rel_append h.records (.cons hmade.1 .nil)
    · rw [h.file, List.map_append, List.map_singleton]
    · refine List.pairwise_append.mpr ⟨h.ordered, List.pairwise_singleton _ _, ?_⟩
      intro a ha b hb
      rw [List.mem_singleton] at hb
      have hle := h.bounded a ha
      rw [hb, hmade.2]
      omega
    · intro a ha
      rcases List.mem_append.mp ha with ha | ha
      · have hle := h.bounded a ha
        exact Int.le_trans hle (Int.le_add_one (Int.le_refl _))
      · rw [List.mem_singleton] at ha
        rw [ha, hmade.2]
  · have herror : walRecord H (j.sequence + 1) c.recordType (c.payload.orElse (.dict []))
        (c.metadata.orElse (.dict [])) now.1 "" runtimeKernelVersion runtimeAbiVersion "" =
          .error (.valueError "runtime_wal_record_type_required") := by
      unfold Call.Accepted at hc
      unfold walRecord
      dsimp only
      rw [if_pos (not_not.mp hc)]
    rw [if_neg hc, herror]
    refine ⟨h.records, h.file, h.ordered, fun r hr => ?_⟩
    exact Int.le_trans (h.bounded r hr) (Int.le_add_one (Int.le_refl _))

theorem logged_run (h : Logged H accepted j) (calls : List (Call × Timestamp)) :
    Logged H (accepted ++ acceptedCalls calls) (calls.foldl (step H) j) := by
  induction calls generalizing accepted j with
  | nil => simpa [acceptedCalls] using h
  | cons c calls ih =>
    have hnext := ih (logged_step h c.1 c.2)
    rw [List.foldl_cons]
    by_cases hc : c.1.Accepted
    · simpa [acceptedCalls, hc] using hnext
    · simpa [acceptedCalls, hc] using hnext

theorem logged_written (H : WalDigest) (calls : List (Call × Timestamp)) :
    Logged H (acceptedCalls calls) (written H calls) := logged_run logged_start calls

/-! ## Restoring -/

variable {records : List RuntimeWALRecord}

theorem call_of_record (h : List.Forall₂ (SealedFor H) accepted records) :
    ∀ r ∈ records, ∃ c, SealedFor H c r := by
  induction h with
  | nil => exact fun _ h => absurd h List.not_mem_nil
  | @cons c r accepted _ hr _ ih =>
    intro r' hr'
    rcases List.mem_cons.mp hr' with rfl | hr'
    · exact ⟨c, hr⟩
    · exact ih r' hr'

theorem readLines_sealed (h : ∀ r ∈ records, ∃ c, SealedFor H c r)
    (truncate : String → Except Err ℤ) (now : String) :
    RuntimeJournal.readLines H truncate now (records.map fun r => .whole (.dict r.toDict)) =
      .ok (records.map RuntimeWALRecord.restored) := by
  induction records with
  | nil => rfl
  | cons r records ih =>
    rw [List.forall_mem_cons] at h
    obtain ⟨⟨c, hr⟩, h⟩ := h
    rw [List.map_cons, List.map_cons, RuntimeJournal.readLines, fromDict_toDict hr, ih h]
    rfl

theorem bySequence_of_ordered (h : records.Pairwise fun r r' => r.sequence < r'.sequence) :
    bySequence records = records :=
  (h.imp fun hlt => Int.le_of_lt hlt).insertionSort_eq

theorem ordered_restored (h : records.Pairwise fun r r' => r.sequence < r'.sequence) :
    (records.map RuntimeWALRecord.restored).Pairwise fun r r' => r.sequence < r'.sequence :=
  List.pairwise_map.mpr h

theorem lastSequence_restored (records : List RuntimeWALRecord) :
    lastSequence (records.map RuntimeWALRecord.restored) = lastSequence records := by
  unfold lastSequence
  rw [List.getLast?_map, Option.map_map]
  rfl

def RuntimeJournal.reopened (j : RuntimeJournal) : RuntimeJournal where
  records := j.records.map RuntimeWALRecord.restored
  sequence := lastSequence j.records
  file := j.file

theorem restore_logged (h : Logged H accepted j) (truncate : String → Except Err ℤ)
    (now : String) :
    RuntimeJournal.restoreFromJournal H truncate now j.file = .ok j.reopened := by
  unfold RuntimeJournal.restoreFromJournal
  rw [h.file, readLines_sealed (call_of_record h.records)]
  change Except.ok _ = _
  rw [bySequence_of_ordered (ordered_restored h.ordered), lastSequence_restored]
  unfold RuntimeJournal.reopened
  rw [h.file]

variable {r : RuntimeWALRecord}

theorem sameRecord_iff {c : Call} (h : SealedFor H c r) : SameRecord r.restored r ↔ c.Settled := by
  have hpayload : Val.eq (.dict (projectMapping r.payload)) (.dict r.payload) = true ↔
      Settles maxDepth (.dict c.payload.entries) := by
    rw [h.payload_eq, dict_projectMapping, dict_projectMapping]
    exact project_project_iff h.payload_wellFormed
  have hmetadata : Val.eq (.dict (projectMapping r.metadata)) (.dict r.metadata) = true ↔
      Settles maxDepth (.dict c.metadata.entries) := by
    rw [h.metadata_eq, dict_projectMapping, dict_projectMapping]
    exact project_project_iff h.metadata_wellFormed
  constructor
  · intro hs
    exact ⟨hpayload.mp hs.payload, hmetadata.mp hs.metadata⟩
  · intro hc
    exact ⟨rfl, rfl, rfl, hpayload.mpr hc.1, hmetadata.mpr hc.2⟩

theorem sameRecords_iff (h : List.Forall₂ (SealedFor H) accepted records) :
    List.Forall₂ SameRecord (records.map RuntimeWALRecord.restored) records ↔
      ∀ c ∈ accepted, c.Settled := by
  induction h with
  | nil => simp
  | cons hr _ ih =>
    rw [List.map_cons, List.forall₂_cons, ih, sameRecord_iff hr, List.forall_mem_cons]

/-! ## Reconstructing -/

theorem keyRank_marker : keyRank truncationMarker = 1 := by decide +kernel

/-- Cutting twice keeps the value of a key of the first rank that cutting once keeps. -/
theorem find_clip_clip {kvs : Entries} {k : String} (hkeys : (kvs.map Prod.fst).Nodup)
    (hk : keyRank k = 0) :
    Val.find k (clipEntries (clipEntries kvs)) = Val.find k (clipEntries kvs) := by
  by_cases hfits : Fits kvs
  · rw [clip_clip hfits]
  · have hlt := length_clip_clip hfits
    unfold Fits at hfits
    push Not at hfits
    obtain ⟨hcut, hnot, e, he, hlate⟩ := hfits
    have hclip : clipEntries kvs = keptEntries kvs ++ [(truncationMarker, markerValue)] := by
      unfold clipEntries
      rw [if_pos hcut, Val.put_of_not_mem hnot]
    have hlen : (clipEntries kvs).length = maxItems + 1 := by
      rw [hclip, List.length_append, length_kept_of_cut hcut, List.length_singleton]
    have hagain : clipEntries (clipEntries kvs) =
        Val.put truncationMarker markerValue (keptEntries (clipEntries kvs)) := if_pos (by omega)
    have hmem := mem_kept_of_not_last hcut fun hmax => hlate (hmax e he)
    rw [← hclip] at hmem
    obtain ⟨last, hlast⟩ := sort_of_length_succ hlen
    -- the entry that a second cut drops comes after the marker, so it has the second rank
    have hrank : keyRank last.1 ≠ 0 := by
      obtain ⟨m, hm, hkey⟩ := List.mem_map.mp hmem
      have hsorted := @sorted_sortEntries (clipEntries kvs)
      rw [hlast] at hsorted
      have hle := (List.pairwise_append.mp hsorted).2.2 m hm last (List.mem_singleton_self _)
      unfold EntryLe KeyLe at hle
      rw [hkey, keyRank_marker] at hle
      omega
    have hmarker : k ≠ truncationMarker := by
      intro h
      rw [h, keyRank_marker] at hk
      omega
    have hnotlast : Val.find k [last] = none := by
      have hne : k ≠ last.1 := fun h => hrank (h ▸ hk)
      exact if_neg hne
    rw [hagain, Val.find_put, if_neg hmarker,
      ← find_perm sortEntries_perm (((sortEntries_perm.map Prod.fst).nodup_iff).mpr
        (nodup_clipEntries hkeys)), hlast, Val.find_append, hnotlast, Option.or_none]

theorem getIn_onValues {p : Val → Val} (hp : p .none = .none) (k : String) (kvs : Entries) :
    Val.getIn k (onValues p kvs) = p (Val.getIn k kvs) := by
  induction kvs with
  | nil => exact hp.symm
  | cons e kvs ih =>
    obtain ⟨k', v⟩ := e
    unfold onValues Val.getIn at *
    rw [List.map_cons, Val.find, Val.find]
    split
    · rfl
    · exact ih

/-- Being a text is not a matter of the projection. -/
theorem eq_str_project (d : ℕ) (v : Val) (s : String) :
    Val.eq (project (d + 1) v) (.str s) = Val.eq v (.str s) := by
  cases v with
  | dict kvs =>
    rw [project_dict]
    simp [Val.eq]
  | list xs =>
    rw [project_list]
    simp [Val.eq]
  | _ => rfl

theorem isStateTransition_restored {c : Call} (h : SealedFor H c r) :
    isStateTransition r.restored = isStateTransition r := by
  have hproject : ∀ kvs, projectMapping kvs = onValues (project 4) (clipEntries kvs) :=
    fun kvs => Val.dict.inj ((dict_projectMapping kvs).trans (project_dict 4 kvs))
  have hvalues : projectMapping (projectMapping c.payload.entries) =
      onValues (project 4) (onValues (project 4) (clipEntries (clipEntries c.payload.entries))) := by
    rw [hproject, hproject, clipEntries_onValues (project_marker 4)]
  have hkeys : (c.payload.entries.map Prod.fst).Nodup := by
    cases h.payload_wellFormed
    assumption
  have hrank : keyRank "event_type" = 0 := by decide +kernel
  have htype : Val.eq (Val.getIn "event_type" r.restored.payload)
        (.str "RuntimeStateTransitionEvent") =
      Val.eq (Val.getIn "event_type" r.payload) (.str "RuntimeStateTransitionEvent") := by
    change Val.eq (Val.getIn "event_type" (projectMapping r.payload)) _ = _
    rw [h.payload_eq, hvalues, hproject, getIn_onValues rfl, getIn_onValues rfl,
      getIn_onValues rfl, eq_str_project, eq_str_project, eq_str_project]
    unfold Val.getIn
    rw [find_clip_clip hkeys hrank]
  unfold isStateTransition
  rw [htype]
  rfl

theorem payloadsOf_restored {kind : RuntimeWALRecord → Bool}
    (h : List.Forall₂ (SealedFor H) accepted records)
    (hkind : ∀ c r, SealedFor H c r → kind r.restored = kind r) :
    payloadsOf kind (records.map RuntimeWALRecord.restored) = payloadsOf kind records := by
  unfold payloadsOf
  induction h with
  | nil => rfl
  | @cons c r _ _ hr _ ih =>
    have hpayload : projectJournalRestorePayload (.dict r.restored.payload) =
        projectJournalRestorePayload (.dict r.payload) := by
      change projectJournalRestorePayload (.dict (projectMapping r.payload)) = _
      rw [hr.payload_eq, ← dict_projectMapping, projectMapping_settled, dict_projectMapping]
    rw [List.map_cons, List.filter_cons, List.filter_cons, hkind c r hr]
    split
    · rw [List.map_cons, List.map_cons, ih, hpayload]
    · exact ih

theorem toDict_reopened (h : Logged H accepted j) :
    j.reopened.records.map RuntimeWALRecord.toDict = j.records.map RuntimeWALRecord.toDict := by
  unfold RuntimeJournal.reopened
  rw [List.map_map]
  refine List.map_congr_left fun r hr => ?_
  obtain ⟨c, hc⟩ := call_of_record h.records r hr
  exact toDict_restored hc

theorem verified_of_sealed {c : Call} (h : SealedFor H c r) :
    (r.verify H).verified = true := verified_iff.mpr h.hash_eq

/-- All the records of a journal are verified, and so is the journal. -/
theorem verifyIntegrity_of_verified (h : ∀ r ∈ j.records, (r.verify H).verified = true) :
    j.verifyIntegrity H =
      { verified := true
        actualFingerprint :=
          stableHash H (.list ((j.records.map RuntimeWALRecord.toDict).map Val.dict)) } := by
  have hnone : (j.records.filter fun r => !(r.verify H).verified) = [] := by
    refine List.filter_eq_nil_iff.mpr fun r hr => ?_
    rw [h r hr]
    decide
  unfold RuntimeJournal.verifyIntegrity
  dsimp only
  rw [hnone, List.map_map]
  rfl

theorem verified_logged (h : Logged H accepted j) :
    ∀ r ∈ j.records, (r.verify H).verified = true := by
  intro r hr
  obtain ⟨c, hc⟩ := call_of_record h.records r hr
  exact verified_of_sealed hc

theorem verified_reopened (h : Logged H accepted j) :
    ∀ r ∈ j.reopened.records, (r.verify H).verified = true := by
  intro r hr
  obtain ⟨r', hr', rfl⟩ := List.mem_map.mp hr
  obtain ⟨c, hc⟩ := call_of_record h.records r' hr'
  rw [verify_restored hc]
  exact verified_of_sealed hc

theorem verifyIntegrity_reopened (h : Logged H accepted j) :
    j.reopened.verifyIntegrity H = j.verifyIntegrity H := by
  rw [verifyIntegrity_of_verified (verified_reopened h),
    verifyIntegrity_of_verified (verified_logged h), toDict_reopened h]

theorem reconstruct_reopened (h : Logged H accepted j) :
    j.reopened.reconstruct H = j.reconstruct H := by
  have hkind : ∀ kind : RuntimeWALRecord → Bool,
      (∀ c r, SealedFor H c r → kind r.restored = kind r) →
        payloadsOf kind j.reopened.records = payloadsOf kind j.records :=
    fun kind => payloadsOf_restored h.records
  have hsorted : bySequence j.reopened.records = j.reopened.records :=
    bySequence_of_ordered (ordered_restored h.ordered)
  have hlen : j.reopened.records.length = j.records.length := List.length_map _
  have hlast : lastSequence j.reopened.records = lastSequence j.records :=
    lastSequence_restored j.records
  unfold RuntimeJournal.reconstruct
  dsimp only
  rw [hsorted,
    bySequence_of_ordered h.ordered, verifyIntegrity_reopened h, toDict_reopened h, hlen, hlast,
    hkind _ fun _ _ hr => isStateTransition_restored hr, hkind _ fun _ _ _ => rfl,
    hkind _ fun _ _ _ => rfl, hkind _ fun _ _ _ => rfl, hkind _ fun _ _ _ => rfl,
    hkind _ fun _ _ _ => rfl, hkind _ fun _ _ _ => rfl]

/-! ## The whole run -/

/-- The journal restored from the file of `j` has the same records, reconstructs the same, is
verified, and goes on with the number after that of the last record. -/
def Replays (H : WalDigest) (truncate : String → Except Err ℤ) (now : String)
    (j : RuntimeJournal) : Prop :=
  ∃ j', RuntimeJournal.restoreFromJournal H truncate now j.file = .ok j' ∧
    List.Forall₂ SameRecord j'.records j.records ∧ j'.reconstruct H = j.reconstruct H ∧
    (j'.verifyIntegrity H).verified = true ∧ j'.sequence = lastSequence j.records

theorem replays_logged (h : Logged H accepted j) (truncate : String → Except Err ℤ)
    (now : String) : Replays H truncate now j ↔ ∀ c ∈ accepted, c.Settled := by
  rw [← sameRecords_iff h.records]
  constructor
  · rintro ⟨j', hj', hrecords, -⟩
    rw [restore_logged h] at hj'
    cases hj'
    exact hrecords
  · intro hrecords
    refine ⟨j.reopened, restore_logged h truncate now, hrecords, reconstruct_reopened h, ?_, rfl⟩
    rw [verifyIntegrity_of_verified (verified_reopened h)]

end Digest

/-- The projection, done twice, is the projection. -/
def IdempotentAt (v : Val) : Prop :=
  Val.eq (projectJournalRestorePayload (projectJournalRestorePayload v))
    (projectJournalRestorePayload v) = true

/-- A journal replays to what was written exactly when all that was written settles; and the
projection is idempotent exactly at what settles. -/
theorem replays_iff (H : WalDigest) (truncate : String → Except Err ℤ) (now : String)
    (calls : List (Call × Timestamp)) :
    (Replays H truncate now (written H calls) ↔
      ∀ c ∈ calls, c.1.Accepted → c.1.Settled) ∧
    ∀ v : Json, IdempotentAt v.1 ↔ Settles maxDepth v.1 := by
  refine ⟨?_, fun v => project_project_iff v.2⟩
  rw [replays_logged (logged_written H calls)]
  constructor
  · intro h c hc haccepted
    exact h c.1 (mem_acceptedCalls.mpr ⟨⟨c.2, hc⟩, haccepted⟩)
  · intro h c hc
    obtain ⟨⟨t, ht⟩, haccepted⟩ := mem_acceptedCalls.mp hc
    exact h (c, t) ht haccepted

theorem reopened_written (H : WalDigest) (truncate : String → Except Err ℤ) (now : String)
    (calls : List (Call × Timestamp)) :
    ∃ j', RuntimeJournal.restoreFromJournal H truncate now (written H calls).file = .ok j' ∧
      j'.reconstruct H = (written H calls).reconstruct H ∧
      (j'.verifyIntegrity H).verified = true ∧
      j'.sequence = lastSequence (written H calls).records := by
  have h := logged_written H calls
  refine ⟨_, restore_logged h truncate now, reconstruct_reopened h, ?_, rfl⟩
  rw [verifyIntegrity_of_verified (verified_reopened h)]

/-! ## A payload that does not settle -/

def sampleDigest : WalDigest where
  sha v := "#" ++ v.toText
  sha_ne v h := by
    have hlist := congrArg String.toList h
    rw [String.toList_append] at hlist
    exact absurd (List.append_eq_nil_iff.mp hlist).1 (by decide)

/-- 33 keys, all of them after the marker. -/
def oversized : Entries :=
  (List.range 33).map fun i => (String.ofList (List.replicate (i + 1) 'k'), .int i)

theorem oversized_wellFormed : WellFormed (.dict oversized) := by
  refine .dict _ (by decide +kernel) fun e he => ?_
  obtain ⟨i, -, rfl⟩ := List.mem_map.mp he
  exact .int i

def oversizedCall : Call :=
  .append ⟨.str "note", .str _⟩ ⟨.dict oversized, oversized_wellFormed⟩ ⟨.none, .none⟩

theorem not_settles_oversized : ¬Settles maxDepth (.dict oversized) := by
  rintro ⟨hfits, -⟩
  exact absurd hfits (by decide +kernel)

theorem oversized_not_replayed :
    ¬Replays sampleDigest (fun _ => .error .typeError) "later"
        (written sampleDigest [(oversizedCall, ⟨"now", by decide⟩)]) ∧
      ¬IdempotentAt (.dict oversized) := by
  constructor
  · rw [replays_logged (logged_written _ _)]
    intro h
    have haccepted : oversizedCall.Accepted := by decide +kernel
    exact not_settles_oversized
      (h oversizedCall (mem_acceptedCalls.mpr ⟨⟨_, List.mem_cons_self⟩, haccepted⟩)).1
  · unfold IdempotentAt
    rw [projectJournalRestorePayload, projectJournalRestorePayload,
      project_project_iff oversized_wellFormed]
    exact not_settles_oversized

end Journal
end ZeroRuntime
