import ZeroRuntime.Journal.Replay

/-!
# ZeroRuntime.Journal.Crash

A crash in the middle of an append, and a line that was changed after it was written.

* A crash leaves nothing, a part or the whole of the line that is being written. A part is no JSON,
  and reading stops at it: nothing is restored then, not even the earlier records.
* A changed line that still is a record goes unnoticed when it is read with no hash: the hash is
  then computed from what was read. `Caught` is what a change must leave in place to be noticed.
-/

namespace ZeroRuntime
namespace Journal

open Lib

/-! ## A crash during an append -/

/-- How much of the bytes of a line is in the file. -/
inductive Kept where
  | nothing | part | whole
deriving DecidableEq, Repr

def Kept.of : Kept → Line → List Line
  | nothing, _ => []
  | part, _ => [.torn]
  | whole, line => [line]

section Digest

variable (H : WalDigest)

/-- The file after a crash during the append of a call: `kept` of the line it was writing. -/
def crashedFile (j : RuntimeJournal) (c : Call × Timestamp) (kept : Kept) : List Line :=
  j.file ++ ((step H j c).file.drop j.file.length).flatMap kept.of

def Survives (truncate : String → Except Err ℤ) (now : String) (j : RuntimeJournal)
    (c : Call × Timestamp) (kept : Kept) : Prop :=
  ∃ j', RuntimeJournal.restoreFromJournal H truncate now (crashedFile H j c kept) = .ok j' ∧
    List.Forall₂ SameRecord j'.records j.records

variable {H} {accepted : List Call} {j : RuntimeJournal}

variable {c : Call × Timestamp}

theorem crashedFile_refused (h : ¬c.1.Accepted) (kept : Kept) :
    crashedFile H j c kept = j.file := by
  have hfile : (step H j c).file = j.file := by
    unfold Call.Accepted at h
    unfold step RuntimeJournal.append walRecord
    dsimp only
    rw [if_pos (not_not.mp h)]
  unfold crashedFile
  rw [hfile, List.drop_length, List.flatMap_nil, List.append_nil]

theorem crashedFile_nothing (c : Call × Timestamp) : crashedFile H j c .nothing = j.file := by
  have hnil : ∀ lines, List.flatMap Kept.nothing.of lines = [] := fun lines =>
    List.flatMap_eq_nil_iff.mpr fun _ _ => rfl
  unfold crashedFile
  rw [hnil, List.append_nil]

/-- The line that an accepted call writes. -/
theorem step_file (h : c.1.Accepted) :
    ∃ r, (step H j c).file = j.file ++ [.whole (.dict r.toDict)] ∧
      (step H j c).records = j.records ++ [r] := by
  obtain ⟨r, hr⟩ := walRecord_ok (H := H) (j.sequence + 1) (c.1.payload.orElse (.dict []))
    (c.1.metadata.orElse (.dict [])) c.2.1 "" runtimeKernelVersion runtimeAbiVersion "" h
  refine ⟨r, ?_, ?_⟩
  all_goals
    unfold step RuntimeJournal.append
    dsimp only
    rw [hr]

theorem readLines_append {truncate : String → Except Err ℤ} {now : String} {lines : List Line}
    {records : List RuntimeWALRecord}
    (h : RuntimeJournal.readLines H truncate now lines = .ok records) (rest : List Line) :
    RuntimeJournal.readLines H truncate now (lines ++ rest) =
      (RuntimeJournal.readLines H truncate now rest).map (records ++ ·) := by
  induction lines generalizing records with
  | nil =>
    cases h
    rw [List.nil_append]
    cases RuntimeJournal.readLines H truncate now rest <;> rfl
  | cons line lines ih =>
    match line with
    | .blank => exact ih h
    | .torn => cases h
    | .whole (.dict kvs) =>
      rw [RuntimeJournal.readLines] at h
      obtain ⟨r, hr, h⟩ := bind_eq_ok.mp h
      obtain ⟨rs, hrs, h⟩ := bind_eq_ok.mp h
      cases h
      rw [List.cons_append, RuntimeJournal.readLines, hr, ih hrs]
      cases RuntimeJournal.readLines H truncate now rest <;> rfl
    | .whole .none => cases h
    | .whole (.bool _) => cases h
    | .whole (.int _) => cases h
    | .whole (.str _) => cases h
    | .whole (.list _) => cases h
    | .whole (.other _ _ _) => cases h

/-- The earlier records are restored when nothing of the line is left, or none was written. -/
theorem survives_logged (h : Logged H accepted j) (truncate : String → Except Err ℤ)
    (now : String) (c : Call × Timestamp) (kept : Kept) :
    Survives H truncate now j c kept ↔
      (c.1.Accepted → kept = .nothing) ∧ ∀ c' ∈ accepted, c'.Settled := by
  have hsame : crashedFile H j c kept = j.file →
      (Survives H truncate now j c kept ↔ ∀ c' ∈ accepted, c'.Settled) := by
    intro hfile
    unfold Survives
    rw [hfile, restore_logged h, ← sameRecords_iff h.records]
    constructor
    · rintro ⟨j', hj', hrecords⟩
      cases hj'
      exact hrecords
    · exact fun hrecords => ⟨_, rfl, hrecords⟩
  by_cases hc : c.1.Accepted
  · cases kept with
    | nothing =>
      rw [hsame (crashedFile_nothing c)]
      exact ⟨fun h => ⟨fun _ => rfl, h⟩, And.right⟩
    | part =>
      refine ⟨?_, fun h => absurd (h.1 hc) (by decide)⟩
      rintro ⟨j', hj', -⟩
      obtain ⟨r, hr, -⟩ := step_file (H := H) (j := j) hc
      have hfile : crashedFile H j c .part = j.file ++ [.torn] := by
        unfold crashedFile
        rw [hr, List.drop_left]
        rfl
      have hread := readLines_sealed (call_of_record h.records) truncate now
      rw [← h.file] at hread
      unfold RuntimeJournal.restoreFromJournal at hj'
      rw [hfile, readLines_append hread] at hj'
      cases hj'
    | whole =>
      refine ⟨?_, fun h => absurd (h.1 hc) (by decide)⟩
      rintro ⟨j', hj', hrecords⟩
      obtain ⟨r, hr, hr'⟩ := step_file (H := H) (j := j) hc
      have hfile : crashedFile H j c .whole = (step H j c).file := by
        unfold crashedFile
        rw [hr, List.drop_left]
        rfl
      rw [hfile, restore_logged (logged_step h c.1 c.2)] at hj'
      cases hj'
      have hlen := hrecords.length_eq
      have hmap : (step H j c).reopened.records.length = (step H j c).records.length :=
        List.length_map _
      rw [hmap, hr', List.length_append, List.length_singleton] at hlen
      omega
  · rw [hsame (crashedFile_refused hc kept)]
    exact ⟨fun h => ⟨fun hacc => absurd hacc hc, h⟩, And.right⟩

end Digest

/-! ## A changed line -/

def alterableFields : List String :=
  ["sequence", "record_type", "timestamp", "payload", "metadata"]

/-- The change alters one of the fields of the line that say what was written. -/
def Altered (line line' : Entries) : Prop :=
  ∃ f ∈ alterableFields, Val.eq (Val.getIn f line) (Val.getIn f line') = false

section Digest

variable (H : WalDigest)

/-- The file with the line changed restores to a journal that is not verified. -/
def Detected (truncate : String → Except Err ℤ) (now : String) (file : List Line) : Prop :=
  ∃ j', RuntimeJournal.restoreFromJournal H truncate now file = .ok j' ∧
    (j'.verifyIntegrity H).verified = false

/-- The line kept a hash, and payload and metadata that are their own projections. Where the hash is
the one that was written, the record read differs in what is hashed; where it is another one, it is
not the fingerprint of the record read. -/
structure Caught (line line' : Entries) (r : RuntimeWALRecord) : Prop where
  hash_ne : textOr line' "integrity_hash" "" ≠ ""
  payload : isProjected (mappingOf line' "payload") = true
  metadata : isProjected (mappingOf line' "metadata") = true
  same_hash : textOr line' "integrity_hash" "" = textOr line "integrity_hash" "" →
    (Val.dict r.toDict).canonical sealKey ≠ (Val.dict line).canonical sealKey
  other_hash : textOr line' "integrity_hash" "" ≠ textOr line "integrity_hash" "" →
    textOr line' "integrity_hash" "" ≠ stableFingerprint H (.dict r.toDict)

/-- The values hashed for the line and for the record read have different hashes, unless they are
the same. -/
def NoCollision (line : Entries) (r : RuntimeWALRecord) : Prop :=
  stableFingerprint H (.dict r.toDict) = stableFingerprint H (.dict line) →
    (Val.dict r.toDict).canonical sealKey = (Val.dict line).canonical sealKey

variable {H} {accepted : List Call} {j : RuntimeJournal}

theorem verifyIntegrity_verified_iff (j : RuntimeJournal) :
    (j.verifyIntegrity H).verified = true ↔ ∀ r ∈ j.records, (r.verify H).verified = true := by
  constructor
  · intro h r hr
    by_contra hbad
    have hmem : r ∈ j.records.filter fun r => !(r.verify H).verified :=
      List.mem_filter.mpr ⟨hr, by simpa using hbad⟩
    unfold RuntimeJournal.verifyIntegrity at h
    dsimp only at h
    split at h
    · rename_i hempty
      rw [List.isEmpty_iff, List.map_eq_nil_iff] at hempty
      rw [hempty] at hmem
      exact absurd hmem List.not_mem_nil
    · cases h
  · intro h
    rw [verifyIntegrity_of_verified h]

variable {truncate : String → Except Err ℤ} {line : Entries} {r : RuntimeWALRecord}

variable {now : String}

/-- A record is read with the hash of its line, or with its own fingerprint for want of one. -/
theorem fromDict_hash (h : fromDict H truncate now line = .ok r) :
    r.integrityHash = orDefault (storedHash line) (stableFingerprint H (.dict r.content)) := by
  unfold fromDict at h
  obtain ⟨sequence, -, h⟩ := bind_eq_ok.mp h
  unfold walRecord at h
  dsimp only at h
  split at h
  · cases h
  · obtain rfl := Except.ok.inj h
    rfl

theorem fingerprint_toDict (r : RuntimeWALRecord) :
    stableFingerprint H (.dict r.toDict) = stableFingerprint H (.dict r.content) := by
  unfold stableFingerprint
  rw [canonical_toDict]

/-- What was read is not verified when it kept a hash that is not its fingerprint. -/
theorem not_verified_iff (h : fromDict H truncate now line = .ok r) :
    ¬(r.verify H).verified = true ↔
      storedHash line ≠ "" ∧ storedHash line ≠ stableFingerprint H (.dict r.toDict) := by
  rw [verified_iff, fromDict_hash h, fingerprint_toDict]
  unfold orDefault
  split
  · rename_i hempty
    exact ⟨fun hne => absurd rfl hne, fun hne => absurd hempty hne.1⟩
  · rename_i hne
    exact ⟨fun hdiff => ⟨hne, hdiff⟩, And.right⟩

theorem storedHash_ne_iff {text : String} :
    storedHash line ≠ "" ∧ storedHash line ≠ text ↔
      textOr line "integrity_hash" "" ≠ "" ∧ isProjected (mappingOf line "payload") = true ∧
        isProjected (mappingOf line "metadata") = true ∧
          textOr line "integrity_hash" "" ≠ text := by
  unfold storedHash
  cases isProjected (mappingOf line "payload") <;> cases isProjected (mappingOf line "metadata") <;>
    simp

/-- A readable line among lines that are read and verified decides the verification. -/
theorem detected_iff {before after : List Line} {rs rs' : List RuntimeWALRecord}
    (hbefore : RuntimeJournal.readLines H truncate now before = .ok rs)
    (hafter : RuntimeJournal.readLines H truncate now after = .ok rs')
    (hverified : ∀ r ∈ rs ++ rs', (r.verify H).verified = true)
    (hline : fromDict H truncate now line = .ok r) :
    Detected H truncate now (before ++ .whole (.dict line) :: after) ↔
      ¬(r.verify H).verified = true := by
  have hread : RuntimeJournal.readLines H truncate now (before ++ .whole (.dict line) :: after) =
      .ok (rs ++ r :: rs') := by
    rw [readLines_append hbefore, RuntimeJournal.readLines, hline, hafter]
    rfl
  have hmem : ∀ r', r' ∈ bySequence (rs ++ r :: rs') ↔ r' = r ∨ r' ∈ rs ++ rs' := by
    intro r'
    unfold bySequence
    rw [List.mem_insertionSort, List.mem_append, List.mem_cons, List.mem_append]
    tauto
  have hsame : ∀ sequence file,
      (({ records := bySequence (rs ++ r :: rs'), sequence, file } : RuntimeJournal).verifyIntegrity
        H).verified = true ↔ (r.verify H).verified = true := by
    intro sequence file
    rw [verifyIntegrity_verified_iff]
    constructor
    · exact fun h => h r ((hmem r).mpr (.inl rfl))
    · intro h r' hr'
      rcases (hmem r').mp hr' with rfl | hr'
      · exact h
      · exact hverified r' hr'
  unfold Detected RuntimeJournal.restoreFromJournal
  rw [hread]
  constructor
  · rintro ⟨j', hj', hbad⟩
    cases hj'
    intro hr
    rw [(hsame _ _).mpr hr] at hbad
    cases hbad
  · intro hr
    refine ⟨_, rfl, ?_⟩
    rw [Bool.eq_false_iff]
    exact fun h => hr ((hsame _ _).mp h)

theorem split_logged (h : Logged H accepted j) {before after : List Line}
    (hfile : j.file = before ++ .whole (.dict line) :: after) (truncate : String → Except Err ℤ)
    (now : String) :
    ∃ (r : RuntimeWALRecord) (rs rs' : List RuntimeWALRecord), line = r.toDict ∧
      r.integrityHash = stableFingerprint H (.dict r.toDict) ∧ r.integrityHash ≠ "" ∧
      RuntimeJournal.readLines H truncate now before = .ok rs ∧
      RuntimeJournal.readLines H truncate now after = .ok rs' ∧
      ∀ r ∈ rs ++ rs', (r.verify H).verified = true := by
  have hcalls := call_of_record h.records
  rw [h.file] at hfile
  obtain ⟨rs, rest, hrecords, hbefore, hrest⟩ := List.map_eq_append_iff.mp hfile
  obtain ⟨r, rs', hcons, hr, hafter⟩ := List.map_eq_cons_iff.mp hrest
  rw [hcons] at hrecords
  rw [hrecords] at hcalls
  have hcalls₁ : ∀ r ∈ rs, ∃ c, SealedFor H c r := fun r hr =>
    hcalls r (List.mem_append_left _ hr)
  have hcalls₂ : ∀ r ∈ rs', ∃ c, SealedFor H c r := fun r hr =>
    hcalls r (List.mem_append_right _ (List.mem_cons_of_mem _ hr))
  obtain ⟨c, hc⟩ := hcalls r (List.mem_append_right _ List.mem_cons_self)
  cases hr
  refine ⟨r, rs.map RuntimeWALRecord.restored, rs'.map RuntimeWALRecord.restored, rfl, ?_,
    integrityHash_ne hc, ?_, ?_, ?_⟩
  · rw [fingerprint_toDict]
    exact hc.hash_eq
  · rw [← hbefore]
    exact readLines_sealed hcalls₁ truncate now
  · rw [← hafter]
    exact readLines_sealed hcalls₂ truncate now
  · rw [← List.map_append]
    intro r' hr'
    obtain ⟨r'', hr'', rfl⟩ := List.mem_map.mp hr'
    have hsealed : ∃ c, SealedFor H c r'' :=
      (List.mem_append.mp hr'').elim (hcalls₁ r'') (hcalls₂ r'')
    obtain ⟨c', hc'⟩ := hsealed
    rw [verify_restored hc']
    exact verified_of_sealed hc'

theorem caught_iff (h : Logged H accepted j) {before after : List Line} {line' : Entries}
    (hfile : j.file = before ++ .whole (.dict line) :: after)
    (hline : fromDict H truncate now line' = .ok r) (hcollision : NoCollision H line r) :
    Detected H truncate now (before ++ .whole (.dict line') :: after) ↔ Caught H line line' r := by
  obtain ⟨r₀, rs, rs', rfl, hr₀, hne, hbefore, hafter, hverified⟩ :=
    split_logged h hfile truncate now
  have hwas : textOr r₀.toDict "integrity_hash" "" = stableFingerprint H (.dict r₀.toDict) := by
    rw [← hr₀]
    exact toText_textOr rfl hne
  rw [detected_iff hbefore hafter hverified hline, not_verified_iff hline, storedHash_ne_iff]
  constructor
  · rintro ⟨hhash, hpayload, hmetadata, hdiff⟩
    refine ⟨hhash, hpayload, hmetadata, fun hsame heq => hdiff ?_, fun _ => hdiff⟩
    rw [hsame, hwas]
    unfold stableFingerprint
    rw [heq]
  · intro hc
    refine ⟨hc.hash_ne, hc.payload, hc.metadata, fun heq => ?_⟩
    by_cases hsame : textOr line' "integrity_hash" "" = textOr r₀.toDict "integrity_hash" ""
    · exact hc.same_hash hsame (hcollision (by rw [← heq, hsame, hwas]))
    · exact hc.other_hash hsame heq

end Digest

/-- A crash during an append leaves the earlier records exactly when nothing of the new line is in
the file and the earlier records settle. A changed line that is still read as a record is noticed
exactly when it is caught. -/
theorem survives_and_detects_iff (H : WalDigest) (truncate : String → Except Err ℤ) (now : String)
    (calls : List (Call × Timestamp)) :
    (∀ c kept, Survives H truncate now (written H calls) c kept ↔
      (c.1.Accepted → kept = .nothing) ∧ ∀ c' ∈ calls, c'.1.Accepted → c'.1.Settled) ∧
    ∀ before line after line' r, (written H calls).file = before ++ .whole (.dict line) :: after →
      Altered line line' → fromDict H truncate now line' = .ok r → NoCollision H line r →
        (Detected H truncate now (before ++ .whole (.dict line') :: after) ↔
          Caught H line line' r) := by
  have hlogged := logged_written H calls
  refine ⟨fun c kept => ?_, fun before line after line' r hfile _ hline hcollision =>
    caught_iff hlogged hfile hline hcollision⟩
  rw [survives_logged hlogged]
  refine and_congr_right fun _ => ⟨fun h c' hc' haccepted => ?_, fun h c' hc' => ?_⟩
  · exact h c'.1 (mem_acceptedCalls.mpr ⟨⟨c'.2, hc'⟩, haccepted⟩)
  · obtain ⟨⟨t, ht⟩, haccepted⟩ := mem_acceptedCalls.mp hc'
    exact h (c', t) ht haccepted

/-! ## A journal of one record -/

def noteCall : Call × Timestamp :=
  (.append ⟨.str "note", .str _⟩ ⟨.none, .none⟩ ⟨.none, .none⟩, ⟨"now", by decide⟩)

/-- The record of the call, with another time and another hash. -/
def noteRecord (timestamp integrityHash : String) : RuntimeWALRecord where
  sequence := 1
  recordType := "note"
  payload := []
  metadata := []
  timestamp := timestamp
  recordId := recordIdOf sampleDigest 1 "note" [] []
  runtimeVersion := runtimeKernelVersion
  abiVersion := runtimeAbiVersion
  integrityHash := integrityHash

def noteHash : String := stableFingerprint sampleDigest (.dict (noteRecord "now" "").content)

def noInteger : String → Except Err ℤ := fun _ => .error .typeError

theorem written_note :
    (written sampleDigest [noteCall]).file =
      [] ++ .whole (.dict (noteRecord "now" noteHash).toDict) :: [] := by
  rfl

theorem read_note :
    fromDict sampleDigest noInteger "then" (noteRecord "later" noteHash).toDict =
      .ok (noteRecord "later" noteHash) := by
  rfl

theorem survives_and_detects_iff_sample :
    Detected sampleDigest noInteger "then"
        ([] ++ .whole (.dict (noteRecord "later" noteHash).toDict) :: []) ↔
      Caught sampleDigest (noteRecord "now" noteHash).toDict (noteRecord "later" noteHash).toDict
        (noteRecord "later" noteHash) :=
  (survives_and_detects_iff sampleDigest noInteger "then" [noteCall]).2 _ _ _ _ _ written_note
    ⟨"timestamp", by decide, rfl⟩ read_note fun heq => absurd heq (by decide +kernel)

def laterHash : String := stableFingerprint sampleDigest (.dict (noteRecord "later" "").content)

/-- A torn line hides the earlier record, and a line that lost its hash may say anything. -/
theorem torn_line_hides_and_unhashed_line_passes :
    ¬Survives sampleDigest noInteger "then" (written sampleDigest [noteCall]) noteCall .part ∧
    ∃ line line' r, (written sampleDigest [noteCall]).file = [.whole (.dict line)] ∧
      Altered line line' ∧ fromDict sampleDigest noInteger "then" line' = .ok r ∧
        NoCollision sampleDigest line r ∧
          ¬Detected sampleDigest noInteger "then" [.whole (.dict line')] := by
  constructor
  · rw [survives_logged (logged_written _ _)]
    exact fun h => absurd (h.1 (by decide +kernel)) (by decide)
  · have hread : fromDict sampleDigest noInteger "then" (noteRecord "later" "").toDict =
        .ok (noteRecord "later" laterHash) := by rfl
    have hcollision : NoCollision sampleDigest (noteRecord "now" noteHash).toDict
        (noteRecord "later" laterHash) := fun heq => absurd heq (by decide +kernel)
    refine ⟨_, _, _, written_note, ⟨"timestamp", by decide, rfl⟩, hread, hcollision, ?_⟩
    intro hdetected
    have hcaught := (caught_iff (logged_written sampleDigest [noteCall]) written_note hread
      hcollision).mp hdetected
    exact hcaught.hash_ne rfl

end Journal
end ZeroRuntime
