import ZeroRuntime.Evidence.Chain

/-!
# ZeroRuntime.Evidence.Tamper

What a validated list of evidence records has to do with the chain that was built.

* `validation_ok`: what the validation asks of a list, record by record.
* `tamper_evident_iff`: a list that ends in the id a built chain ends in is that chain, in every
  hashed field, exactly when each of its ids is the one that goes with its hash. The validation does
  not ask for that.
* `forged_chain_accepted`: a record with another intent under the id of the first.
-/

namespace ZeroRuntime
namespace Evidence

open Lib

/-! ## Texts without blanks -/

theorem stripChars_of_clean {cs : List Char} (h : ∀ c ∈ cs, Text.isSpace c = false) :
    Text.stripChars cs = cs := by
  have hdrop : ∀ ds : List Char, (∀ c ∈ ds, Text.isSpace c = false) →
      ds.dropWhile Text.isSpace = ds := by
    intro ds hds
    cases ds with
    | nil => rfl
    | cons d ds => simp [hds d (by simp)]
  unfold Text.stripChars
  rw [hdrop cs h, hdrop cs.reverse fun c hc => h c (List.mem_reverse.mp hc), List.reverse_reverse]

theorem text_of_clean {s : String} (h : ∀ c ∈ s.toList, Text.isSpace c = false) :
    (Val.str s).text = s := by
  have hstrip : Text.strip s = s := by
    unfold Text.strip
    rw [stripChars_of_clean h, String.ofList_toList]
  unfold Val.text
  split
  · exact hstrip
  · rename_i hs
    simp only [Val.truthy, decide_eq_true_eq, not_not] at hs
    exact hs.symm

theorem evidenceIdOf_clean (H : EvidenceDigest) (v : Val) :
    ∀ c ∈ (evidenceIdOf (H.sha v)).toList, Text.isSpace c = false := by
  intro c hc
  unfold evidenceIdOf Text.take at hc
  rw [String.toList_append, List.mem_append] at hc
  rcases hc with hc | hc
  · have hprefix : "runtime-evidence-".toList.any Text.isSpace = false := by decide
    simpa using List.any_eq_false.mp hprefix c hc
  · rw [String.toList_ofList] at hc
    exact H.hex v c (List.mem_of_mem_take hc)

theorem evidenceIdOf_ne (h : String) : evidenceIdOf h ≠ "" := by
  intro heq
  have hlen := congrArg (fun s => s.toList.length) heq
  have hprefix : "runtime-evidence-".toList.length = 17 := by decide
  simp only [evidenceIdOf, String.toList_append, List.length_append, hprefix] at hlen
  simp at hlen

/-! ## Built records -/

section Built

variable (H : EvidenceDigest)

def Built (r : Entries) : Prop := ∃ a now, r = buildRuntimeEvidenceRecord H a now

/-- Records that were built, each linked to the id of the one before it. -/
structure BuiltChain (rs : List Entries) : Prop where
  built : ∀ r ∈ rs, Built H r
  linked : Linked (fun r => textOf r "previous_evidence_id") (fun r => textOf r "evidence_id") "" rs

variable {H}

theorem evidenceHashPayload_record (a : EvidenceFields) (now id hash signature : String) :
    evidenceHashPayload (evidenceRecord a now id hash signature) =
      evidenceHashPayload (evidenceRecord a now "" "" "") := rfl

theorem Built.id {r : Entries} (h : Built H r) :
    textOf r "evidence_id" = evidenceIdOf (computeRuntimeEvidenceHash H r) := by
  obtain ⟨a, now, rfl⟩ := h
  have hhash : computeRuntimeEvidenceHash H (buildRuntimeEvidenceRecord H a now) =
      computeRuntimeEvidenceHash H (evidenceRecord a now "" "" "") :=
    congrArg H.sha (evidenceHashPayload_record a now _ _ _)
  rw [hhash]
  exact text_of_clean (evidenceIdOf_clean H _)

end Built

/-! ## Accepted lists -/

section Accepted

variable {H : EvidenceDigest} {records : List Entries} {transactionId : String}
  {replay sealEvidence : Entries}

/-- What an accepted record shows. -/
structure Sound (H : EvidenceDigest) (transactionId : String) (r : Entries) : Prop where
  fields : ∀ f ∈ evidenceRequiredFields, Val.hasKey f r = true
  hash : textOf r "evidence_hash" = computeRuntimeEvidenceHash H r
  signature : textOf r "evidence_signature" = computeRuntimeEvidenceSignature H r
  transaction : transactionId = "" ∨ textOf r "transaction_id" = Text.strip transactionId

theorem validateRecord_ok {r : Entries} (h : (validateRuntimeEvidenceRecord H r).ok = true) :
    (∀ f ∈ evidenceRequiredFields, Val.hasKey f r = true) ∧
      textOf r "evidence_hash" = computeRuntimeEvidenceHash H r ∧
      textOf r "evidence_signature" = computeRuntimeEvidenceSignature H r := by
  simp only [RecordValidation.ok, Bool.and_eq_true, List.isEmpty_iff] at h
  obtain ⟨hmissing, hinvalid⟩ := h
  have hfields : ∀ f ∈ evidenceRequiredFields, Val.hasKey f r = true := by
    intro f hf
    by_contra hkey
    have hmem : f ∈ (validateRuntimeEvidenceRecord H r).missingFields :=
      List.mem_filter.mpr ⟨hf, by simpa using hkey⟩
    rw [hmissing] at hmem
    cases hmem
  have hne : r.isEmpty = false := by
    cases r with
    | nil =>
      have := hfields "evidence_id" (by decide)
      cases this
    | cons e es => rfl
  simp only [validateRuntimeEvidenceRecord, hne, Bool.false_eq_true, if_false,
    List.append_eq_nil_iff] at hinvalid
  refine ⟨hfields, ?_, ?_⟩
  · by_contra hhash
    rw [if_neg hhash] at hinvalid
    cases hinvalid.1
  · by_contra hsig
    rw [if_neg hsig] at hinvalid
    cases hinvalid.2

theorem recordIssues_nil {i : ℕ} {previous : String} {r : Entries}
    (h : recordIssues H transactionId i previous r = []) :
    Sound H transactionId r ∧ textOf r "previous_evidence_id" = previous := by
  simp only [recordIssues, List.append_eq_nil_iff] at h
  obtain ⟨⟨hvalid, htransaction⟩, hlink⟩ := h
  have hok : (validateRuntimeEvidenceRecord H r).ok = true := by
    by_contra hno
    rw [if_neg hno] at hvalid
    cases hvalid
  obtain ⟨hfields, hhash, hsig⟩ := validateRecord_ok hok
  constructor
  · refine ⟨hfields, hhash, hsig, ?_⟩
    by_contra hno
    rw [not_or] at hno
    rw [if_pos hno] at htransaction
    cases htransaction
  · by_contra hno
    rw [if_neg hno] at hlink
    cases hlink

theorem chainIssues_nil {i : ℕ} {previous : String}
    (h : chainIssues H transactionId i previous records = []) :
    (∀ r ∈ records, Sound H transactionId r) ∧
      Linked (fun r => textOf r "previous_evidence_id") (fun r => textOf r "evidence_id") previous
        records := by
  induction records generalizing i previous with
  | nil => exact ⟨by simp, trivial⟩
  | cons r rs ih =>
    simp only [chainIssues, List.append_eq_nil_iff] at h
    obtain ⟨hr, hlink⟩ := recordIssues_nil h.1
    obtain ⟨hrs, hlinks⟩ := ih h.2
    refine ⟨?_, hlink, hlinks⟩
    intro r' hr'
    rcases List.mem_cons.mp hr' with rfl | hr'
    · exact hr
    · exact hrs r' hr'

/-- What the validation asks of a list. -/
theorem validation_ok
    (h : (validateRuntimeEvidenceChain H records transactionId replay sealEvidence).ok = true) :
    records ≠ [] ∧ (∀ r ∈ records, Sound H transactionId r) ∧
      Linked (fun r => textOf r "previous_evidence_id") (fun r => textOf r "evidence_id") ""
        records ∧
      replayEvidenceState records replay ≠ .mismatch ∧
      sealEvidenceValid records sealEvidence = true := by
  simp only [ChainValidation.ok, validateRuntimeEvidenceChain, List.isEmpty_iff,
    List.append_eq_nil_iff] at h
  obtain ⟨⟨⟨hempty, hchain⟩, hreplay⟩, hseal⟩ := h
  obtain ⟨hsound, hlinked⟩ := chainIssues_nil hchain
  refine ⟨?_, hsound, hlinked, ?_, ?_⟩
  · rintro rfl
    cases hempty
  · intro hmismatch
    rw [if_pos hmismatch] at hreplay
    cases hreplay
  · by_contra hno
    rw [if_neg hno] at hseal
    cases hseal

/-- An accepted list ends in the id that its seal or its replay names. -/
theorem latest_of_named {id : String} (hid : id ≠ "")
    (h : (validateRuntimeEvidenceChain H records transactionId replay sealEvidence).ok = true)
    (hnamed : namedEvidenceId sealEvidence = id ∨ namedEvidenceId replay = id) :
    latestEvidenceId records = id := by
  obtain ⟨hne, -, -, hreplay, hseal⟩ := validation_ok h
  have hempty : records.isEmpty = false := by
    cases records with
    | nil => exact absurd rfl hne
    | cons r rs => rfl
  have hlatest : ∀ e : Entries, namesLatest records e = true → namedEvidenceId e = id →
      latestEvidenceId records = id := by
    intro e he hnamed
    simp only [namesLatest, hempty, Bool.or_false, Bool.or_eq_true, decide_eq_true_eq] at he
    rcases he with he | he
    · exact absurd (hnamed.symm.trans he) hid
    · exact he.symm.trans hnamed
  have hsome : ∀ e : Entries, namedEvidenceId e = id → e.isEmpty = false := by
    intro e he
    cases e with
    | nil => exact absurd he.symm hid
    | cons x xs => rfl
  rcases hnamed with hnamed | hnamed
  · refine hlatest sealEvidence ?_ hnamed
    rw [sealEvidenceValid, hsome _ hnamed, Bool.false_or, Bool.and_eq_true] at hseal
    exact hseal.1
  · refine hlatest replay ?_ hnamed
    by_contra hno
    refine hreplay ?_
    unfold replayEvidenceState
    rw [hsome _ hnamed]
    simp [hno]

end Accepted

/-! ## Agreement -/

/-- The same number of records, and record by record the same hashed fields. -/
def Agree (chain records : List Entries) : Prop :=
  chain.length = records.length ∧ ∀ i (h : i < chain.length) (h' : i < records.length),
    ∀ f ∈ hashedFields, hashedValue chain[i] f = hashedValue records[i] f

theorem agree_iff {chain records : List Entries} : Agree chain records ↔
    chain.map evidenceHashPayload = records.map evidenceHashPayload := by
  have hpayload : ∀ r r' : Entries, evidenceHashPayload r = evidenceHashPayload r' ↔
      ∀ f ∈ hashedFields, hashedValue r f = hashedValue r' f := by
    intro r r'
    unfold evidenceHashPayload
    rw [Val.dict.injEq, List.map_inj_left]
    simp
  constructor
  · rintro ⟨hlen, hfields⟩
    refine List.ext_getElem (by simpa using hlen) ?_
    intro i hi hi'
    rw [List.getElem_map, List.getElem_map]
    exact (hpayload _ _).mpr (hfields i (by simpa using hi) (by simpa using hi'))
  · intro hmap
    refine ⟨by simpa using congrArg List.length hmap, ?_⟩
    intro i hi hi'
    refine (hpayload _ _).mp ?_
    have h := congrArg (fun l => l[i]?) hmap
    simpa [hi, hi'] using h

/-- The id of the record is the one that goes with its hash. -/
def IdTied (r : Entries) : Prop :=
  textOf r "evidence_id" = evidenceIdOf (textOf r "evidence_hash")

theorem previous_of_payload {r r' : Entries}
    (h : evidenceHashPayload r = evidenceHashPayload r') :
    textOf r "previous_evidence_id" = textOf r' "previous_evidence_id" := by
  unfold evidenceHashPayload at h
  rw [Val.dict.injEq, List.map_inj_left] at h
  have hfield := h "previous_evidence_id" (by decide)
  simpa [hashedValue, hashedTextFields] using hfield

/-- No two of the records have hashes that begin alike, unless they are hashed over the same. -/
def NoCollision (H : EvidenceDigest) (chain records : List Entries) : Prop :=
  ∀ r ∈ chain, ∀ r' ∈ records,
    evidenceIdOf (computeRuntimeEvidenceHash H r) = evidenceIdOf (computeRuntimeEvidenceHash H r') →
      evidenceHashPayload r = evidenceHashPayload r'

theorem latest_ne {H : EvidenceDigest} {chain : List Entries} (h : BuiltChain H chain)
    (hne : chain ≠ []) : latestEvidenceId chain ≠ "" := by
  obtain ⟨rs, r, rfl⟩ := List.eq_nil_or_concat chain |>.resolve_left hne
  unfold latestEvidenceId
  rw [List.concat_eq_append, lastId_append, (h.built r (by simp)).id]
  exact evidenceIdOf_ne _

/-- A list that is accepted with a seal or a replay that names the last id of a built chain agrees
with the chain exactly when each of its ids goes with its hash. -/
theorem tamper_evident_iff (H : EvidenceDigest) (chain records : List Entries)
    (transactionId : String) (replay sealEvidence : Entries) (hchain : BuiltChain H chain)
    (hne : chain ≠ []) (hcollision : NoCollision H chain records)
    (hok : (validateRuntimeEvidenceChain H records transactionId replay sealEvidence).ok = true)
    (hnamed : namedEvidenceId sealEvidence = latestEvidenceId chain ∨
      namedEvidenceId replay = latestEvidenceId chain) :
    Agree chain records ↔ ∀ r ∈ records, IdTied r := by
  obtain ⟨-, hsound, hlinked, -, -⟩ := validation_ok hok
  have hlast : latestEvidenceId chain = latestEvidenceId records :=
    (latest_of_named (latest_ne hchain hne) hok hnamed).symm
  rw [agree_iff]
  constructor
  · intro hmap r' hr'
    have hids := Linked.ids_eq (fun r r' => previous_of_payload) hchain.linked hlinked hmap hlast
    obtain ⟨i, hi, rfl⟩ := List.getElem_of_mem hr'
    have hlen : chain.length = records.length := by simpa using congrArg List.length hmap
    have hi' : i < chain.length := by omega
    have hid : textOf chain[i] "evidence_id" = textOf records[i] "evidence_id" := by
      have h := congrArg (fun l => l[i]?) hids
      simpa [hi, hi'] using h
    have hpayload : evidenceHashPayload chain[i] = evidenceHashPayload records[i] := by
      have h := congrArg (fun l => l[i]?) hmap
      simpa [hi, hi'] using h
    unfold IdTied
    rw [← hid, (hchain.built _ (List.getElem_mem hi')).id, (hsound _ (List.getElem_mem hi)).hash]
    unfold computeRuntimeEvidenceHash
    rw [hpayload]
  · intro htied
    have hid : ∀ r ∈ chain, ∀ r' ∈ records, textOf r "evidence_id" = textOf r' "evidence_id" →
        evidenceHashPayload r = evidenceHashPayload r' := by
      intro r hr r' hr' heq
      refine hcollision r hr r' hr' ?_
      rw [← (hchain.built r hr).id, heq, htied r' hr', (hsound r' hr').hash]
    refine Linked.agree hid (fun r r' => previous_of_payload) ?_ ?_ hchain.linked hlinked hlast
    · intro r hr
      rw [(hchain.built r hr).id]
      exact evidenceIdOf_ne _
    · intro r hr
      rw [htied r hr]
      exact evidenceIdOf_ne _

/-! ## A forged record -/

/-- Hashes that tell two intents apart. -/
def sampleEvidenceDigest : EvidenceDigest where
  sha v := if (Val.getIn "execution_intent" v.entries).toText = "deploy" then "aaaaaaaaaaaaaaaa"
    else "bbbbbbbbbbbbbbbb"
  hex v c hc := by
    have ha : "aaaaaaaaaaaaaaaa".toList.any Text.isSpace = false := by decide
    have hb : "bbbbbbbbbbbbbbbb".toList.any Text.isSpace = false := by decide
    split at hc
    · simpa using List.any_eq_false.mp ha c hc
    · simpa using List.any_eq_false.mp hb c hc

def sampleEvidence (intent : String) : EvidenceFields where
  transactionId := .str "t1"
  executionIntent := .str intent
  boundaryState := .str "boundary_ready"

def sampleRecord (intent : String) : Entries :=
  buildRuntimeEvidenceRecord sampleEvidenceDigest (sampleEvidence intent) "2026-01-01T00:00:00"

def sampleSeal : Entries :=
  [("latest_evidence_id", .str "runtime-evidence-aaaaaaaaaaaaaaaa"), ("sealed", .bool true)]

theorem sampleChain : BuiltChain sampleEvidenceDigest [sampleRecord "deploy"] := by
  refine ⟨?_, ?_, trivial⟩
  · intro r hr
    cases List.mem_singleton.mp hr
    exact ⟨_, _, rfl⟩
  · decide

theorem tamper_evident_iff_sample :
    Agree [sampleRecord "deploy"] [sampleRecord "deploy"] ↔
      ∀ r ∈ [sampleRecord "deploy"], IdTied r := by
  refine tamper_evident_iff sampleEvidenceDigest _ _ "t1" [] sampleSeal sampleChain (by simp) ?_
    (by decide +kernel) (.inl (by decide +kernel))
  intro r hr r' hr' _
  cases List.mem_singleton.mp hr
  cases List.mem_singleton.mp hr'
  rfl

/-- The record of another intent, under the id of the first. -/
def forgedRecord : Entries :=
  evidenceRecord (sampleEvidence "destroy") "2026-01-01T00:00:00"
    "runtime-evidence-aaaaaaaaaaaaaaaa" "bbbbbbbbbbbbbbbb"
    "runtime-evidence-signature-bbbbbbbbbbbbbbbb"

/-- The validation accepts it in place of the chain whose last id the seal names. -/
theorem forged_chain_accepted :
    (validateRuntimeEvidenceChain sampleEvidenceDigest [forgedRecord] "t1" [] sampleSeal).ok =
        true ∧
      latestEvidenceId [sampleRecord "deploy"] = namedEvidenceId sampleSeal ∧
      NoCollision sampleEvidenceDigest [sampleRecord "deploy"] [forgedRecord] ∧
      ¬ Agree [sampleRecord "deploy"] [forgedRecord] := by
  refine ⟨by decide +kernel, by decide +kernel, ?_, ?_⟩
  · intro r hr r' hr' heq
    cases List.mem_singleton.mp hr
    cases List.mem_singleton.mp hr'
    refine absurd heq ?_
    decide +kernel
  · rintro ⟨-, hfields⟩
    have hintent := hfields 0 (by decide) (by decide) "execution_intent" (by decide)
    have hne : ("deploy" : String) ≠ "destroy" := by decide
    refine hne ?_
    have htext : ∀ r : Entries, hashedValue r "execution_intent" =
        .str (textOf r "execution_intent") := by
      intro r
      rfl
    rw [htext, htext, Val.str.injEq] at hintent
    revert hintent
    decide +kernel

end Evidence
end ZeroRuntime
