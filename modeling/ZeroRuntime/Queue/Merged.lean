import ZeroRuntime.Journal.Projection
import ZeroRuntime.Lib.Dedup
import ZeroRuntime.Lib.Merge
import ZeroRuntime.Lib.Settle
import ZeroRuntime.Queue.Contract

/-!
# ZeroRuntime.Queue.Merged

`merge_queue_lineage` with any number of sources: which fields it keeps, which it fills, and that it
does nothing the second time.

* A record is merged under its own fields, and read with those nested in it: `Merged` says what
  reading the merged record gives.
* `standing` is the value under the flat field after the merge, and `Settled` what makes merging a
  field again do nothing.
* `Compatible` is what a target and its sources must meet: no value that would pass for the standing
  one differs from what the target says.
-/

namespace ZeroRuntime
namespace Queue

open Lib Goals

def mergeEach (preserveExistingEvidence : Bool) (acc : Entries × List LineageConflict)
    (e : String × Val) : Except Err (Entries × List LineageConflict) :=
  mergeField preserveExistingEvidence acc e.1 e.2

def mergeSource (preserveExistingEvidence : Bool) (acc : Entries × List LineageConflict)
    (source : Val) : Except Err (Entries × List LineageConflict) := do
  let incoming ← extractQueueLineage source
  incoming.foldlM (mergeEach preserveExistingEvidence) acc

/-- `merge_queue_lineage` -/
def mergeQueueLineages (target : Entries) (sources : List Val) (preserveExistingEvidence : Bool) :
    Except Err (Entries × List LineageConflict) :=
  sources.foldlM (mergeSource preserveExistingEvidence) (target, [])

/-- The value a record has for a field; `none` if it has none. -/
def lineageValue (field : String) (record : Val) : Val :=
  match extractQueueLineage record with
  | .ok lineage => Val.getIn field lineage
  | .error _ => .none

def incomingValues (field : String) (sources : List Val) : List Val :=
  (sources.map (lineageValue field)).filter present

/-- The value under the field itself once all sources are merged. -/
def standing (field : String) (target : Entries) (incoming : List Val) : Val :=
  let existing := Val.getIn field target
  if present existing then existing else incoming.headD existing

/-! ## The law -/

/-- What the target says about a field still holds, and what differs from it is reported. -/
def FieldKept (sources : List Val) (conflicts : List LineageConflict) (value value' : Val)
    (field : String) : Prop :=
  value.eq value' = true ∧ ∀ e ∈ incomingValues field sources, value.eq e = false →
    ∃ c ∈ conflicts, c.field = field ∧ c.rejected = e

structure MergeLaw (preserveExistingEvidence : Bool) (target : Entries) (sources : List Val)
    (merged : Entries) (conflicts : List LineageConflict) (lineage lineage' : Entries) : Prop where
  kept : ∀ field ∈ queueLineageFields, field ≠ "evidence_refs" →
    Val.hasKey field lineage = true →
      FieldKept sources conflicts (Val.getIn field lineage) (Val.getIn field lineage') field
  filled : ∀ field ∈ queueLineageFields, field ≠ "evidence_refs" →
    Val.hasKey field lineage = false →
      ∀ e ∈ (incomingValues field sources).head?, Val.getIn field lineage' = e
  again : ∃ conflicts',
    mergeQueueLineages merged sources preserveExistingEvidence = .ok (merged, conflicts')
  evidence : preserveExistingEvidence = true → ∀ refs,
    Val.getIn "evidence_refs" target = .list refs → refs ≠ [] →
      Val.getIn "evidence_refs" merged = .list refs

def IdentityKept (preserveExistingEvidence : Bool) (target : Entries) (sources : List Val) : Prop :=
  ∀ lineage merged conflicts, extractQueueLineage (.dict target) = .ok lineage →
    mergeQueueLineages target sources preserveExistingEvidence = .ok (merged, conflicts) →
      ∃ lineage', extractQueueLineage (.dict merged) = .ok lineage' ∧
        MergeLaw preserveExistingEvidence target sources merged conflicts lineage lineage'

def Readable (record : Val) : Prop := ∃ lineage, extractQueueLineage record = .ok lineage

/-- Every incoming value that equals the standing one equals the one the target has. -/
def Compatible (target : Entries) (sources : List Val) : Prop :=
  Readable (.dict target) → (∀ s ∈ sources, Readable s) →
    ∀ field ∈ queueLineageFields, field ≠ "evidence_refs" →
      present (lineageValue field (.dict target)) = true →
        ∀ e ∈ incomingValues field sources,
          (standing field target (incomingValues field sources)).eq e = true →
            (lineageValue field (.dict target)).eq e = true

/-! ## What is read from a record -/

structure LawfulLineage (lineage : Entries) : Prop where
  nodup : (lineage.map Prod.fst).Nodup
  present : ∀ e ∈ lineage, present e.2 = true
  fields : ∀ e ∈ lineage, e.1 ∈ queueLineageFields

theorem lawful_nil : LawfulLineage [] :=
  ⟨List.nodup_nil, fun e he => (by cases he), fun e he => (by cases he)⟩

variable {lineage : Entries} {field : String}

theorem LawfulLineage.put (h : LawfulLineage lineage) {v : Val}
    (hfield : field ∈ queueLineageFields) (hv : Queue.present v = true) :
    LawfulLineage (Val.put field v lineage) := by
  refine ⟨Val.nodup_put h.nodup, fun e he => ?_, fun e he => ?_⟩
  · rcases Val.mem_put he with rfl | he
    · exact hv
    · exact h.present e he
  · rcases Val.mem_put he with rfl | he
    · exact hfield
    · exact h.fields e he

theorem LawfulLineage.putPresent (h : LawfulLineage lineage) (hfield : field ∈ queueLineageFields)
    (v : Val) : LawfulLineage (putPresent field v lineage) := by
  unfold Queue.putPresent
  split
  · rename_i hv
    exact h.put hfield hv
  · exact h

/-- The fields that nested records say before any field is read. -/
def namedLineage (payload : Entries) : Entries :=
  replanLineage payload (continuationLineage payload)

theorem lawful_named (payload : Entries) : LawfulLineage (namedLineage payload) := by
  have hcontinuation : LawfulLineage (continuationLineage payload) := by
    unfold continuationLineage
    split
    · exact (lawful_nil.putPresent (by decide) _).putPresent (by decide) _
    · exact lawful_nil
  unfold namedLineage replanLineage
  split
  · exact hcontinuation.putPresent (by decide) _
  · exact hcontinuation

theorem find_putPresent {k : String} (hne : k ≠ field) (v : Val) (lineage : Entries) :
    Val.find k (putPresent field v lineage) = Val.find k lineage := by
  unfold putPresent
  split
  · rw [Val.find_put, if_neg hne]
  · rfl

def namedFields : List String :=
  ["continuation_goal_id", "continuation_task_id", "replan_request_id"]

theorem find_named {k : String} (hk : k ∉ namedFields) (payload : Entries) :
    Val.find k (namedLineage payload) = none := by
  unfold namedFields at hk
  rw [List.mem_cons, List.mem_cons, List.mem_singleton, not_or, not_or] at hk
  obtain ⟨hgoal, htask, hrequest⟩ := hk
  have hcontinuation : Val.find k (continuationLineage payload) = none := by
    unfold continuationLineage
    split
    · rw [find_putPresent htask, find_putPresent hgoal]
      rfl
    · rfl
  unfold namedLineage replanLineage
  split
  · rw [find_putPresent hrequest, hcontinuation]
  · exact hcontinuation

theorem not_hasKey_named {k : String} (hk : k ∉ namedFields) (payload : Entries) :
    Val.hasKey k (namedLineage payload) = false := by
  unfold Val.hasKey
  rw [find_named hk]
  rfl

theorem firstPresent_present_or (srcs : List Entries) (field : String) :
    present (firstPresent srcs field) = true ∨ firstPresent srcs field = .none := by
  unfold firstPresent
  cases h : (srcs.map (Val.getIn field)).find? present with
  | none => exact Or.inr rfl
  | some v => exact Or.inl (List.find?_some h)

theorem getIn_of_not_hasKey (h : Val.hasKey field lineage = false) :
    Val.getIn field lineage = .none := by
  unfold Val.hasKey at h
  unfold Val.getIn
  cases hfind : Val.find field lineage with
  | none => rfl
  | some v =>
    rw [hfind] at h
    cases h

section Fields

variable {srcs : List Entries} {lineage lineage' : Entries} {field k : String}

theorem lawful_lineageField (hfield : field ∈ queueLineageFields)
    (h : lineageField srcs lineage field = .ok lineage') (hl : LawfulLineage lineage) :
    LawfulLineage lineage' := by
  unfold lineageField at h
  split at h
  · cases h
    exact hl
  · split at h
    · dsimp only at h
      split at h
      · cases h
        exact hl
      · rename_i hrefs
        split at h
        · cases h
          refine hl.put hfield ?_
          cases hcons : evidenceRefs srcs with
          | nil =>
            rw [hcons] at hrefs
            exact absurd rfl hrefs
          | cons x xs => rfl
        · cases h
    · cases h
      exact hl.putPresent hfield _

theorem find_lineageField (hne : k ≠ field) (h : lineageField srcs lineage field = .ok lineage') :
    Val.find k lineage' = Val.find k lineage := by
  unfold lineageField at h
  split at h
  · cases h
    rfl
  · split at h
    · dsimp only at h
      split at h
      · cases h
        rfl
      · split at h
        · cases h
          rw [Val.find_put, if_neg hne]
        · cases h
    · cases h
      exact find_putPresent hne _ _

/-- A field that is there already is left alone, any other one gets its first value. -/
theorem getIn_lineageField (hne : field ≠ "evidence_refs")
    (h : lineageField srcs lineage field = .ok lineage') :
    Val.getIn field lineage' =
      if Val.hasKey field lineage then Val.getIn field lineage else firstPresent srcs field := by
  unfold lineageField at h
  split at h
  · rename_i hkey
    cases h
    rw [if_pos hkey]
  · rename_i hkey
    cases h
    rw [if_neg hkey]
    unfold putPresent
    split
    · rw [Val.getIn_put, if_pos rfl]
    · rename_i hpresent
      rw [getIn_of_not_hasKey (Bool.eq_false_iff.mpr hkey)]
      exact ((firstPresent_present_or srcs field).resolve_left hpresent).symm

theorem getIn_foldlM (hne : k ≠ "evidence_refs") {fields : List String}
    (h : fields.foldlM (lineageField srcs) lineage = .ok lineage') :
    Val.getIn k lineage' =
      if k ∈ fields ∧ Val.hasKey k lineage = false then firstPresent srcs k
      else Val.getIn k lineage := by
  induction fields generalizing lineage with
  | nil =>
    cases h
    rw [if_neg fun hmem => by cases hmem.1]
  | cons field fields ih =>
    rw [List.foldlM_cons, bind_eq_ok] at h
    obtain ⟨next, hnext, h⟩ := h
    rw [ih h]
    by_cases hk : k = field
    · subst hk
      have hget := getIn_lineageField hne hnext
      by_cases hkey : Val.hasKey k lineage = true
      · -- it was there before, so it is there still
        have hsame : next = lineage := by
          unfold lineageField at hnext
          rw [if_pos hkey] at hnext
          exact (Except.ok.inj hnext).symm
        rw [hsame]
        simp [hkey]
      · rw [if_neg hkey] at hget
        rw [hget, ite_self, if_pos ⟨List.mem_cons_self, Bool.eq_false_iff.mpr hkey⟩]
    · have hfind := find_lineageField hk hnext
      have hkeys : Val.hasKey k next = Val.hasKey k lineage := congrArg Option.isSome hfind
      have hgets : Val.getIn k next = Val.getIn k lineage :=
        congrArg (fun o => Option.getD o Val.none) hfind
      rw [hkeys, hgets]
      simp [hk]

theorem lineageField_ok
    (h : field = "evidence_refs" → (evidenceRefs srcs).all Val.hashable = true) :
    ∃ lineage', lineageField srcs lineage field = .ok lineage' := by
  unfold lineageField
  split
  · exact ⟨_, rfl⟩
  · split
    · rename_i hrefs
      dsimp only
      rw [h hrefs, if_pos rfl]
      split <;> exact ⟨_, rfl⟩
    · exact ⟨_, rfl⟩

theorem hashable_of_lineageField (hkey : Val.hasKey "evidence_refs" lineage = false)
    (h : lineageField srcs lineage "evidence_refs" = .ok lineage') :
    (evidenceRefs srcs).all Val.hashable = true := by
  unfold lineageField at h
  rw [hkey, if_neg Bool.false_ne_true, if_pos rfl] at h
  dsimp only at h
  split at h
  · rename_i hnil
    rw [List.isEmpty_iff.mp hnil]
    rfl
  · split at h
    · assumption
    · cases h

theorem hashable_of_foldlM {fields : List String} (hmem : "evidence_refs" ∈ fields)
    (hkey : Val.hasKey "evidence_refs" lineage = false)
    (h : fields.foldlM (lineageField srcs) lineage = .ok lineage') :
    (evidenceRefs srcs).all Val.hashable = true := by
  induction fields generalizing lineage with
  | nil => cases hmem
  | cons field fields ih =>
    rw [List.foldlM_cons, bind_eq_ok] at h
    obtain ⟨next, hnext, h⟩ := h
    by_cases hrefs : "evidence_refs" = field
    · subst hrefs
      exact hashable_of_lineageField hkey hnext
    · refine ih ((List.mem_cons.mp hmem).resolve_left hrefs) ?_ h
      exact (congrArg Option.isSome (find_lineageField hrefs hnext)).trans hkey

theorem lawful_foldlM {fields : List String} (hsub : fields ⊆ queueLineageFields)
    (h : fields.foldlM (lineageField srcs) lineage = .ok lineage') (hl : LawfulLineage lineage) :
    LawfulLineage lineage' := by
  induction fields generalizing lineage with
  | nil =>
    cases h
    exact hl
  | cons field fields ih =>
    rw [List.foldlM_cons, bind_eq_ok] at h
    obtain ⟨next, hnext, h⟩ := h
    refine ih (fun f hf => hsub (List.mem_cons_of_mem _ hf)) h ?_
    exact lawful_lineageField (hsub List.mem_cons_self) hnext hl

end Fields

/-- The records a record is read with. -/
def nestedSources (payload : Entries) : List Entries :=
  nestedLineageKeys.flatMap fun k => sources nestedLineageKeys (Val.getIn k payload)

theorem sources_eq (payload : Entries) :
    sources nestedLineageKeys (.dict payload) = payload :: nestedSources payload := by
  rw [sources_eq_cons]
  rfl

theorem firstPresent_cons (payload : Entries) (srcs : List Entries) (field : String) :
    firstPresent (payload :: srcs) field =
      if present (Val.getIn field payload) then Val.getIn field payload
      else firstPresent srcs field := by
  unfold firstPresent
  rw [List.map_cons, List.find?_cons]
  cases present (Val.getIn field payload) <;> rfl

variable {payload : Entries}

theorem readable_iff :
    Readable (.dict payload) ↔
      (evidenceRefs (payload :: nestedSources payload)).all Val.hashable = true := by
  rw [← sources_eq]
  constructor
  · rintro ⟨lineage, h⟩
    exact hashable_of_foldlM (by decide) (not_hasKey_named (by decide) payload) h
  · intro hall
    exact foldlM_ok (fun lineage field _ => lineageField_ok fun _ => hall) (namedLineage payload)

theorem lawful_extract {record : Val} (h : extractQueueLineage record = .ok lineage) :
    LawfulLineage lineage := by
  unfold extractQueueLineage at h
  split at h
  · exact lawful_foldlM (List.Subset.refl _) h (lawful_named _)
  · cases h
    exact lawful_nil

/-- What a field says: first what nested records name, then the record itself, then the rest. -/
theorem getIn_extract (h : extractQueueLineage (.dict payload) = .ok lineage)
    (hfield : field ∈ queueLineageFields) (hne : field ≠ "evidence_refs") :
    Val.getIn field lineage =
      if Val.hasKey field (namedLineage payload) then Val.getIn field (namedLineage payload)
      else if present (Val.getIn field payload) then Val.getIn field payload
      else firstPresent (nestedSources payload) field := by
  have hget := getIn_foldlM hne h
  rw [sources_eq, firstPresent_cons] at hget
  rw [hget]
  change (if field ∈ queueLineageFields ∧ Val.hasKey field (namedLineage payload) = false then _
    else Val.getIn field (namedLineage payload)) = _
  cases hkey : Val.hasKey field (namedLineage payload) with
  | true =>
    rw [if_pos rfl, if_neg]
    exact fun hmem => absurd hmem.2 (by decide)
  | false => rw [if_pos ⟨hfield, rfl⟩, if_neg Bool.false_ne_true]

/-! ## Merging as one fold -/

def lineageOf (record : Val) : Entries :=
  match extractQueueLineage record with
  | .ok lineage => lineage
  | .error _ => []

/-- The fields of all sources, one after another. -/
def incomingFields (sources : List Val) : List (String × Val) := sources.flatMap lineageOf

theorem lineageOf_ok {record : Val} (h : extractQueueLineage record = .ok lineage) :
    lineageOf record = lineage := by
  unfold lineageOf
  rw [h]

theorem merge_eq_ok {preserve : Bool} {sources : List Val}
    {acc r : Entries × List LineageConflict} :
    sources.foldlM (mergeSource preserve) acc = .ok r ↔
      (∀ s ∈ sources, Readable s) ∧
        (incomingFields sources).foldlM (mergeEach preserve) acc = .ok r := by
  induction sources generalizing acc with
  | nil => exact ⟨fun h => ⟨fun s hs => (by cases hs), h⟩, fun h => h.2⟩
  | cons s sources ih =>
    rw [List.foldlM_cons, bind_eq_ok, List.forall_mem_cons, incomingFields, List.flatMap_cons,
      List.foldlM_append, bind_eq_ok]
    constructor
    · rintro ⟨next, hnext, h⟩
      obtain ⟨lineage, hlineage, hnext⟩ := bind_eq_ok.mp hnext
      obtain ⟨hreadable, h⟩ := ih.mp h
      rw [lineageOf_ok hlineage]
      exact ⟨⟨⟨lineage, hlineage⟩, hreadable⟩, next, hnext, h⟩
    · rintro ⟨⟨⟨lineage, hlineage⟩, hreadable⟩, next, hnext, h⟩
      rw [lineageOf_ok hlineage] at hnext
      exact ⟨next, bind_eq_ok.mpr ⟨lineage, hlineage, hnext⟩, ih.mpr ⟨hreadable, h⟩⟩

/-- The values of one field among those that are merged. -/
def valuesOf (field : String) (es : List (String × Val)) : List Val :=
  (es.filter fun e => e.1 = field).map Prod.snd

theorem valuesOf_lawful (h : LawfulLineage lineage) (field : String) :
    valuesOf field lineage = [Val.getIn field lineage].filter present := by
  obtain ⟨hnodup, hpresent, -⟩ := h
  induction lineage with
  | nil => rfl
  | cons e es ih =>
    obtain ⟨k, v⟩ := e
    obtain ⟨hk, hnodup⟩ := List.nodup_cons.mp hnodup
    have hrest := ih hnodup fun e he => hpresent e (List.mem_cons_of_mem _ he)
    unfold valuesOf at hrest ⊢
    by_cases hfield : k = field
    · subst hfield
      have hv : present v = true := hpresent (k, v) List.mem_cons_self
      have hnone : es.filter (fun e => e.1 = k) = [] := by
        refine List.filter_eq_nil_iff.mpr fun e he heq => hk ?_
        exact List.mem_map.mpr ⟨e, he, of_decide_eq_true heq⟩
      rw [List.filter_cons_of_pos (by simp), hnone]
      unfold Val.getIn Val.find
      rw [if_pos rfl]
      simp [hv]
    · rw [List.filter_cons_of_neg (by simpa using hfield), hrest]
      unfold Val.getIn
      rw [Val.find, if_neg (Ne.symm hfield)]

theorem valuesOf_incoming {sources : List Val} (field : String) :
    valuesOf field (incomingFields sources) = incomingValues field sources := by
  induction sources with
  | nil => rfl
  | cons s sources ih =>
    unfold incomingFields incomingValues at ih ⊢
    rw [List.flatMap_cons, valuesOf, List.filter_append, List.map_append, List.map_cons,
      List.filter_cons]
    change valuesOf field (lineageOf s) ++ valuesOf field (sources.flatMap lineageOf) = _
    rw [ih]
    unfold lineageOf lineageValue
    cases h : extractQueueLineage s with
    | error e => rfl
    | ok lineage =>
      dsimp only
      rw [valuesOf_lawful (lawful_extract h)]
      cases hp : present (Val.getIn field lineage) <;> simp [hp]

theorem lawful_incomingFields {sources : List Val} {e : String × Val}
    (he : e ∈ incomingFields sources) : present e.2 = true ∧ e.1 ∈ queueLineageFields := by
  obtain ⟨s, -, he⟩ := List.mem_flatMap.mp he
  unfold lineageOf at he
  cases h : extractQueueLineage s with
  | error e => rw [h] at he; cases he
  | ok lineage =>
    rw [h] at he
    exact ⟨(lawful_extract h).present e he, (lawful_extract h).fields e he⟩

/-! ## One field -/

def Reported (conflicts : List LineageConflict) (field : String) (rejected : Val) : Prop :=
  ∃ c ∈ conflicts, c.field = field ∧ c.rejected = rejected

section Field

variable {preserve : Bool} {acc acc' : Entries × List LineageConflict} {e : String × Val}
  {es : List (String × Val)} {field k : String}

theorem find_mergeEach (hne : k ≠ e.1) (h : mergeEach preserve acc e = .ok acc') :
    Val.find k acc'.1 = Val.find k acc.1 := by
  obtain ⟨merged, conflicts⟩ := acc
  unfold mergeEach mergeField at h
  dsimp only at h
  split at h
  · split at h
    · cases h
      rw [Val.find_put, if_neg hne]
    · split at h
      · cases h
        rw [Val.find_put, if_neg hne]
      · cases h
  · split at h
    · cases h
      rw [Val.find_put, if_neg hne]
    · split at h
      · cases h
        rfl
      · cases h
        rfl

theorem getIn_mergeEach (hne : e.1 ≠ "evidence_refs") (h : mergeEach preserve acc e = .ok acc') :
    Val.getIn e.1 acc'.1 =
      if present (Val.getIn e.1 acc.1) then Val.getIn e.1 acc.1 else e.2 := by
  obtain ⟨merged, conflicts⟩ := acc
  unfold mergeEach mergeField at h
  dsimp only at h
  rw [if_neg hne] at h
  split at h
  · rename_i hpresent
    cases h
    rw [Val.getIn_put, if_pos rfl, if_neg]
    simpa using hpresent
  · rename_i hpresent
    rw [if_pos (by simpa using hpresent)]
    split at h
    · cases h
      rfl
    · cases h
      rfl

theorem reported_append {conflicts : List LineageConflict} {c : LineageConflict} {r : Val} :
    Reported (conflicts ++ [c]) k r ↔ Reported conflicts k r ∨ c.field = k ∧ c.rejected = r := by
  unfold Reported
  simp [or_and_right, exists_or]

theorem reported_mergeEach (hk : k ≠ "evidence_refs") {r : Val}
    (h : mergeEach preserve acc e = .ok acc') :
    Reported acc'.2 k r ↔ Reported acc.2 k r ∨
      (e.1 = k ∧ e.2 = r ∧ present (Val.getIn k acc.1) = true ∧
        (Val.getIn k acc.1).eq r = false) := by
  obtain ⟨merged, conflicts⟩ := acc
  obtain ⟨field, value⟩ := e
  unfold mergeEach mergeField at h
  dsimp only at h
  split at h
  · rename_i hrefs
    -- what is said about the evidence is under its own name
    have hother : ¬ (field = k ∧ value = r ∧ present (Val.getIn k merged) = true ∧
        (Val.getIn k merged).eq r = false) := fun hc => hk (hc.1.symm.trans hrefs)
    have hsame : ∀ c : LineageConflict, c.field = field →
        (Reported (conflicts ++ [c]) k r ↔ Reported conflicts k r) := by
      intro c hc
      rw [reported_append]
      refine or_iff_left fun hck => hk ?_
      exact (hck.1.symm.trans hc).trans hrefs
    dsimp only
    rw [or_iff_left hother]
    split at h
    · obtain rfl := Except.ok.inj h
      dsimp only
      split
      · exact Iff.rfl
      · exact hsame _ rfl
    · split at h
      · obtain rfl := Except.ok.inj h
        exact Iff.rfl
      · cases h
  · dsimp only
    split at h
    · rename_i hpresent
      obtain rfl := Except.ok.inj h
      refine (or_iff_left fun hc => ?_).symm
      rw [hc.1, hc.2.2.1] at hpresent
      cases hpresent
    · rename_i hpresent
      split at h
      · rename_i heq
        obtain rfl := Except.ok.inj h
        refine (or_iff_left fun hc => ?_).symm
        rw [hc.1, hc.2.1, hc.2.2.2] at heq
        cases heq
      · rename_i heq
        obtain rfl := Except.ok.inj h
        rw [reported_append]
        refine or_congr_right ⟨fun hc => ?_, fun hc => ⟨hc.1, hc.2.1⟩⟩
        obtain ⟨rfl, rfl⟩ := hc
        exact ⟨rfl, rfl, by simpa using hpresent, by simpa using heq⟩

theorem valuesOf_cons (field : String) (e : String × Val) (es : List (String × Val)) :
    valuesOf field (e :: es) =
      if e.1 = field then e.2 :: valuesOf field es else valuesOf field es := by
  unfold valuesOf
  rw [List.filter_cons]
  by_cases h : e.1 = field <;> simp [h]

theorem mem_valuesOf {v : Val} : v ∈ valuesOf field es ↔ (field, v) ∈ es := by
  unfold valuesOf
  simp

/-- Taking one value leaves the standing one what it was to be. -/
theorem standing_step (hk : k ≠ "evidence_refs") (h : mergeEach preserve acc e = .ok acc')
    (he : present e.2 = true) :
    standing k acc'.1 (valuesOf k es) = standing k acc.1 (valuesOf k (e :: es)) := by
  unfold standing
  dsimp only
  rw [valuesOf_cons]
  by_cases hfield : e.1 = k
  · subst hfield
    rw [if_pos rfl, getIn_mergeEach hk h, List.headD_cons]
    by_cases hpresent : present (Val.getIn e.1 acc.1) = true
    · simp [hpresent]
    · simp [hpresent, he]
  · have hget : Val.getIn k acc'.1 = Val.getIn k acc.1 :=
      congrArg (fun o => Option.getD o Val.none) (find_mergeEach (Ne.symm hfield) h)
    rw [if_neg hfield, hget]

theorem getIn_merged (hk : k ≠ "evidence_refs") (hes : ∀ e ∈ es, present e.2 = true)
    (h : es.foldlM (mergeEach preserve) acc = .ok acc') :
    Val.getIn k acc'.1 = standing k acc.1 (valuesOf k es) := by
  induction es generalizing acc with
  | nil =>
    cases h
    unfold standing valuesOf
    exact (ite_self _).symm
  | cons e es ih =>
    rw [List.foldlM_cons, bind_eq_ok] at h
    obtain ⟨next, hnext, h⟩ := h
    rw [ih (fun e' he' => hes e' (List.mem_cons_of_mem _ he')) h]
    exact standing_step hk hnext (hes e List.mem_cons_self)

theorem reported_merged (hk : k ≠ "evidence_refs") {r : Val}
    (hes : ∀ e ∈ es, present e.2 = true) (hrefl : ∀ v ∈ valuesOf k es, v.eq v = true)
    (h : es.foldlM (mergeEach preserve) acc = .ok acc') :
    Reported acc'.2 k r ↔ Reported acc.2 k r ∨
      (r ∈ valuesOf k es ∧ (standing k acc.1 (valuesOf k es)).eq r = false) := by
  induction es generalizing acc with
  | nil =>
    cases h
    simp [valuesOf]
  | cons e es ih =>
    rw [List.foldlM_cons, bind_eq_ok] at h
    obtain ⟨next, hnext, h⟩ := h
    have hvalue := hes e List.mem_cons_self
    rw [ih (fun e' he' => hes e' (List.mem_cons_of_mem _ he')) ?_ h, standing_step hk hnext hvalue,
      reported_mergeEach hk hnext, or_assoc]
    · refine or_congr_right ?_
      by_cases hfield : e.1 = k
      · subst hfield
        have hself : e.2.eq e.2 = true := hrefl e.2 (mem_valuesOf.mpr List.mem_cons_self)
        rw [valuesOf_cons, if_pos rfl]
        unfold standing
        dsimp only
        by_cases hpresent : present (Val.getIn e.1 acc.1) = true
        · rw [if_pos hpresent, List.mem_cons, or_and_right]
          refine or_congr_left ⟨fun hc => ⟨hc.2.1.symm, hc.2.2.2⟩, fun hc => ?_⟩
          exact ⟨rfl, hc.1.symm, hpresent, hc.2⟩
        · -- the value is the first, and so the standing one
          rw [if_neg hpresent, List.headD_cons, List.mem_cons, or_and_right]
          refine or_congr_left ⟨fun hc => absurd hc.2.2.1 hpresent, fun hc => ?_⟩
          rw [hc.1, hself] at hc
          exact absurd hc.2 (by decide)
      · rw [valuesOf_cons, if_neg hfield]
        exact or_iff_right fun hc => hfield hc.1
    · intro v hv
      refine hrefl v (mem_valuesOf.mpr (List.mem_cons_of_mem _ (mem_valuesOf.mp hv)))

end Field

/-! ## Merging again -/

/-- The evidence is kept, or has all of the incoming items. -/
def EvidenceSettled (preserve : Bool) (incoming refs : List Val) : Prop :=
  (preserve = true ∧ refs ≠ []) ∨
    (Val.Distinct refs ∧ (refs ++ incoming).all Val.hashable = true ∧ Val.Covers refs incoming)

/-- Merging the field again does nothing. -/
def Settled (preserve : Bool) (e : String × Val) (acc : Entries × List LineageConflict) : Prop :=
  if e.1 = "evidence_refs" then
    ∃ refs, Val.find "evidence_refs" acc.1 = some (.list refs) ∧
      EvidenceSettled preserve (listItems e.2) refs
  else present (Val.getIn e.1 acc.1) = true

section Again

variable {preserve : Bool} {acc acc' : Entries × List LineageConflict} {e x : String × Val}

/-- What the evidence is after a list of it has been merged. -/
theorem mergeEach_evidence (he : e.1 = "evidence_refs") (h : mergeEach preserve acc e = .ok acc') :
    ∃ refs, Val.find "evidence_refs" acc'.1 = some (.list refs) ∧
      ((preserve = true ∧ refs ≠ [] ∧ listItems (Val.getIn "evidence_refs" acc.1) = refs) ∨
        ((listItems (Val.getIn "evidence_refs" acc.1) ++ listItems e.2).all Val.hashable = true ∧
          (preserve = false ∨ listItems (Val.getIn "evidence_refs" acc.1) = []) ∧
          refs = Val.dedup (listItems (Val.getIn "evidence_refs" acc.1) ++ listItems e.2))) := by
  obtain ⟨merged, conflicts⟩ := acc
  obtain ⟨field, value⟩ := e
  cases he
  unfold mergeEach mergeField at h
  dsimp only at h ⊢
  rw [if_pos rfl] at h
  split at h
  · rename_i hkept
    rw [Bool.and_eq_true, Bool.not_eq_true', List.isEmpty_eq_false_iff] at hkept
    obtain rfl := Except.ok.inj h
    refine ⟨_, ?_, Or.inl ⟨hkept.1, hkept.2, rfl⟩⟩
    rw [Val.find_put, if_pos rfl]
  · rename_i hopen
    split at h
    · rename_i hall
      obtain rfl := Except.ok.inj h
      refine ⟨_, ?_, Or.inr ⟨hall, ?_, rfl⟩⟩
      · rw [Val.find_put, if_pos rfl]
      · cases preserve with
        | false => exact Or.inl rfl
        | true => exact Or.inr (by simpa using hopen)
    · cases h

theorem settled_self (he : present e.2 = true) (h : mergeEach preserve acc e = .ok acc') :
    Settled preserve e acc' := by
  unfold Settled
  split
  · rename_i hrefs
    obtain ⟨refs, hfind, ⟨hpreserve, hne, -⟩ | ⟨hall, -, rfl⟩⟩ := mergeEach_evidence hrefs h
    · exact ⟨refs, hfind, Or.inl ⟨hpreserve, hne⟩⟩
    · refine ⟨_, hfind, Or.inr ⟨Val.distinct_dedup _, ?_, fun y hy => ?_⟩⟩
      · rw [List.all_append, Val.all_hashable_dedup hall, Bool.true_and]
        rw [List.all_append, Bool.and_eq_true] at hall
        exact hall.2
      · exact Val.covered_dedup hall y (List.mem_append_right _ hy)
  · rename_i hrefs
    rw [getIn_mergeEach hrefs h]
    split
    · assumption
    · exact he

theorem settled_keep (hx : Settled preserve x acc) (h : mergeEach preserve acc e = .ok acc') :
    Settled preserve x acc' := by
  unfold Settled at hx ⊢
  split
  · rename_i hrefs
    rw [if_pos hrefs] at hx
    obtain ⟨refs, hfind, hsettled⟩ := hx
    by_cases he : e.1 = "evidence_refs"
    · have hitems : listItems (Val.getIn "evidence_refs" acc.1) = refs := by
        unfold Val.getIn
        rw [hfind]
        rfl
      obtain ⟨refs', hfind', hcase⟩ := mergeEach_evidence he h
      rw [hitems] at hcase
      rcases hcase with ⟨hpreserve, hne, rfl⟩ | ⟨hall, hopen, rfl⟩
      · exact ⟨refs, hfind', Or.inl ⟨hpreserve, hne⟩⟩
      · rcases hsettled with ⟨hpreserve, hne⟩ | ⟨hdistinct, hhash, hcovers⟩
        · rcases hopen with hopen | hopen
          · rw [hpreserve] at hopen
            cases hopen
          · exact absurd hopen hne
        · refine ⟨_, hfind', Or.inr ⟨Val.distinct_dedup _, ?_, ?_⟩⟩
          · rw [List.all_append, Val.all_hashable_dedup hall, Bool.true_and]
            rw [List.all_append, Bool.and_eq_true] at hhash
            exact hhash.2
          · exact hcovers.mono (Val.subset_dedup_append hdistinct)
    · exact ⟨refs, (find_mergeEach (Ne.symm he) h).trans hfind, hsettled⟩
  · rename_i hrefs
    rw [if_neg hrefs] at hx
    by_cases he : x.1 = e.1
    · rw [he] at hrefs hx ⊢
      rw [getIn_mergeEach hrefs h, if_pos hx]
      exact hx
    · have hget : Val.getIn x.1 acc'.1 = Val.getIn x.1 acc.1 :=
        congrArg (fun o => Option.getD o Val.none) (find_mergeEach he h)
      rw [hget]
      exact hx

theorem settled_again (h : Settled preserve e acc) :
    ∃ acc', mergeEach preserve acc e = .ok acc' ∧ acc'.1 = acc.1 := by
  obtain ⟨merged, conflicts⟩ := acc
  unfold Settled at h
  unfold mergeEach mergeField
  dsimp only at h ⊢
  split at h
  · rename_i hrefs
    obtain ⟨refs, hfind, hsettled⟩ := h
    have hitems : listItems (Val.getIn e.1 merged) = refs := by
      unfold Val.getIn
      rw [hrefs, hfind]
      rfl
    have hput : Val.put e.1 (.list refs) merged = merged := Val.put_of_find (hrefs ▸ hfind)
    rw [if_pos hrefs, hitems]
    split
    · exact ⟨_, rfl, hput⟩
    · rename_i hopen
      rcases hsettled with ⟨hpreserve, hne⟩ | ⟨hdistinct, hall, hcovers⟩
      · refine absurd ?_ hopen
        rw [hpreserve, Bool.true_and, Bool.not_eq_true', List.isEmpty_eq_false_iff]
        exact hne
      · rw [if_pos hall, Val.dedup_append_of_covers hdistinct hcovers]
        exact ⟨_, rfl, hput⟩
  · rename_i hrefs
    rw [if_neg hrefs, h]
    split
    · rename_i habsurd
      cases habsurd
    · split <;> exact ⟨_, rfl, rfl⟩

/-- Merging what has been merged leaves the record as it is. -/
theorem merge_again {es : List (String × Val)} (hes : ∀ e ∈ es, present e.2 = true)
    (h : es.foldlM (mergeEach preserve) acc = .ok acc') (conflicts : List LineageConflict) :
    ∃ conflicts',
      es.foldlM (mergeEach preserve) (acc'.1, conflicts) = .ok (acc'.1, conflicts') := by
  obtain ⟨hall, -⟩ := foldlM_settled (f := mergeEach preserve)
    (fun e he _ _ hstep => settled_self (hes e he) hstep) settled_keep h
  have hpart : ∀ {b b' : Entries × List LineageConflict} {x : String × Val}, b'.1 = b.1 →
      Settled preserve x b → Settled preserve x b' := by
    intro b b' x hsame hx
    unfold Settled at hx ⊢
    rwa [hsame]
  have hsettled : ∀ e ∈ es, Settled preserve e (acc'.1, conflicts) :=
    fun e he => hpart rfl (hall e he)
  obtain ⟨b', hb', hsame⟩ := foldlM_again (f := mergeEach preserve) (g := Prod.fst) settled_again
    hpart hsettled
  exact ⟨b'.2, hb'.trans (congrArg Except.ok (Prod.ext hsame rfl))⟩

theorem evidence_kept {es : List (String × Val)} {refs : List Val} (hrefs : refs ≠ [])
    (h : es.foldlM (mergeEach true) acc = .ok acc')
    (hacc : Val.getIn "evidence_refs" acc.1 = .list refs) :
    Val.getIn "evidence_refs" acc'.1 = .list refs := by
  refine foldlM_invariant (P := fun acc => Val.getIn "evidence_refs" acc.1 = .list refs) ?_ hacc h
  intro b e b' hb hstep
  by_cases he : e.1 = "evidence_refs"
  · obtain ⟨refs', hfind, hcase⟩ := mergeEach_evidence he hstep
    rw [hb] at hcase
    rcases hcase with ⟨-, -, rfl⟩ | ⟨-, hopen | hopen, -⟩
    · unfold Val.getIn
      rw [hfind]
      rfl
    · cases hopen
    · exact absurd hopen hrefs
  · unfold Val.getIn
    rw [find_mergeEach (Ne.symm he) hstep]
    exact hb

end Again

/-! ## Values of records without repeated keys -/

open Journal (WellFormed)

theorem wellFormed_getIn {kvs : Entries} (h : WellFormed (.dict kvs)) (k : String) :
    WellFormed (Val.getIn k kvs) := by
  cases h with
  | dict kvs hkeys hvals =>
    unfold Val.getIn
    cases hfind : Val.find k kvs with
    | none => exact .none
    | some v => exact hvals (k, v) (Val.mem_of_find hfind)

theorem wellFormed_sources {v : Val} (h : WellFormed v) (keys : List String) :
    ∀ s ∈ sources keys v, WellFormed (.dict s) := by
  induction h with
  | dict kvs hkeys hvals ih =>
    intro s hs
    rw [sources_eq_cons] at hs
    rcases List.mem_cons.mp hs with rfl | hs
    · exact .dict s hkeys hvals
    · obtain ⟨k, -, hs⟩ := List.mem_flatMap.mp hs
      unfold Val.getIn at hs
      cases hfind : Val.find k kvs with
      | none =>
        rw [hfind] at hs
        cases hs
      | some x =>
        rw [hfind] at hs
        exact ih (k, x) (Val.mem_of_find hfind) s hs
  | _ => exact fun s hs => by cases hs

theorem wellFormed_firstPresent {srcs : List Entries} (h : ∀ s ∈ srcs, WellFormed (.dict s))
    (field : String) : WellFormed (firstPresent srcs field) := by
  unfold firstPresent
  cases hfind : (srcs.map (Val.getIn field)).find? present with
  | none => exact .none
  | some v =>
    obtain ⟨s, hs, rfl⟩ := List.mem_map.mp (List.mem_of_find?_eq_some hfind)
    exact wellFormed_getIn (h s hs) field

theorem wellFormed_orElse {x y : Val} (hx : WellFormed x) (hy : WellFormed y) :
    WellFormed (x.orElse y) := by
  unfold Val.orElse
  split
  · exact hx
  · exact hy

theorem wellFormed_putPresent {k : String} {v : Val} (hv : WellFormed v)
    (h : WellFormed (Val.getIn k lineage)) :
    WellFormed (Val.getIn k (putPresent field v lineage)) := by
  unfold putPresent
  split
  · rw [Val.getIn_put]
    split
    · exact hv
    · exact h
  · exact h

theorem wellFormed_replanRequestId {record : Entries} (h : WellFormed (.dict record)) :
    WellFormed (replanRequestId record) := by
  have hdirect : WellFormed ((Val.getIn "replan_request_id" record).orElse
      (Val.getIn "request_id" record)) :=
    wellFormed_orElse (wellFormed_getIn h _) (wellFormed_getIn h _)
  unfold replanRequestId
  dsimp only
  split
  · exact hdirect
  · split
    · rename_i request hrequest
      exact wellFormed_getIn (hrequest ▸ wellFormed_getIn h "replan_request") _
    · exact hdirect

theorem wellFormed_named (h : WellFormed (.dict payload)) (field : String) :
    WellFormed (Val.getIn field (namedLineage payload)) := by
  have hcontinuation : WellFormed (Val.getIn field (continuationLineage payload)) := by
    unfold continuationLineage
    split
    · rename_i c hc
      have hdict : WellFormed (.dict c) := hc ▸ wellFormed_getIn h "continuation_work_item"
      refine wellFormed_putPresent ?_ (wellFormed_putPresent ?_ .none)
      · exact wellFormed_orElse (wellFormed_getIn hdict _) (wellFormed_getIn hdict _)
      · exact wellFormed_orElse (wellFormed_getIn hdict _) (wellFormed_getIn hdict _)
    · exact .none
  unfold namedLineage replanLineage
  split
  · rename_i record hrecord
    refine wellFormed_putPresent (wellFormed_replanRequestId ?_) hcontinuation
    exact hrecord ▸ wellFormed_getIn h "replan_record"
  · exact hcontinuation

theorem wellFormed_lineageValue {record : Val} (h : WellFormed record)
    (hfield : field ∈ queueLineageFields) (hne : field ≠ "evidence_refs") :
    WellFormed (lineageValue field record) := by
  unfold lineageValue
  cases hlineage : extractQueueLineage record with
  | error e => exact .none
  | ok lineage =>
    dsimp only
    cases record with
    | dict payload =>
      rw [getIn_extract hlineage hfield hne]
      split
      · exact wellFormed_named h field
      · split
        · exact wellFormed_getIn h field
        · have hall := wellFormed_sources h nestedLineageKeys
          rw [sources_eq, List.forall_mem_cons] at hall
          exact wellFormed_firstPresent hall.2 field
    | _ =>
      cases hlineage
      exact .none

/-! ## Reading the merged record -/

def evidenceScalars : List String := ["evidence_ref", "decision_evidence_id"]

theorem scalar_field : ∀ f ∈ evidenceScalars,
    f ∉ namedFields ∧ f ∈ queueLineageFields ∧ f ≠ "evidence_refs" := by
  decide

/-- A record can be read if its own evidence and that of the records in it can be hashed. -/
theorem hashable_evidence_iff {srcs : List Entries} :
    (evidenceRefs (payload :: srcs)).all Val.hashable = true ↔
      (listItems (Val.getIn "evidence_refs" payload)).all Val.hashable = true ∧
        (srcs.flatMap fun s => listItems (Val.getIn "evidence_refs" s)).all Val.hashable = true ∧
          ∀ f ∈ evidenceScalars, present (firstPresent (payload :: srcs) f) = true →
            (firstPresent (payload :: srcs) f).hashable = true := by
  unfold evidenceRefs
  rw [List.flatMap_cons, List.all_append, List.all_append, Bool.and_eq_true, Bool.and_eq_true,
    and_assoc, List.all_filter, List.all_map]
  refine and_congr_right fun _ => and_congr_right fun _ => ?_
  rw [List.all_eq_true]
  unfold evidenceScalars
  simp [Bool.or_eq_true, or_iff_not_imp_left]

section Read

variable {preserve : Bool} {target merged : Entries} {sources : List Val}
  {conflicts : List LineageConflict} {lineage lineage' : Entries}

theorem find_merged_other {es : List (String × Val)} {acc acc' : Entries × List LineageConflict}
    {k : String} (hes : ∀ e ∈ es, k ≠ e.1) (h : es.foldlM (mergeEach preserve) acc = .ok acc') :
    Val.find k acc'.1 = Val.find k acc.1 := by
  induction es generalizing acc with
  | nil =>
    cases h
    rfl
  | cons e es ih =>
    rw [List.foldlM_cons, bind_eq_ok] at h
    obtain ⟨next, hnext, h⟩ := h
    rw [ih (fun e' he' => hes e' (List.mem_cons_of_mem _ he')) h]
    exact find_mergeEach (hes e List.mem_cons_self) hnext

theorem hashable_mergeEach {e : String × Val} {acc acc' : Entries × List LineageConflict}
    (h : mergeEach preserve acc e = .ok acc')
    (hacc : (listItems (Val.getIn "evidence_refs" acc.1)).all Val.hashable = true) :
    (listItems (Val.getIn "evidence_refs" acc'.1)).all Val.hashable = true := by
  unfold Val.getIn at hacc ⊢
  by_cases he : e.1 = "evidence_refs"
  · obtain ⟨refs, hfind, ⟨-, -, rfl⟩ | ⟨hall, -, rfl⟩⟩ := mergeEach_evidence he h
    · rw [hfind]
      exact hacc
    · rw [hfind]
      exact Val.all_hashable_dedup hall
  · rw [find_mergeEach (Ne.symm he) h]
    exact hacc

theorem mergeEach_ok {e : String × Val} {acc : Entries × List LineageConflict}
    (he : e.1 = "evidence_refs" → (listItems e.2).all Val.hashable = true)
    (hacc : (listItems (Val.getIn "evidence_refs" acc.1)).all Val.hashable = true) :
    ∃ acc', mergeEach preserve acc e = .ok acc' := by
  obtain ⟨merged, conflicts⟩ := acc
  unfold mergeEach mergeField
  dsimp only
  split
  · rename_i hrefs
    split
    · exact ⟨_, rfl⟩
    · rw [hrefs, List.all_append, he hrefs, hacc, Bool.and_true, if_pos rfl]
      exact ⟨_, rfl⟩
  · split
    · exact ⟨_, rfl⟩
    · split <;> exact ⟨_, rfl⟩

theorem mergeAll_ok {es : List (String × Val)} {acc : Entries × List LineageConflict}
    (hes : ∀ e ∈ es, e.1 = "evidence_refs" → (listItems e.2).all Val.hashable = true)
    (hacc : (listItems (Val.getIn "evidence_refs" acc.1)).all Val.hashable = true) :
    ∃ acc', es.foldlM (mergeEach preserve) acc = .ok acc' := by
  induction es generalizing acc with
  | nil => exact ⟨acc, rfl⟩
  | cons e es ih =>
    obtain ⟨next, hnext⟩ := mergeEach_ok (hes e List.mem_cons_self) hacc
    obtain ⟨acc', h⟩ := ih (fun e' he' => hes e' (List.mem_cons_of_mem _ he'))
      (hashable_mergeEach hnext hacc)
    refine ⟨acc', ?_⟩
    rw [List.foldlM_cons, hnext]
    exact h

/-- Records that can be read can be merged. -/
theorem merge_ok (htarget : Readable (.dict target)) (hsources : ∀ s ∈ sources, Readable s) :
    ∃ merged conflicts, mergeQueueLineages target sources preserve = .ok (merged, conflicts) := by
  have hflat := (hashable_evidence_iff.mp (readable_iff.mp htarget)).1
  have hes : ∀ e ∈ incomingFields sources, e.1 = "evidence_refs" →
      (listItems e.2).all Val.hashable = true := by
    intro e he
    obtain ⟨s, hs, he⟩ := List.mem_flatMap.mp he
    obtain ⟨lineage, hlineage⟩ := hsources s hs
    rw [lineageOf_ok hlineage] at he
    exact hashableRefs_extract hlineage e he
  obtain ⟨⟨merged, conflicts⟩, h⟩ := @mergeAll_ok preserve _ (target, []) hes hflat
  exact ⟨merged, conflicts, merge_eq_ok.mpr ⟨hsources, h⟩⟩

theorem hashable_scalar {record : Val} (h : Readable record) {field : String}
    (hfield : field ∈ evidenceScalars) (hpresent : present (lineageValue field record) = true) :
    (lineageValue field record).hashable = true := by
  obtain ⟨lineage, hlineage⟩ := h
  unfold lineageValue at hpresent ⊢
  rw [hlineage] at hpresent ⊢
  cases record with
  | dict payload =>
    obtain ⟨-, -, hscalars⟩ := hashable_evidence_iff.mp (readable_iff.mp ⟨lineage, hlineage⟩)
    have hvalue : Val.getIn field lineage =
        firstPresent (payload :: nestedSources payload) field := by
      obtain ⟨hnamed, hin, hne⟩ := scalar_field field hfield
      rw [getIn_extract hlineage hin hne, not_hasKey_named hnamed, firstPresent_cons]
      rfl
    dsimp only at hpresent ⊢
    rw [hvalue] at hpresent ⊢
    exact hscalars field hfield hpresent
  | _ =>
    cases hlineage
    cases hpresent

def MergesTo (preserve : Bool) (target : Entries) (sources : List Val) (merged : Entries)
    (conflicts : List LineageConflict) : Prop :=
  (incomingFields sources).foldlM (mergeEach preserve) (target, []) = .ok (merged, conflicts)

/-- The records that are read with the merged one are those of the target. -/
theorem nested_merged (h : MergesTo preserve target sources merged conflicts) {k : String} (hk : k ∉ queueLineageFields) :
    Val.getIn k merged = Val.getIn k target := by
  have hfind := find_merged_other (k := k) (fun e he heq => hk ?_) h
  · exact congrArg (fun o => Option.getD o Val.none) hfind
  · rw [heq]
    exact (lawful_incomingFields he).2

theorem nestedSources_merged (h : MergesTo preserve target sources merged conflicts) : nestedSources merged = nestedSources target := by
  unfold nestedSources
  refine List.flatMap_congr fun k hk => ?_
  rw [nested_merged h]
  revert k
  decide

theorem namedLineage_merged (h : MergesTo preserve target sources merged conflicts) : namedLineage merged = namedLineage target := by
  unfold namedLineage replanLineage continuationLineage
  rw [nested_merged h (by decide), nested_merged h (by decide)]

theorem flat_merged (h : MergesTo preserve target sources merged conflicts) {field : String} (hne : field ≠ "evidence_refs") :
    Val.getIn field merged = standing field target (incomingValues field sources) := by
  rw [getIn_merged hne (fun e he => (lawful_incomingFields he).1) h, valuesOf_incoming]

theorem mem_incomingValues {field : String} {v : Val} (h : v ∈ incomingValues field sources) :
    present v = true ∧ ∃ s ∈ sources, lineageValue field s = v := by
  obtain ⟨hmem, hpresent⟩ := List.mem_filter.mp h
  obtain ⟨s, hs, rfl⟩ := List.mem_map.mp hmem
  exact ⟨hpresent, s, hs, rfl⟩

theorem readable_merged (htarget : Readable (.dict target)) (hsources : ∀ s ∈ sources, Readable s)
    (h : MergesTo preserve target sources merged conflicts) : Readable (.dict merged) := by
  obtain ⟨hflat, hnested, hscalars⟩ := hashable_evidence_iff.mp (readable_iff.mp htarget)
  refine readable_iff.mpr (hashable_evidence_iff.mpr ⟨?_, ?_, fun f hf => ?_⟩)
  · exact foldlM_invariant (P := fun acc =>
      (listItems (Val.getIn "evidence_refs" acc.1)).all Val.hashable = true)
      (fun acc e acc' hacc hstep => hashable_mergeEach hstep hacc) hflat h
  · rw [nestedSources_merged h]
    exact hnested
  · obtain ⟨-, -, hne⟩ := scalar_field f hf
    have hbefore := hscalars f hf
    rw [firstPresent_cons] at hbefore ⊢
    rw [flat_merged h hne, nestedSources_merged h]
    unfold standing
    dsimp only
    by_cases hpresent : present (Val.getIn f target) = true
    · rw [if_pos hpresent, if_pos hpresent]
      rwa [if_pos hpresent] at hbefore
    · rw [if_neg hpresent] at hbefore ⊢
      cases hincoming : incomingValues f sources with
      | nil =>
        rw [List.headD_nil, if_neg hpresent]
        exact hbefore
      | cons v vs =>
        obtain ⟨hv, s, hs, rfl⟩ := mem_incomingValues (hincoming ▸ List.mem_cons_self)
        rw [List.headD_cons, if_pos hv]
        exact hashable_scalar (hsources s hs) hf

end Read

/-! ## The law -/

section Law

variable {preserve : Bool} {target merged : Entries} {sources : List Val}
  {conflicts : List LineageConflict} {lineage lineage' : Entries}

theorem lineageValue_ok {record : Val} (h : extractQueueLineage record = .ok lineage)
    (field : String) : lineageValue field record = Val.getIn field lineage := by
  unfold lineageValue
  rw [h]

variable {field : String}

theorem hasKey_iff_present (h : LawfulLineage lineage) :
    Val.hasKey field lineage = true ↔ present (Val.getIn field lineage) = true := by
  unfold Val.hasKey Val.getIn
  cases hfind : Val.find field lineage with
  | none => simp [present]
  | some v => simp [h.present (field, v) (Val.mem_of_find hfind)]

/-- What is said of a field before and after a merge. -/
theorem getIn_merged_lineage (hlineage : extractQueueLineage (.dict target) = .ok lineage)
    (hlineage' : extractQueueLineage (.dict merged) = .ok lineage')
    (h : MergesTo preserve target sources merged conflicts) (hfield : field ∈ queueLineageFields)
    (hne : field ≠ "evidence_refs") :
    Val.getIn field lineage' = Val.getIn field lineage ∨
      ∃ v ∈ (incomingValues field sources).head?, Val.getIn field lineage' = v ∧
        standing field target (incomingValues field sources) = v := by
  rw [getIn_extract hlineage hfield hne, getIn_extract hlineage' hfield hne, flat_merged h hne,
    nestedSources_merged h, namedLineage_merged h]
  cases hnamed : Val.hasKey field (namedLineage target) with
  | true => exact Or.inl rfl
  | false =>
    unfold standing
    dsimp only
    rw [if_neg Bool.false_ne_true, if_neg Bool.false_ne_true]
    by_cases hpresent : present (Val.getIn field target) = true
    · rw [if_pos hpresent, if_pos hpresent]
      exact Or.inl rfl
    · rw [if_neg hpresent, if_neg hpresent]
      cases hincoming : incomingValues field sources with
      | nil =>
        rw [List.headD_nil, if_neg hpresent]
        exact Or.inl rfl
      | cons v vs =>
        obtain ⟨hv, -⟩ := mem_incomingValues (hincoming ▸ List.mem_cons_self)
        rw [List.headD_cons, if_pos hv]
        exact Or.inr ⟨v, rfl, rfl, rfl⟩

theorem getIn_filled (hlineage : extractQueueLineage (.dict target) = .ok lineage)
    (hlineage' : extractQueueLineage (.dict merged) = .ok lineage')
    (h : MergesTo preserve target sources merged conflicts) (hfield : field ∈ queueLineageFields)
    (hne : field ≠ "evidence_refs") (hlacks : Val.hasKey field lineage = false) {v : Val}
    (hv : v ∈ (incomingValues field sources).head?) : Val.getIn field lineage' = v := by
  have hlawful := lawful_extract hlineage
  have habsent : ¬ present (Val.getIn field lineage) = true := fun hpresent => by
    rw [(hasKey_iff_present hlawful).mpr hpresent] at hlacks
    cases hlacks
  rw [getIn_extract hlineage hfield hne] at habsent
  rw [getIn_extract hlineage' hfield hne, flat_merged h hne, namedLineage_merged h]
  cases hnamed : Val.hasKey field (namedLineage target) with
  | true =>
    rw [hnamed, if_pos rfl] at habsent
    exact absurd ((hasKey_iff_present (lawful_named target)).mp hnamed) habsent
  | false =>
    rw [hnamed, if_neg Bool.false_ne_true] at habsent
    by_cases hflat : present (Val.getIn field target) = true
    · rw [if_pos hflat] at habsent
      exact absurd hflat habsent
    · obtain ⟨vs, hincoming⟩ : ∃ vs, incomingValues field sources = v :: vs :=
        ⟨_, (List.cons_head?_tail hv).symm⟩
      obtain ⟨hpresent, -⟩ := mem_incomingValues (hincoming ▸ List.mem_cons_self)
      unfold standing
      dsimp only
      rw [if_neg Bool.false_ne_true, if_neg hflat, hincoming, List.headD_cons, if_pos hpresent]

theorem reported_merge (hsources : ∀ s ∈ sources, WellFormed s)
    (h : MergesTo preserve target sources merged conflicts) (hfield : field ∈ queueLineageFields)
    (hne : field ≠ "evidence_refs") {r : Val} :
    Reported conflicts field r ↔ r ∈ incomingValues field sources ∧
      (standing field target (incomingValues field sources)).eq r = false := by
  have hrefl : ∀ v ∈ valuesOf field (incomingFields sources), v.eq v = true := by
    rw [valuesOf_incoming]
    intro v hv
    obtain ⟨-, s, hs, rfl⟩ := mem_incomingValues hv
    exact (wellFormed_lineageValue (hsources s hs) hfield hne).eq_refl
  have hreported := reported_merged (r := r) hne (fun e he => (lawful_incomingFields he).1) hrefl h
  rw [valuesOf_incoming] at hreported
  rw [hreported]
  refine or_iff_right ?_
  rintro ⟨c, hc, -⟩
  cases hc

theorem fieldKept_of_compatible (htarget : WellFormed (.dict target))
    (hsources : ∀ s ∈ sources, WellFormed s)
    (hlineage : extractQueueLineage (.dict target) = .ok lineage)
    (hlineage' : extractQueueLineage (.dict merged) = .ok lineage')
    (h : MergesTo preserve target sources merged conflicts) (hfield : field ∈ queueLineageFields)
    (hne : field ≠ "evidence_refs") (hcompatible : ∀ e ∈ incomingValues field sources,
      (standing field target (incomingValues field sources)).eq e = true →
        (Val.getIn field lineage).eq e = true) :
    FieldKept sources conflicts (Val.getIn field lineage) (Val.getIn field lineage') field := by
  refine ⟨?_, fun e he hdiffers => ?_⟩
  · rcases getIn_merged_lineage hlineage hlineage' h hfield hne with hsame | ⟨v, hv, hget, hstands⟩
    · rw [hsame, ← lineageValue_ok hlineage]
      exact (wellFormed_lineageValue htarget hfield hne).eq_refl
    · -- the first incoming value stands, and equals itself
      have hmem : v ∈ incomingValues field sources := List.mem_of_head? hv
      obtain ⟨-, s, hs, rfl⟩ := mem_incomingValues hmem
      rw [hget]
      refine hcompatible _ hmem ?_
      rw [hstands]
      exact (wellFormed_lineageValue (hsources s hs) hfield hne).eq_refl
  · refine (reported_merge hsources h hfield hne).mpr ⟨he, Bool.eq_false_iff.mpr fun hequal => ?_⟩
    rw [hcompatible e he hequal] at hdiffers
    cases hdiffers

/-- Merging keeps what the target says exactly if no incoming value passes for the standing one
while it differs from what the target says. -/
theorem identityKept_iff (preserveExistingEvidence : Bool) (htarget : WellFormed (.dict target))
    (hsources : ∀ s ∈ sources, WellFormed s) :
    IdentityKept preserveExistingEvidence target sources ↔ Compatible target sources := by
  constructor
  · rintro hlaw ⟨lineage, hlineage⟩ hreadable field hfield hne hpresent e he hequal
    obtain ⟨merged, conflicts, hmerge⟩ := merge_ok ⟨lineage, hlineage⟩ hreadable
    obtain ⟨lineage', -, hlaw⟩ := hlaw lineage merged conflicts hlineage hmerge
    obtain ⟨-, h⟩ := merge_eq_ok.mp hmerge
    rw [lineageValue_ok hlineage] at hpresent ⊢
    have hkey := (hasKey_iff_present (lawful_extract hlineage)).mpr hpresent
    by_contra hdiffers
    obtain ⟨-, hreport⟩ := hlaw.kept field hfield hne hkey
    have hreported := hreport e he (Bool.eq_false_iff.mpr hdiffers)
    rw [((reported_merge hsources h hfield hne).mp hreported).2] at hequal
    cases hequal
  · intro hcompatible lineage merged conflicts hlineage hmerge
    obtain ⟨hreadable, h⟩ := merge_eq_ok.mp hmerge
    obtain ⟨lineage', hlineage'⟩ := readable_merged ⟨lineage, hlineage⟩ hreadable h
    refine ⟨lineage', hlineage', ?_, ?_, ?_, ?_⟩
    · intro field hfield hne hkey
      have hpresent := (hasKey_iff_present (lawful_extract hlineage)).mp hkey
      have hfieldwise := hcompatible ⟨lineage, hlineage⟩ hreadable field hfield hne
      rw [lineageValue_ok hlineage] at hfieldwise
      exact fieldKept_of_compatible htarget hsources hlineage hlineage' h hfield hne
        (hfieldwise hpresent)
    · exact fun field hfield hne hlacks v hv =>
        getIn_filled hlineage hlineage' h hfield hne hlacks hv
    · obtain ⟨conflicts', hagain⟩ := merge_again (fun e he => (lawful_incomingFields he).1) h []
      exact ⟨conflicts', merge_eq_ok.mpr ⟨hreadable, hagain⟩⟩
    · rintro rfl refs hrefs hne
      exact evidence_kept hne h hrefs

end Law

/-- A record with a task id, and a source with another one: the conflict is reported. -/
theorem identityKept_flat :
    IdentityKept true [("task_id", .str "a")] [.dict [("task_id", .str "b")]] := by
  have htarget : WellFormed (.dict [("task_id", .str "a")]) :=
    .dict _ (by decide) (by simpa using WellFormed.str "a")
  have hsource : WellFormed (.dict [("task_id", .str "b")]) :=
    .dict _ (by decide) (by simpa using WellFormed.str "b")
  refine (identityKept_iff true htarget (by simpa using hsource)).mpr fun _ _ => ?_
  decide +kernel

/-- A task id under `metadata` is overwritten by that of a source. -/
theorem nested_task_overwritten :
    ¬ IdentityKept false [("metadata", .dict [("task_id", .str "a")])]
      [.dict [("task_id", .str "b")]] := by
  intro hlaw
  obtain ⟨lineage', hread, hlaw⟩ := hlaw [("task_id", .str "a")]
    [("metadata", .dict [("task_id", .str "a")]), ("task_id", .str "b")] [] rfl rfl
  obtain ⟨hkept, -⟩ := hlaw.kept "task_id" (by decide) (by decide) rfl
  obtain rfl : [("task_id", .str "b")] = lineage' := Except.ok.inj hread
  exact absurd hkept (by decide)

end Queue
end ZeroRuntime
