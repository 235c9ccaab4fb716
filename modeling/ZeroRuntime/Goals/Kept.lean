import ZeroRuntime.Goals.Faces

/-!
# ZeroRuntime.Goals.Kept

What the repository of engineering goals keeps of a goal.

* `Lawful`: every record keeps the identity and the outcome of its goal, a goal becomes completed
  with an accepted attestation only, and every other change of its status is one that the state
  machine accepts.
* `Careful`: an update blanks no status, does not spell it `complete`, completes no failed goal and
  moves no field of the lineage. `goals_kept_iff_careful`: this is when a run is lawful.
-/

namespace ZeroRuntime
namespace Goals

open Lib

/-! ## Reading the file -/

section Digest

variable {digest : Val → String} {textDigest nameDigest : String → String}

/-- Every record of the file shows the goal it stands under. -/
def Settled (file : Records) : Prop :=
  ∀ id r, file.get? id = some r → ∃ f : Face, f.Stored r ∧ f.goalId = id

variable {clock : Clock}

/-- The induction is on the records that are left; each of them is set under its own id. -/
theorem readRecord_foldlM : ∀ {es : List (String × Entries)} {n : ℕ}
    {acc records : Records},
    (∀ e ∈ es, ∃ f : Face, f.Stored e.2 ∧ f.goalId = e.1) → (es.map Prod.fst).Nodup →
    (es.zipIdx n).foldlM
      (fun records e => readRecord digest textDigest clock records (e.1.2, e.2)) acc = .ok records →
    ∀ id, match Dict.find id es with
      | none => records.get? id = acc.get? id
      | some r => ∃ g record, toRecord digest textDigest clock r = .ok (g, record) ∧
          records.get? id = some record
  | [], n, acc, records, _, _, h, id => by
    rw [← Except.ok.inj h]
    rfl
  | e :: es, n, acc, records, hfaces, hnodup, h, id => by
    obtain ⟨hnew, hnodup'⟩ := List.nodup_cons.mp hnodup
    rw [List.zipIdx_cons, List.foldlM_cons] at h
    obtain ⟨acc', hread, h⟩ := bind_eq_ok.mp h
    have hrest := readRecord_foldlM
      (fun e' he' => hfaces e' (List.mem_cons_of_mem e he')) hnodup' h id
    obtain ⟨f, hstored, hid⟩ := hfaces e List.mem_cons_self
    have hacc : ∃ g record, toRecord digest textDigest clock e.2 = .ok (g, record) ∧
        acc' = acc.set e.1 record := by
      unfold readRecord at hread
      dsimp only at hread
      cases hrecord : toRecord digest textDigest clock e.2 with
      | error err =>
        rw [hrecord] at hread
        cases err <;> cases hread
      | ok made =>
        obtain ⟨g, record⟩ := made
        rw [hrecord] at hread
        refine ⟨g, record, rfl, ?_⟩
        rw [← Except.ok.inj hread, (hstored.read hrecord).1, hid]
    obtain ⟨g, record, hrecord, hacc⟩ := hacc
    unfold Dict.find
    by_cases hsame : id = e.1
    · have hfind : Dict.find id es = none := by
        rw [hsame]
        exact Dict.find_eq_none.mpr hnew
      rw [if_pos hsame]
      rw [hfind] at hrest
      refine ⟨g, record, hrecord, ?_⟩
      rw [hrest, hacc, Dict.get?_set, if_pos hsame]
    · rw [if_neg hsame]
      rw [hacc, Dict.get?_set, if_neg hsame] at hrest
      exact hrest

variable {file : Records}

variable {records : Records}

theorem readRecords_ok (hfile : Settled file)
    (h : readRecords digest textDigest clock file = .ok records) (id : String) :
    match file.get? id with
    | none => records.get? id = none
    | some r => ∃ (f : Face) (record : Entries),
        f.Stored r ∧ f.goalId = id ∧ f.Of record ∧ records.get? id = some record := by
  have hfaces : ∀ e ∈ file.entries, ∃ f : Face, f.Stored e.2 ∧ f.goalId = e.1 :=
    fun e he => hfile e.1 e.2 (Dict.mem_entries.mp he)
  have hread := readRecord_foldlM hfaces file.nodup h id
  unfold Dict.get? at hread ⊢
  cases hfind : Dict.find id file.entries with
  | none =>
    rw [hfind] at hread
    exact hread
  | some r =>
    rw [hfind] at hread
    obtain ⟨g, record, hrecord, hget⟩ := hread
    obtain ⟨f, hstored, hid⟩ := hfile id r hfind
    exact ⟨f, record, hstored, hid, (hstored.read hrecord).2, hget⟩

/-! ## What is kept -/

def statusOf (r : Entries) : String := (Val.getIn "status" r).toText

def identityKeys : List String := "created_at" :: "goal_lineage" :: goalLineageFields

/-- A record of a goal, and a later one. -/
structure Kept (r r' : Entries) : Prop where
  identity : ∀ k ∈ identityKeys, Val.getIn k r' = Val.getIn k r
  outcome : statusOf r ∈ ["completed", "failed"] → statusOf r' = statusOf r

variable (digest) in
/-- The call brings an accepted attestation for the goal, its session and its lineage. -/
def Attested (c : Call) (goalId : String) (r : Entries) : Prop :=
  isAcceptedGoalCompletionResult digest c.attestation goalId (Val.getIn "session_id" r)
    (Val.getIn "goal_lineage" r) = true

variable (digest) in
/-- What a call may do to the statuses. -/
structure Changes (file file' : Records) (c : Call) : Prop where
  completed : ∀ id r', file'.get? id = some r' → statusOf r' = "completed" →
    (∀ r, file.get? id = some r → statusOf r ≠ "completed") → Attested digest c id r'
  accepted : ∀ id r r', file.get? id = some r → file'.get? id = some r' →
    statusOf r' ≠ statusOf r → statusOf r' ≠ "completed" →
    AcceptsChange id (statusOf r) (statusOf r')

variable (digest) in
/-- What one call may do. -/
structure StepLaw (file file' : Records) (c : Call) : Prop where
  kept : ∀ id r, file.get? id = some r → ∃ r', file'.get? id = some r' ∧ Kept r r'
  changes : Changes digest file file' c

theorem kept_refl (r : Entries) : Kept r r := ⟨fun _ _ => rfl, fun _ => rfl⟩

variable {r : Entries}

variable {r' : Entries}

theorem Kept.trans {r'' : Entries} (h : Kept r r') (h' : Kept r' r'') : Kept r r'' where
  identity k hk := (h'.identity k hk).trans (h.identity k hk)
  outcome hr := by
    have hsame := h.outcome hr
    rw [h'.outcome (by rw [hsame]; exact hr), hsame]

theorem stepLaw_refl (file : Records) (c : Call) : StepLaw digest file file c where
  kept id r hr := ⟨r, hr, kept_refl r⟩
  changes :=
    { completed := fun id r' hr' hstatus hbefore => absurd hstatus (hbefore r' hr')
      accepted := fun id r r' hr hr' hne _ => by
        rw [hr] at hr'
        cases hr'
        exact absurd rfl hne }

variable {f : Face}

theorem Face.Shown.statusOf (h : f.Shown r) : statusOf r = f.status := by
  unfold Goals.statusOf
  rw [h.status]
  rfl

theorem Face.Of.statusOf (h : f.Of r) : Goals.statusOf r = f.status := by
  unfold Goals.statusOf
  rw [h.status]
  rfl

theorem identity_iff {f' : Face} (h : f.Shown r) (h' : f'.Shown r') :
    (∀ k ∈ identityKeys, Val.getIn k r' = Val.getIn k r) ↔
      f'.createdAt = f.createdAt ∧ f'.lineage = f.lineage := by
  unfold identityKeys
  rw [List.forall_mem_cons, List.forall_mem_cons, h.createdAt, h'.createdAt, h.nested, h'.nested]
  constructor
  · rintro ⟨hcreated, -, hfields⟩
    refine ⟨hcreated, GoalLineage.ext_fields fun k hk => ?_⟩
    have hk' := hfields k hk
    rw [h.lineage k hk, h'.lineage k hk] at hk'
    exact Val.str.inj hk'
  · rintro ⟨hcreated, hlineage⟩
    refine ⟨hcreated, by rw [hlineage], fun k hk => ?_⟩
    rw [h.lineage k hk, h'.lineage k hk, hlineage]

theorem kept_of_shown (h : f.Shown r) (h' : f.Shown r') : Kept r r' ∧ statusOf r' = statusOf r :=
  have hstatus : statusOf r' = statusOf r := h'.statusOf.trans h.statusOf.symm
  ⟨⟨(identity_iff h h').mpr ⟨rfl, rfl⟩, fun _ => hstatus⟩, hstatus⟩

/-- The keys of the lineage do not matter to an attestation. -/
theorem accepted_sorted {a : Option GoalCompletionResult} {goalId : String} {session : Val}
    {l : GoalLineage} (hl : l.Complete) :
    isAcceptedGoalCompletionResult digest a goalId session (.dict (Val.sortedEntries l.mapping)) =
      isAcceptedGoalCompletionResult digest a goalId session (.dict l.mapping) := by
  have hkeys : (l.mapping.map Prod.fst).Nodup := by
    have hnodup : ("schema" :: goalLineageFields).Nodup := by decide
    exact hnodup
  have hextract : ∀ {kvs : Entries},
      (∀ k ∈ goalLineageFields, (Val.getIn k kvs).text = l.field k) →
      extractGoalLineage digest false (.dict kvs) = .ok l := by
    intro kvs hkvs
    unfold extractGoalLineage
    dsimp only
    rw [lineageOf_complete digest hl hkvs]
    rfl
  have hplain : ∀ k ∈ goalLineageFields, (Val.getIn k l.mapping).text = l.field k := by
    intro k hk
    rw [l.getIn_mapping k hk, text_str, (hl k hk).2]
  have hsorted : ∀ k ∈ goalLineageFields,
      (Val.getIn k (Val.sortedEntries l.mapping)).text = l.field k := by
    intro k hk
    rw [getIn_sortedEntries hkeys, l.getIn_mapping k hk, Val.sorted_str, text_str, (hl k hk).2]
  unfold isAcceptedGoalCompletionResult lineageScopeMatches
  rw [hextract hplain, hextract hsorted]

/-! ## An update -/

variable {k : String}

theorem getIn_mergeEntry_of_fixed (hk : k ∈ ["schema", "goal_id", "created_at"]) (merged : Entries)
    (e : String × Val) : Val.getIn k (mergeEntry merged e) = Val.getIn k merged := by
  unfold mergeEntry
  split
  · rfl
  · rename_i hfree
    have hne : k ≠ e.1 := fun h => hfree (h ▸ hk)
    split
    · split
      · rw [Val.getIn_put, if_neg hne]
      · rw [Val.getIn_put, if_neg hne]
    · rw [Val.getIn_put, if_neg hne]

/-- Keys that an update replaces. -/
def isPlain (k : String) : Bool :=
  k ∉ ["schema", "goal_id", "created_at", "payload", "metadata"]

theorem getIn_mergeEntry (hk : isPlain k = true) (merged : Entries) (e : String × Val) :
    Val.getIn k (mergeEntry merged e) = if k = e.1 then e.2 else Val.getIn k merged := by
  have hplain := of_decide_eq_true hk
  by_cases hsame : k = e.1
  · rw [if_pos hsame]
    unfold mergeEntry
    rw [if_neg fun hfixed => hplain (by
      rw [hsame]
      exact List.mem_append_left ["payload", "metadata"] hfixed)]
    split
    · rw [if_neg fun hnested => hplain (by
        rw [hsame]
        exact List.mem_append_right ["schema", "goal_id", "created_at"] hnested)]
      rw [Val.getIn_put, if_pos hsame]
    · rw [Val.getIn_put, if_pos hsame]
  · rw [if_neg hsame]
    unfold mergeEntry
    split
    · rfl
    · split
      · split
        · rw [Val.getIn_put, if_neg hsame]
        · rw [Val.getIn_put, if_neg hsame]
      · rw [Val.getIn_put, if_neg hsame]

theorem getIn_mergeUpdates_of_fixed (hk : k ∈ ["schema", "goal_id", "created_at"]) :
    ∀ (updates existing : Entries),
      Val.getIn k (mergeUpdates existing updates) = Val.getIn k existing
  | [], _ => rfl
  | e :: updates, existing => by
    have hrest := getIn_mergeUpdates_of_fixed hk updates (mergeEntry existing e)
    rw [getIn_mergeEntry_of_fixed hk] at hrest
    exact hrest

theorem getIn_mergeUpdates (hk : isPlain k = true) :
    ∀ (updates existing : Entries), (updates.map Prod.fst).Nodup →
      Val.getIn k (mergeUpdates existing updates) =
        (Dict.find k updates).getD (Val.getIn k existing)
  | [], _, _ => rfl
  | e :: updates, existing, hnodup => by
    obtain ⟨hnew, hnodup'⟩ := List.nodup_cons.mp hnodup
    have hrest := getIn_mergeUpdates hk updates (mergeEntry existing e) hnodup'
    rw [getIn_mergeEntry hk] at hrest
    have hcons : Dict.find k (e :: updates) = if k = e.1 then some e.2 else Dict.find k updates :=
      rfl
    rw [hcons]
    refine hrest.trans ?_
    by_cases hsame : k = e.1
    · have hnone : Dict.find k updates = none := Dict.find_eq_none.mpr (by rw [hsame]; exact hnew)
      rw [hnone, if_pos hsame, if_pos hsame]
      rfl
    · rw [if_neg hsame, if_neg hsame]

/-- What the merged record has for a key. -/
def named (existing : Entries) (updates : Dict String Val) (k : String) : Val :=
  (updates.get? k).getD (Val.getIn k existing)

theorem getIn_mergedRecord (hk : isPlain k = true) (hclock : k ≠ "updated_at") (existing : Entries)
    (updates : Dict String Val) :
    Val.getIn k (mergedRecord clock existing updates) = named existing updates k := by
  unfold mergedRecord named
  rw [Val.getIn_put, if_neg hclock, getIn_mergeUpdates hk _ _ updates.nodup]
  rfl

theorem getIn_mergedRecord_of_fixed (hk : k ∈ ["schema", "goal_id", "created_at"])
    (hclock : k ≠ "updated_at") (existing : Entries) (updates : Dict String Val) :
    Val.getIn k (mergedRecord clock existing updates) = Val.getIn k existing := by
  unfold mergedRecord
  rw [Val.getIn_put, if_neg hclock, getIn_mergeUpdates_of_fixed hk]

theorem val_find_eq_dict_find (k : String) (es : Entries) : Val.find k es = Dict.find k es := by
  induction es with
  | nil => rfl
  | cons e es ih =>
    obtain ⟨k', v⟩ := e
    unfold Val.find Dict.find
    rw [ih]

def askedStatus (updates : Dict String Val) : String := lowered (Val.getIn "status" updates.entries)

/-- What an update that returns has gone through. -/
structure Updated (digest : Val → String) (textDigest : String → String) (clock : Clock)
    (id : String) (updates : Dict String Val) (attestation : Option GoalCompletionResult)
    (file file' records : Records) (existing record r : Entries) (f f' : Face) : Prop where
  stored : file.get? id = some r
  face : f.Stored r
  faceId : f.goalId = id
  read : readRecords digest textDigest clock file = .ok records
  found : records.get? id = some existing
  shows : f.Of existing
  attested : isCompleted (askedStatus updates) = true →
    isAcceptedGoalCompletionResult digest attestation id (Val.getIn "session_id" existing)
      (Val.getIn "goal_lineage" existing) = true
  accepted : checkTransition id f.status (askedStatus updates) existing updates.entries = .ok ()
  shows' : f'.Of record
  faceId' : f'.goalId = id
  createdAt : f'.createdAt = f.createdAt
  status : f'.status = readStatus (mergedRecord clock existing updates)
  lineage : ∃ l, readLineage digest textDigest (mergedRecord clock existing updates) id = .ok l ∧
    f'.lineage = l.clean
  written : file' = (records.set id record).mapValues Val.sortedEntries

theorem writeRecords_ok (h : writeRecords records = .ok file) :
    file = records.mapValues Val.sortedEntries := by
  unfold writeRecords at h
  split at h
  · exact (Except.ok.inj h).symm
  · cases h

variable {attestation : Option GoalCompletionResult}

variable {updates : Option (Dict String Val)} {file' : Records}

theorem updateGoal_ok {goalId : Val} (hfile : Settled file)
    (h : updateGoal digest textDigest clock goalId updates attestation file = .ok file') :
    ∃ u records existing record r f f', updates = some u ∧
      Updated digest textDigest clock (cleanText goalId "") u attestation file file' records existing
        record r f f' := by
  unfold updateGoal at h
  dsimp only at h
  split at h
  · cases h
  · cases updates with
    | none => cases h
    | some u =>
      dsimp only at h
      obtain ⟨records, hread, h⟩ := bind_eq_ok.mp h
      have hrecords := readRecords_ok hfile hread (cleanText goalId "")
      cases hfound : records.get? (cleanText goalId "") with
      | none =>
        rw [hfound] at h
        cases h
      | some existing =>
        rw [hfound] at h
        dsimp only at h
        cases hstored : file.get? (cleanText goalId "") with
        | none =>
          rw [hstored] at hrecords
          exact absurd (hfound.symm.trans hrecords) (by simp only [reduceCtorEq, not_false_eq_true])
        | some r =>
          rw [hstored] at hrecords
          obtain ⟨f, existing', hface, hid, hof, hfound'⟩ := hrecords
          have hsame : existing = existing' := Option.some.inj (hfound.symm.trans hfound')
          rw [← hsame] at hof
          have hstatus : (Val.getIn "status" existing).toText = f.status := by
            rw [hof.status]
            rfl
          split at h
          · cases h
          · rename_i hattested
            obtain ⟨_, hcheck, h⟩ := bind_eq_ok.mp h
            obtain ⟨⟨g, record⟩, hrecord, h⟩ := bind_eq_ok.mp h
            rw [hstatus] at hcheck
            obtain ⟨-, f', hof', hid', hstatus', hcreated', hlineage'⟩ := toRecord_again hrecord
              ((getIn_mergedRecord_of_fixed (by decide) (by decide) existing u).trans hof.goalId)
              ((getIn_mergedRecord_of_fixed (by decide) (by decide) existing u).trans hof.createdAt)
            rw [hid] at hlineage'
            refine ⟨u, records, existing, record, r, f, f', rfl, hstored, hface, hid, hread, hfound,
              hof, fun hcompleted => ?_, hcheck, hof', hid'.trans hid, hcreated', hstatus', hlineage',
              writeRecords_ok h⟩
            by_contra hno
            exact hattested (by
              rw [Bool.and_eq_true, Bool.not_eq_true', ← Bool.not_eq_true]
              exact ⟨hcompleted, hno⟩)

/-! ## The condition -/

variable (digest textDigest) in
/-- The update blanks no status, does not spell it `complete`, completes no failed goal, and names no
lineage field with another text; where it blanks one, the merged record still leads to the stored
text. -/
structure CarefulUpdate (clock : Clock) (id : String) (updates : Dict String Val)
    (existing : Entries) : Prop where
  blank : updates.contains "status" = true → askedStatus updates = "" →
    statusOf existing ∈ ["pending", "created"]
  spelled : askedStatus updates = "complete" → statusOf existing = "complete"
  reopened : askedStatus updates = "completed" → statusOf existing ≠ "failed"
  lineage : ∀ k ∈ goalLineageFields, k ≠ "goal_id" →
    (named existing updates k).text = (Val.getIn k existing).toText ∨
      (named existing updates k).text = "" ∧
        ∀ l, readLineage digest textDigest (mergedRecord clock existing updates) id = .ok l →
          l.clean.field k = (Val.getIn k existing).toText

variable (digest textDigest) in
def Careful (file : Records) : Call → Prop
  | .save _ _ _ _ => True
  | .update clock goalId updates _ => ∀ u records existing, updates = some u →
      readRecords digest textDigest clock file = .ok records →
      records.get? (cleanText goalId "") = some existing →
      CarefulUpdate digest textDigest clock (cleanText goalId "") u existing

section Update

variable {clock : Clock} {id : String} {updates : Dict String Val}
  {attestation : Option GoalCompletionResult} {file file' records : Records}
  {existing record r : Entries} {f f' : Face}

theorem Updated.status_cases (hu : Updated digest textDigest clock id updates attestation file file'
      records existing record r f f') :
    updates.contains "status" = false ∧ askedStatus updates = "" ∧ f'.status = f.status ∨
    updates.contains "status" = true ∧ askedStatus updates = "" ∧ f'.status = "pending" ∨
    askedStatus updates ≠ "" ∧ f'.status = askedStatus updates := by
  have hstatus := hu.status
  unfold readStatus at hstatus
  rw [getIn_mergedRecord (by decide) (by decide)] at hstatus
  have hasked : askedStatus updates = Text.lower ((updates.get? "status").getD .none).text := by
    unfold askedStatus lowered Val.getIn
    rw [val_find_eq_dict_find]
    rfl
  unfold named at hstatus
  unfold Dict.contains
  cases hget : updates.get? "status" with
  | none =>
    refine .inl ⟨rfl, ?_, ?_⟩
    · rw [hasked, hget]
      rfl
    · rw [hget, Option.getD_none, hu.shows.status] at hstatus
      rw [hstatus]
      unfold cleanText
      rw [text_str, f.status_strip, orText_of_ne f.status_ne, f.status_lower]
  | some x =>
    rw [hget, Option.getD_some] at hstatus hasked
    unfold cleanText at hstatus
    by_cases hblank : x.text = ""
    · refine .inr (.inl ⟨rfl, ?_, ?_⟩)
      · rw [hasked, hblank]
        rfl
      · rw [hstatus, hblank]
        decide
    · refine .inr (.inr ⟨?_, ?_⟩)
      · rw [hasked, ne_eq, Text.lower_eq_empty]
        exact hblank
      · rw [hstatus, hasked, orText_of_ne hblank]

/-- An update of the status that the machine was asked about. -/
theorem checkTransition_ok {S T : String} {existing updates : Entries} (hS : lowered (.str S) = S)
    (h : checkTransition id S T existing updates = .ok ()) (hne : T ≠ "")
    (hopen : isCompleted T = false) (hother : T ≠ S) :
    AcceptsChange id S T ∧ S ∉ ["completed", "failed"] := by
  unfold checkTransition at h
  rw [if_pos ⟨hne, by rw [hopen]; exact Bool.false_ne_true, hother⟩] at h
  obtain ⟨t, ht, h⟩ := bind_eq_ok.mp h
  have haccepted : (transition t none false).accepted = true := by
    by_contra hno
    dsimp only at h
    rw [if_neg hno] at h
    cases h
  unfold updateTransition at ht
  obtain ⟨refs, -, hmake⟩ := bind_eq_ok.mp ht
  by_cases hpending : S = "pending"
  · rw [if_pos hpending] at hmake
    rw [hpending]
    exact ⟨acceptsChange_of_pending hmake haccepted, by decide⟩
  · rw [if_neg hpending] at hmake
    refine ⟨⟨_, _, _, _, t, none, false, hmake, haccepted⟩, fun hterminal => ?_⟩
    obtain ⟨htype, -, hfrom, -⟩ := make_ok hmake
    obtain ⟨hfree, hgood⟩ := transition_accepted_iff.mp haccepted
    have hbad := ((violations_eq_nil fun h => hfree ⟨h.1, h.2, rfl⟩).mp hgood).1
    rcases value_of_clean hS hfrom with hvalue | ⟨hno, -⟩
    · rw [← hvalue] at hterminal
      revert hbad hterminal
      cases t.fromState <;> decide
    · exact hpending hno

theorem Face.lowered_status (f : Face) : lowered (.str f.status) = f.status := by
  unfold lowered
  rw [text_str, f.status_strip, f.status_lower]

theorem Face.id_text (f : Face) : (Val.str f.goalId).text ≠ "" := by
  rw [text_str, f.goalId_strip]
  exact f.goalId_ne

/-- What becomes of the status is in order exactly if the update is careful about it. -/
theorem Updated.status_iff (hu : Updated digest textDigest clock id updates attestation file file'
      records existing record r f f') :
    ((f.status ∈ ["completed", "failed"] → f'.status = f.status) ∧
      (f'.status ≠ f.status → f'.status ≠ "completed" → AcceptsChange id f.status f'.status)) ↔
    (updates.contains "status" = true → askedStatus updates = "" →
        f.status ∈ ["pending", "created"]) ∧
      (askedStatus updates = "complete" → f.status = "complete") ∧
      (askedStatus updates = "completed" → f.status ≠ "failed") := by
  rcases hu.status_cases with ⟨hcontains, hasked, hsame⟩ | ⟨hcontains, hasked, hpending⟩ |
    ⟨hasked, hset⟩
  · -- the status is not named
    rw [hasked, hsame, hcontains]
    refine ⟨fun _ => ⟨fun h => absurd h (by decide), fun h => absurd h (by decide),
      fun h => absurd h (by decide)⟩, fun _ => ⟨fun _ => rfl, fun h => absurd rfl h⟩⟩
  · -- the status is blanked, and becomes pending
    rw [hasked, hpending, hcontains]
    constructor
    · rintro ⟨-, haccepted⟩
      refine ⟨fun _ _ => ?_, fun h => absurd h (by decide), fun h => absurd h (by decide)⟩
      by_cases hsame : "pending" = f.status
      · rw [← hsame]
        decide
      · rw [created_of_acceptsChange f.lowered_status (haccepted hsame (by decide))]
        decide
    · rintro ⟨hold, -, -⟩
      rcases List.mem_cons.mp (hold rfl rfl) with hsame | hcreated
      · exact ⟨fun _ => hsame.symm, fun hne => absurd hsame.symm hne⟩
      · rw [List.mem_singleton] at hcreated
        rw [hcreated]
        refine ⟨fun h => absurd h (by decide), fun _ _ => acceptsChange_of_created ?_⟩
        rw [← hu.faceId]
        exact f.id_text
  · rw [hset]
    have hnamed : ∀ p : Prop, (updates.contains "status" = true → askedStatus updates = "" → p) ↔
        True := fun p => ⟨fun _ => trivial, fun _ _ h => absurd h hasked⟩
    rw [hnamed, true_and]
    by_cases hcompleted : isCompleted (askedStatus updates) = true
    · -- it is completed with an attestation, whatever it was before
      have hspelling := of_decide_eq_true hcompleted
      rcases List.mem_cons.mp hspelling with hcomplete | hcompleted'
      · rw [hcomplete]
        constructor
        · rintro ⟨-, haccepted⟩
          refine ⟨fun _ => ?_, fun h => absurd h (by decide)⟩
          by_contra hne
          exact not_acceptsChange_complete (haccepted (Ne.symm hne) (by decide))
        · rintro ⟨hold, -⟩
          rw [hold rfl]
          exact ⟨fun _ => rfl, fun h => absurd rfl h⟩
      · rw [List.mem_singleton] at hcompleted'
        rw [hcompleted']
        constructor
        · rintro ⟨houtcome, -⟩
          refine ⟨fun h => absurd h (by decide), fun _ hfailed => ?_⟩
          rw [hfailed] at houtcome
          exact absurd (houtcome (by decide)) (by decide)
        · rintro ⟨-, hold⟩
          refine ⟨fun hterminal => ?_, fun _ h => absurd rfl h⟩
          rcases List.mem_cons.mp hterminal with hsame | hfailed
          · exact hsame.symm
          · exact absurd (List.mem_singleton.mp hfailed) (hold rfl)
    · -- the machine was asked
      rw [Bool.not_eq_true] at hcompleted
      refine ⟨fun _ => ⟨fun h => ?_, fun h => ?_⟩, fun _ => ?_⟩
      · rw [h] at hcompleted
        exact absurd hcompleted (by decide)
      · rw [h] at hcompleted
        exact absurd hcompleted (by decide)
      · by_cases hsame : askedStatus updates = f.status
        · exact ⟨fun _ => hsame, fun h => absurd hsame h⟩
        · obtain ⟨haccepts, hopen⟩ :=
            checkTransition_ok f.lowered_status hu.accepted hasked hcompleted hsame
          exact ⟨fun h => absurd h hopen, fun _ _ => haccepts⟩

/-- The lineage stays exactly if the update is careful about it. -/
theorem Updated.lineage_iff (hu : Updated digest textDigest clock id updates attestation file file'
      records existing record r f f') :
    f'.lineage = f.lineage ↔ ∀ k ∈ goalLineageFields, k ≠ "goal_id" →
      (named existing updates k).text = (Val.getIn k existing).toText ∨
        (named existing updates k).text = "" ∧
          ∀ l, readLineage digest textDigest (mergedRecord clock existing updates) id = .ok l →
            l.clean.field k = (Val.getIn k existing).toText := by
  obtain ⟨l, hl, hlineage⟩ := hu.lineage
  have hold : ∀ k ∈ goalLineageFields, (Val.getIn k existing).toText = f.lineage.field k := by
    intro k hk
    rw [hu.shows.lineage k hk]
    rfl
  have hplain : ∀ k ∈ goalLineageFields, k ≠ "goal_id" → isPlain k = true ∧ k ≠ "updated_at" := by
    decide
  constructor
  · intro hsame k hk hgoal
    rw [hold k hk]
    by_cases hblank : (named existing updates k).text = ""
    · refine .inr ⟨hblank, fun l' hl' => ?_⟩
      rw [← Except.ok.inj (hl.symm.trans hl'), ← hlineage, hsame]
    · left
      obtain ⟨hk', hclock⟩ := hplain k hk hgoal
      have hread := readLineage_field hl hk hgoal (by
        rw [getIn_mergedRecord hk' hclock]
        exact hblank)
      rw [getIn_mergedRecord hk' hclock] at hread
      rw [← hread, ← hlineage, hsame]
  · intro hcareful
    refine GoalLineage.ext_fields fun k hk => ?_
    by_cases hgoal : k = "goal_id"
    · rw [hgoal]
      exact f'.lineage_goalId.trans
        (hu.faceId'.trans (hu.faceId.symm.trans f.lineage_goalId.symm))
    · obtain ⟨hk', hclock⟩ := hplain k hk hgoal
      have hcase := hcareful k hk hgoal
      rw [hold k hk] at hcase
      rcases hcase with hsame | ⟨-, hfallback⟩
      · rw [hlineage, readLineage_field hl hk hgoal (by
          rw [getIn_mergedRecord hk' hclock, hsame]
          exact (f.lineage_complete k hk).1), getIn_mergedRecord hk' hclock, hsame]
      · rw [hlineage]
        exact hfallback l hl

theorem Updated.carefulUpdate_iff (hu : Updated digest textDigest clock id updates attestation file
      file' records existing record r f f') :
    CarefulUpdate digest textDigest clock id updates existing ↔
      f'.lineage = f.lineage ∧ (f.status ∈ ["completed", "failed"] → f'.status = f.status) ∧
        (f'.status ≠ f.status → f'.status ≠ "completed" →
          AcceptsChange id f.status f'.status) := by
  rw [hu.lineage_iff, hu.status_iff, ← hu.shows.statusOf]
  exact ⟨fun h => ⟨h.lineage, h.blank, h.spelled, h.reopened⟩, fun h => ⟨h.2.1, h.2.2.1, h.2.2.2, h.1⟩⟩

theorem Updated.get? (hu : Updated digest textDigest clock id updates attestation file file'
      records existing record r f f') :
    file'.get? id = some (Val.sortedEntries record) ∧ f'.Shown (Val.sortedEntries record) := by
  refine ⟨?_, Face.Stored.shown ⟨record, hu.shows', rfl⟩⟩
  rw [hu.written, Dict.get?_mapValues, Dict.get?_set, if_pos rfl]
  rfl

variable {id' : String}

theorem shown_of_other {file records : Records} (hfile : Settled file)
    (hread : readRecords digest textDigest clock file = .ok records) {written : Records}
    (hwritten : written.get? id' = (records.get? id').map Val.sortedEntries) {r : Entries}
    (hr : file.get? id' = some r) :
    ∃ (f : Face) (r' : Entries),
      f.Shown r ∧ written.get? id' = some r' ∧ f.Stored r' ∧ f.goalId = id' := by
  have hrecords := readRecords_ok hfile hread id'
  rw [hr] at hrecords
  obtain ⟨f, record, hstored, hid, hof, hget⟩ := hrecords
  rw [hget] at hwritten
  exact ⟨f, Val.sortedEntries record, hstored.shown, hwritten, ⟨record, hof, rfl⟩, hid⟩

theorem none_of_other {file records : Records} (hfile : Settled file)
    (hread : readRecords digest textDigest clock file = .ok records) {written : Records}
    (hwritten : written.get? id' = (records.get? id').map Val.sortedEntries)
    (hr : file.get? id' = none) : written.get? id' = none := by
  have hrecords := readRecords_ok hfile hread id'
  rw [hr] at hrecords
  rw [hwritten, hrecords]
  rfl

theorem Updated.other (hu : Updated digest textDigest clock id updates attestation file file'
      records existing record r f f') (hne : id' ≠ id) :
    file'.get? id' = (records.get? id').map Val.sortedEntries := by
  rw [hu.written, Dict.get?_mapValues, Dict.get?_set, if_neg hne]

theorem Updated.stepLaw_iff (hfile : Settled file)
    (hu : Updated digest textDigest clock id updates attestation file file' records existing record
      r f f') (goalId : Val) (u : Option (Dict String Val)) :
    StepLaw digest file file' (.update clock goalId u attestation) ↔
      CarefulUpdate digest textDigest clock id updates existing := by
  obtain ⟨hget, hshown⟩ := hu.get?
  have hold := hu.face.shown
  rw [hu.carefulUpdate_iff]
  constructor
  · intro hlaw
    obtain ⟨r', hr', hkept⟩ := hlaw.kept id r hu.stored
    rw [hget] at hr'
    rw [← Option.some.inj hr'] at hkept
    have hidentity := (identity_iff hold hshown).mp hkept.identity
    have houtcome := hkept.outcome
    have haccepted := hlaw.changes.accepted id r _ hu.stored hget
    rw [hold.statusOf, hshown.statusOf] at houtcome haccepted
    exact ⟨hidentity.2, houtcome, haccepted⟩
  · rintro ⟨hlineage, houtcome, haccepted⟩
    refine ⟨fun id' r₀ hr₀ => ?_, fun id' r' hr' hstatus hbefore => ?_,
      fun id' r₀ r' hr₀ hr' hne hopen => ?_⟩
    · by_cases hid : id' = id
      · rw [hid, hu.stored] at hr₀
        rw [hid, ← Option.some.inj hr₀]
        refine ⟨_, hget, (identity_iff hold hshown).mpr ⟨hu.createdAt, hlineage⟩, ?_⟩
        rw [hold.statusOf, hshown.statusOf]
        exact houtcome
      · obtain ⟨f₀, r', hshown₀, hr', hstored', -⟩ := shown_of_other hfile hu.read (hu.other hid) hr₀
        exact ⟨r', hr', (kept_of_shown hshown₀ hstored'.shown).1⟩
    · by_cases hid : id' = id
      · rw [hid, hget] at hr'
        rw [hid] at hbefore ⊢
        rw [← Option.some.inj hr'] at hstatus ⊢
        have hasked : askedStatus updates = "completed" := by
          rw [hshown.statusOf] at hstatus
          rcases hu.status_cases with ⟨-, -, hsame⟩ | ⟨-, -, hpending⟩ | ⟨-, hset⟩
          · exact absurd (hold.statusOf.trans (hsame.symm.trans hstatus)) (hbefore r hu.stored)
          · rw [hpending] at hstatus
            exact absurd hstatus (by decide)
          · exact hset.symm.trans hstatus
        have hattested := hu.attested (by rw [hasked]; decide)
        unfold Attested
        rw [hshown.nested, hshown.lineage "session_id" (by decide),
          accepted_sorted f'.lineage_complete, hlineage]
        rw [hu.shows.nested, hu.shows.lineage "session_id" (by decide)] at hattested
        exact hattested
      · cases hr₀ : file.get? id' with
        | none =>
          rw [none_of_other hfile hu.read (hu.other hid) hr₀] at hr'
          cases hr'
        | some r₀ =>
          obtain ⟨f₀, r'', hshown₀, hr'', hstored', -⟩ :=
            shown_of_other hfile hu.read (hu.other hid) hr₀
          rw [hr''] at hr'
          rw [← Option.some.inj hr'] at hstatus
          exact absurd ((kept_of_shown hshown₀ hstored'.shown).2.symm.trans hstatus)
            (hbefore r₀ hr₀)
    · by_cases hid : id' = id
      · rw [hid] at hr₀ hr' ⊢
        rw [hu.stored] at hr₀
        rw [hget] at hr'
        rw [← Option.some.inj hr', hshown.statusOf] at hne hopen ⊢
        rw [← Option.some.inj hr₀, hold.statusOf] at hne ⊢
        exact haccepted hne hopen
      · obtain ⟨f₀, r'', hshown₀, hr'', hstored', -⟩ :=
          shown_of_other hfile hu.read (hu.other hid) hr₀
        rw [hr''] at hr'
        rw [← Option.some.inj hr'] at hne
        exact absurd (kept_of_shown hshown₀ hstored'.shown).2 hne

end Update

theorem Updated.settled {id : String} {updates : Dict String Val} {existing record : Entries}
    {f' : Face} (hfile : Settled file)
    (hu : Updated digest textDigest clock id updates attestation file file' records existing record
      r f f') : Settled file' := by
  intro id' r' hr'
  by_cases hid : id' = id
  · rw [hid, hu.get?.1] at hr'
    rw [hid, ← Option.some.inj hr']
    exact ⟨f', ⟨record, hu.shows', rfl⟩, hu.faceId'⟩
  · cases hr₀ : file.get? id' with
    | none =>
      rw [none_of_other hfile hu.read (hu.other hid) hr₀] at hr'
      cases hr'
    | some r₀ =>
      obtain ⟨f₀, r'', -, hr'', hstored, hid₀⟩ := shown_of_other hfile hu.read (hu.other hid) hr₀
      rw [hr''] at hr'
      rw [← Option.some.inj hr']
      exact ⟨f₀, hstored, hid₀⟩

/-! ## Saving -/

/-- What `save_goal` writes: the other records as they were read, and a new one. -/
theorem saveGoal_ok {goal : Val} {fields : Entries} (hfile : Settled file)
    (h : saveGoal digest textDigest nameDigest clock goal fields attestation file = .ok file') :
    ∃ records record, ∃ f : Face, readRecords digest textDigest clock file = .ok records ∧
      f.Of record ∧ file.get? f.goalId = none ∧
      (isCompleted f.status = true →
        isAcceptedGoalCompletionResult digest attestation f.goalId (Val.getIn "session_id" record)
          (Val.getIn "goal_lineage" record) = true) ∧
      file' = (records.set f.goalId record).mapValues Val.sortedEntries := by
  unfold saveGoal at h
  obtain ⟨records, hread, h⟩ := bind_eq_ok.mp h
  obtain ⟨⟨g, record⟩, hrecord, h⟩ := bind_eq_ok.mp h
  dsimp only at h
  obtain ⟨f, hof, hid, hstatus, -⟩ := toRecord_ok hrecord
  have hgoal : g.status = f.status := by
    unfold toRecord at hrecord
    obtain ⟨g', hg', hrecord⟩ := bind_eq_ok.mp hrecord
    obtain ⟨record', -, hrecord⟩ := bind_eq_ok.mp hrecord
    obtain ⟨hsame, -⟩ := Prod.mk.inj (Except.ok.inj hrecord)
    rw [← hsame, hstatus]
    exact (fromMapping_ok hg').2.2.1
  split at h
  · cases h
  · rename_i hattested
    split at h
    · cases h
    · rename_i hnew
      refine ⟨records, record, f, hread, hof, ?_, fun hcompleted => ?_, ?_⟩
      · cases hr : file.get? f.goalId with
        | none => rfl
        | some r =>
          have hrecords := readRecords_ok hfile hread f.goalId
          rw [hr] at hrecords
          obtain ⟨_, record', -, -, -, hget⟩ := hrecords
          refine absurd ?_ hnew
          unfold Dict.contains
          rw [← hid, hget]
          rfl
      · by_contra hno
        refine hattested ?_
        rw [Bool.and_eq_true, Bool.not_eq_true', ← Bool.not_eq_true, hgoal, ← hid]
        exact ⟨hcompleted, hno⟩
      · rw [hid]
        exact writeRecords_ok h

theorem save_stepLaw {goal : Val} {fields : Entries} (hfile : Settled file)
    (h : saveGoal digest textDigest nameDigest clock goal fields attestation file = .ok file') :
    StepLaw digest file file' (.save clock goal fields attestation) ∧ Settled file' := by
  obtain ⟨records, record, f, hread, hof, hnew, hattested, hwritten⟩ := saveGoal_ok hfile h
  have hget : file'.get? f.goalId = some (Val.sortedEntries record) := by
    rw [hwritten, Dict.get?_mapValues, Dict.get?_set, if_pos rfl]
    rfl
  have hstored : f.Stored (Val.sortedEntries record) := ⟨record, hof, rfl⟩
  have hother : ∀ {id}, id ≠ f.goalId →
      file'.get? id = (records.get? id).map Val.sortedEntries := by
    intro id hne
    rw [hwritten, Dict.get?_mapValues, Dict.get?_set, if_neg hne]
  have hold : ∀ {id r}, file.get? id = some r → id ≠ f.goalId := by
    intro id r hr hid
    rw [hid, hnew] at hr
    cases hr
  refine ⟨⟨fun id r hr => ?_, fun id r' hr' hstatus hbefore => ?_,
    fun id r r' hr hr' hne hopen => ?_⟩, fun id r' hr' => ?_⟩
  · obtain ⟨f₀, r', hshown, hr', hstored', -⟩ := shown_of_other hfile hread (hother (hold hr)) hr
    exact ⟨r', hr', (kept_of_shown hshown hstored'.shown).1⟩
  · by_cases hid : id = f.goalId
    · rw [hid, hget] at hr'
      have hshown := hstored.shown
      rw [hid, ← Option.some.inj hr']
      rw [← Option.some.inj hr', hshown.statusOf] at hstatus
      have haccepted := hattested (by rw [hstatus]; decide)
      unfold Attested
      rw [hshown.nested, hshown.lineage "session_id" (by decide),
        accepted_sorted f.lineage_complete]
      rw [hof.nested, hof.lineage "session_id" (by decide)] at haccepted
      exact haccepted
    · cases hr : file.get? id with
      | none =>
        rw [none_of_other hfile hread (hother hid) hr] at hr'
        cases hr'
      | some r =>
        obtain ⟨f₀, r'', hshown, hr'', hstored', -⟩ := shown_of_other hfile hread (hother hid) hr
        rw [hr''] at hr'
        rw [← Option.some.inj hr'] at hstatus
        exact absurd ((kept_of_shown hshown hstored'.shown).2.symm.trans hstatus) (hbefore r hr)
  · obtain ⟨f₀, r'', hshown, hr'', hstored', -⟩ := shown_of_other hfile hread (hother (hold hr)) hr
    rw [hr''] at hr'
    rw [← Option.some.inj hr'] at hne
    exact absurd (kept_of_shown hshown hstored'.shown).2 hne
  · by_cases hid : id = f.goalId
    · rw [hid, hget] at hr'
      rw [hid, ← Option.some.inj hr']
      exact ⟨f, hstored, rfl⟩
    · cases hr : file.get? id with
      | none =>
        rw [none_of_other hfile hread (hother hid) hr] at hr'
        cases hr'
      | some r =>
        obtain ⟨f₀, r'', -, hr'', hstored', hid₀⟩ := shown_of_other hfile hread (hother hid) hr
        rw [hr''] at hr'
        rw [← Option.some.inj hr']
        exact ⟨f₀, hstored', hid₀⟩

/-! ## Runs -/

theorem careful_update_iff {goalId : Val} {u : Dict String Val} {existing record : Entries}
    {f' : Face} (hu : updates = some u)
    (hup : Updated digest textDigest clock (cleanText goalId "") u attestation file file' records
      existing record r f f') :
    Careful digest textDigest file (.update clock goalId updates attestation) ↔
      CarefulUpdate digest textDigest clock (cleanText goalId "") u existing := by
  constructor
  · exact fun h => h u records existing hu hup.read hup.found
  · intro h u' records' existing' hu' hread' hfound'
    have hrecords : records = records' := Except.ok.inj (hup.read.symm.trans hread')
    have hexisting : existing = existing' := by
      rw [← hrecords, hup.found] at hfound'
      exact Option.some.inj hfound'
    rw [← Option.some.inj (hu.symm.trans hu'), ← hexisting]
    exact h

variable (digest textDigest nameDigest) in
/-- The call comes to an end. -/
def Returns (file : Records) (c : Call) : Prop :=
  ∃ file', c.result digest textDigest nameDigest file = .ok file'

variable (digest textDigest nameDigest) in
/-- What a call leaves, whether it returns or not. -/
def after (file : Records) (c : Call) : Records :=
  ((repository digest textDigest nameDigest).step file c).2

theorem stepLaw_iff (hfile : Settled file) (c : Call) :
    (StepLaw digest file (after digest textDigest nameDigest file c) c ↔
      (Returns digest textDigest nameDigest file c → Careful digest textDigest file c)) ∧
    Settled (after digest textDigest nameDigest file c) := by
  unfold after repository Returns
  dsimp only
  cases hresult : c.result digest textDigest nameDigest file with
  | error e =>
    refine ⟨⟨fun _ => ?_, fun _ => stepLaw_refl file c⟩, hfile⟩
    rintro ⟨file', hfile'⟩
    cases hfile'
  | ok file' =>
    dsimp only
    cases c with
    | save clock goal fields attestation =>
      obtain ⟨hlaw, hsettled⟩ := save_stepLaw hfile hresult
      exact ⟨⟨fun _ _ => trivial, fun _ => hlaw⟩, hsettled⟩
    | update clock goalId updates attestation =>
      obtain ⟨u, records, existing, record, r, f, f', hu, hup⟩ := updateGoal_ok hfile hresult
      refine ⟨?_, hup.settled hfile⟩
      rw [hup.stepLaw_iff hfile goalId updates, careful_update_iff hu hup]
      exact ⟨fun h _ => h, fun h => h ⟨file', rfl⟩⟩

theorem settled_empty : Settled Dict.empty := by
  intro id r hr
  cases hr

variable (digest textDigest nameDigest) in
def fileAfter (calls : List Call) : Records :=
  (repository digest textDigest nameDigest).run Dict.empty calls

variable (digest textDigest nameDigest) in
/-- Every record of a goal keeps what it was from then on, and every call changes the statuses as it
may. -/
structure Lawful (calls : List Call) : Prop where
  kept : ∀ before later, before ++ later <+: calls → ∀ id r,
    (fileAfter digest textDigest nameDigest before).get? id = some r →
    ∃ r', (fileAfter digest textDigest nameDigest (before ++ later)).get? id = some r' ∧ Kept r r'
  changes : ∀ before c, before ++ [c] <+: calls →
    Changes digest (fileAfter digest textDigest nameDigest before)
      (fileAfter digest textDigest nameDigest (before ++ [c])) c

theorem fileAfter_snoc (before : List Call) (c : Call) :
    fileAfter digest textDigest nameDigest (before ++ [c]) =
      after digest textDigest nameDigest (fileAfter digest textDigest nameDigest before) c :=
  Machine.run_snoc _ _ _

/-- The law of a run is the law of each of its calls. -/
theorem lawful_iff_guarded (calls : List Call) :
    Lawful digest textDigest nameDigest calls ↔
      (repository digest textDigest nameDigest).Guarded
        (fun file c => StepLaw digest file (after digest textDigest nameDigest file c) c)
        Dict.empty calls := by
  rw [Machine.guarded_iff_prefix]
  constructor
  · intro h before c hpre
    have hkept := h.kept before [c] hpre
    have hchanges := h.changes before c hpre
    rw [fileAfter_snoc] at hkept hchanges
    exact ⟨hkept, hchanges⟩
  · intro h
    refine ⟨fun before later => ?_, fun before c hpre => ?_⟩
    · induction later using List.reverseRecOn with
      | nil =>
        intro _ id r hr
        rw [List.append_nil]
        exact ⟨r, hr, kept_refl r⟩
      | append_singleton later c ih =>
        intro hpre id r hr
        rw [← List.append_assoc] at hpre ⊢
        obtain ⟨r', hr', hkept⟩ := ih ((List.prefix_append _ _).trans hpre) id r hr
        obtain ⟨r'', hr'', hkept'⟩ := (h (before ++ later) c hpre).kept id r' hr'
        rw [fileAfter_snoc]
        exact ⟨r'', hr'', hkept.trans hkept'⟩
    · rw [fileAfter_snoc]
      exact (h before c hpre).changes

/-- A run is lawful exactly if every call that returns is careful. -/
theorem goals_kept_iff_careful (calls : List Call) :
    Lawful digest textDigest nameDigest calls ↔
      (repository digest textDigest nameDigest).Guarded
        (fun file c => Returns digest textDigest nameDigest file c →
          Careful digest textDigest file c) Dict.empty calls := by
  rw [lawful_iff_guarded]
  exact Machine.guarded_iff_of_invariant
    (fun file c (hfile : Settled file) => (stepLaw_iff hfile c).1)
    (fun file c hfile _ => (stepLaw_iff hfile c).2) settled_empty

end Digest

/-! ## A failed goal that is pending again -/

def sampleClock : Clock where
  seconds := .other "1.5" true true
  isFloat _ := rfl
  nanoseconds := 0

def savedFailed : Call :=
  .save sampleClock (.dict [("goal_id", .str "g"), ("status", .str "failed")]) [] none

/-- The status is given, but is `None`. -/
def blankStatus : Call :=
  .update sampleClock (.str "g") (some (Dict.empty.set "status" .none)) none

def sampleDigest : String := "0123456789abcdef0123"

def sampleStatus (calls : List Call) : Option String :=
  ((fileAfter (fun _ => sampleDigest) (fun _ => sampleDigest) (fun _ => sampleDigest)
    calls).get? "g").map statusOf

theorem failed_pending_again :
    ¬Lawful (fun _ => sampleDigest) (fun _ => sampleDigest) (fun _ => sampleDigest)
      [savedFailed, blankStatus] := by
  intro h
  obtain ⟨hbefore, hafter⟩ : sampleStatus [savedFailed] = some "failed" ∧
      sampleStatus [savedFailed, blankStatus] = some "pending" := by
    decide +kernel
  obtain ⟨r, hr, hfailed⟩ := Option.map_eq_some_iff.mp hbefore
  obtain ⟨r', hr', hkept⟩ := h.kept [savedFailed] [blankStatus] (List.prefix_refl _) "g" r hr
  obtain ⟨r'', hr'', hpending⟩ := Option.map_eq_some_iff.mp hafter
  have hsame : r' = r'' := Option.some.inj (hr'.symm.trans hr'')
  have houtcome := hkept.outcome (by rw [hfailed]; decide)
  rw [hsame, hpending, hfailed] at houtcome
  exact absurd houtcome (by decide)

end Goals
end ZeroRuntime
