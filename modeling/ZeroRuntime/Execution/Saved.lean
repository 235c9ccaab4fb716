import ZeroRuntime.Execution.Pending

/-!
# ZeroRuntime.Execution.Saved

A registry is saved and loaded.

* `Registry.normal`: the registry with the mappings in its values sorted. `answer_normal`: no call
  can tell the two apart, but for the order of the keys in what it answers.
* `SurvivesSave`: the registry is loaded as it was saved, and later calls behave alike.
  `survives_save_iff`: this asks that the entries were registered in the order of their ids, and
  that JSON has all their values.
-/

namespace ZeroRuntime
namespace Execution

open Lib Sessions Missions

/-! ## Values with sorted mappings -/

section Values

theorem sorted_dictVal_mapValues {α : Type} {toVal : α → Val} {f : α → α}
    (h : ∀ x, (toVal (f x)).sorted = (toVal x).sorted) (d : Dict String α) :
    (dictVal toVal (d.mapValues f)).sorted = (dictVal toVal d).sorted := by
  unfold dictVal
  rw [Dict.mapValues_mapValues, Val.sorted_dict, Val.sorted_dict]
  refine congrArg Val.dict (Val.sortedEntries_eq_of_map ?_)
  unfold Dict.mapValues
  dsimp only
  rw [List.map_map, List.map_map]
  exact List.map_congr_left fun e _ => congrArg (Prod.mk e.1) (h e.2)

theorem sorted_dictVal_sortKeys {α : Type} (toVal : α → Val) (d : Dict String α) :
    (dictVal toVal d.sortKeys).sorted = (dictVal toVal d).sorted := by
  refine Val.sorted_dict_congr (d.sortKeys.mapValues toVal).nodup ?_
  exact (d.sortKeys_perm.map _).map _

end Values

namespace ExecutionRequest

theorem toVal_written (r : ExecutionRequest) : r.written.toVal.sorted = r.toVal.sorted := by
  refine congrArg Val.dict (Val.sortedEntries_eq_of_map ?_)
  simp [unsigned, written, Val.sorted_sorted]

theorem written_written (r : ExecutionRequest) : r.written.written = r.written := by
  simp [written, Val.sorted_sorted]

end ExecutionRequest

namespace RegistryEntry

theorem sorted_unsigned_written (e : RegistryEntry) :
    Val.sortedEntries e.written.unsigned = Val.sortedEntries e.unsigned := by
  refine Val.sortedEntries_eq_of_map ?_
  simp [unsigned, written, Val.sorted_sorted, ExecutionRequest.toVal_written]

theorem toVal_written (e : RegistryEntry) : e.written.toVal.sorted = e.toVal.sorted := by
  refine congrArg Val.dict (Val.sortedEntries_eq_of_map ?_)
  simp [unsigned, written, Val.sorted_sorted, ExecutionRequest.toVal_written]

theorem written_written (e : RegistryEntry) : e.written.written = e.written := by
  simp [written, Val.sorted_sorted, ExecutionRequest.written_written]

end RegistryEntry

namespace CompletionRecord

theorem toVal_written (r : CompletionRecord) : r.written.toVal.sorted = r.toVal.sorted := by
  refine congrArg Val.dict (Val.sortedEntries_eq_of_map ?_)
  simp [unsigned, written, Val.sorted_sorted]

theorem written_written (r : CompletionRecord) : r.written.written = r.written := by
  simp [written, Val.sorted_sorted]

end CompletionRecord

namespace Completion

theorem written_written (c : Completion) : c.written.written = c.written := by
  unfold written
  dsimp only
  rw [Dict.sortKeys_mapValues, Dict.mapValues_mapValues]
  simp only [CompletionRecord.written_written]

theorem sorted_fields_written (c : Completion) :
    (c.written.fields.map fun e => (e.1, e.2.sorted)) = c.fields.map fun e => (e.1, e.2.sorted) := by
  have hrecords : (dictVal CompletionRecord.toVal c.written.records).sorted =
      (dictVal CompletionRecord.toVal c.records).sorted := by
    unfold written
    rw [sorted_dictVal_sortKeys, sorted_dictVal_mapValues CompletionRecord.toVal_written]
  simp only [fields, List.map_cons, List.map_nil, hrecords]
  rfl

end Completion

/-! ## The registry with sorted values -/

namespace Registry

/-- The registry with every value as it is read back, and the entries where they are. -/
def normal (r : Registry) : Registry :=
  { r with
    entries := r.entries.mapValues RegistryEntry.written
    completion := r.completion.map Completion.written }

theorem map_unsigned_normal (r : Registry) :
    (r.normal.unsigned.map fun e => (e.1, e.2.sorted)) =
      r.unsigned.map fun e => (e.1, e.2.sorted) := by
  have hentries : (dictVal RegistryEntry.toVal r.normal.entries).sorted =
      (dictVal RegistryEntry.toVal r.entries).sorted :=
    sorted_dictVal_mapValues RegistryEntry.toVal_written r.entries
  unfold unsigned
  simp only [List.map_append, List.map_cons, List.map_nil, hentries]
  refine congrArg₂ (· ++ ·) rfl ?_
  unfold normal
  cases r.completion with
  | none => rfl
  | some c => exact c.sorted_fields_written

theorem sorted_toVal_normal (r : Registry) : r.normal.toVal.sorted = r.toVal.sorted := by
  refine congrArg Val.dict (Val.sortedEntries_eq_of_map ?_)
  rw [List.map_append, List.map_append, map_unsigned_normal]
  rfl

theorem completion_normal (r : Registry) :
    r.normal.completion.map Completion.written = r.normal.completion := by
  unfold normal
  cases r.completion with
  | none => rfl
  | some c => exact congrArg some c.written_written

theorem entries_normal (r : Registry) :
    r.normal.entries.mapValues RegistryEntry.written = r.normal.entries := by
  unfold normal
  dsimp only
  rw [Dict.mapValues_mapValues]
  simp only [RegistryEntry.written_written]

theorem normal_normal (r : Registry) : r.normal.normal = r.normal := by
  rw [normal, entries_normal, completion_normal]

theorem written_normal (r : Registry) : r.normal.written = r.written := by
  rw [written, entries_normal, completion_normal]
  rfl

/-- Where the entries are in the order of their ids, only values change. -/
theorem written_of_inOrder {r : Registry} (h : r.entries.keys.Pairwise TextLe) :
    r.written = r.normal := by
  unfold written normal
  rw [Dict.sortKeys_eq_self]
  rw [Dict.keys_mapValues]
  exact h

end Registry

section Digest

variable {hash : Val → String} {r r' : Registry} {e : RegistryEntry} {now : Instant}

/-! ## Entries -/

theorem fingerprint_written (e : RegistryEntry) :
    fingerprint hash (.dict e.written.unsigned) = fingerprint hash (.dict e.unsigned) := by
  unfold fingerprint
  rw [Val.sorted_dict, Val.sorted_dict, e.sorted_unsigned_written]

theorem seal_written (e : RegistryEntry) :
    sealRegistryEntry hash e.written = (sealRegistryEntry hash e).written := by
  unfold sealRegistryEntry
  rw [fingerprint_written]
  rfl

theorem consumedEntry_written (e : RegistryEntry) (result : String) :
    consumedEntry hash e.written result now = (consumedEntry hash e result now).written := by
  unfold consumedEntry
  rw [← seal_written]
  rfl

theorem settleEntry_written (sessionId : Val) (result : String) (e : RegistryEntry) :
    settleEntry hash sessionId result now e.written =
      (settleEntry hash sessionId result now e).written := by
  unfold settleEntry
  rw [consumedEntry_written]
  change (if Val.eq (.str e.sessionId) sessionId && e.entryStatus = .registered then _ else _) = _
  split
  · rfl
  · rfl

theorem validateRegistryEntry_written (e : RegistryEntry) :
    validateRegistryEntry hash e.written = validateRegistryEntry hash e := by
  unfold validateRegistryEntry
  rw [fingerprint_written]
  change reasonIf _ _ ++ _ ++ _ ++ _ ++ _ ++ _ ++ _ ++ _ ++ _ ++
    reasonIf (!Val.eq e.executionRequest.sessionId.sorted (.str e.sessionId)) _ ++ _ ++ _ ++ _ ++
      _ ++ _ = _
  rw [Val.eq_sorted_left]
  rfl

/-! ## Registries -/

theorem fingerprint_normal (r : Registry) :
    fingerprint hash (.dict r.normal.unsigned) = fingerprint hash (.dict r.unsigned) := by
  unfold fingerprint
  rw [Val.sorted_dict, Val.sorted_dict, Val.sortedEntries_eq_of_map r.map_unsigned_normal]

theorem seal_normal (r : Registry) :
    sealGoalExecutionRegistry hash r.normal = (sealGoalExecutionRegistry hash r).normal := by
  unfold sealGoalExecutionRegistry
  rw [fingerprint_normal]
  rfl

theorem validate_normal (r : Registry) :
    validateGoalExecutionRegistry hash r.normal = validateGoalExecutionRegistry hash r := by
  have hkeys : r.normal.entries.keys = r.entries.keys := Dict.keys_mapValues _ _
  have hentries : r.normal.entries.entries.flatMap (fun e =>
        reasonIf (e.2.entryId ≠ e.1) "registry_entry_identity_mismatch" ++
          validateRegistryEntry hash e.2) =
      r.entries.entries.flatMap (fun e =>
        reasonIf (e.2.entryId ≠ e.1) "registry_entry_identity_mismatch" ++
          validateRegistryEntry hash e.2) := by
    change (r.entries.entries.map _).flatMap _ = _
    rw [List.flatMap_map]
    simp only [validateRegistryEntry_written]
    rfl
  have hlength : r.normal.entries.entries.length = r.entries.entries.length := List.length_map _
  unfold validateGoalExecutionRegistry
  rw [fingerprint_normal, hkeys, hentries, hlength]
  rfl

/-! ## Calls -/

/-- Two answers that are alike are the same error, or two states that are alike. -/
theorem alike_cases {σ : Type} {n : σ → σ} {x y : Except Err σ} (h : x.map n = y.map n) :
    (∃ err, x = .error err ∧ y = .error err) ∨ ∃ s s', x = .ok s ∧ y = .ok s' ∧ n s = n s' := by
  cases x with
  | error err =>
    cases y with
    | error err' =>
      cases h
      exact .inl ⟨err, rfl, rfl⟩
    | ok s' => cases h
  | ok s =>
    cases y with
    | error err' => cases h
    | ok s' => exact .inr ⟨s, s', rfl, rfl, Except.ok.inj h⟩

/-- A loop whose turns answer alike in states that are alike does so itself. -/
theorem foldlM_map_congr {σ α : Type} {n : σ → σ} {f : σ → α → Except Err σ}
    (h : ∀ s s' x, n s = n s' → (f s x).map n = (f s' x).map n) (xs : List α) {s s' : σ}
    (hs : n s = n s') : (xs.foldlM f s).map n = (xs.foldlM f s').map n := by
  induction xs generalizing s s' with
  | nil => exact congrArg Except.ok hs
  | cons x xs ih =>
    rw [List.foldlM_cons, List.foldlM_cons]
    obtain ⟨err, hf, hf'⟩ | ⟨next, next', hf, hf', hnext⟩ := alike_cases (h s s' x hs)
    · rw [hf, hf']
    · rw [hf, hf']
      exact ih hnext

/-- An answer, whatever the order of the keys of the mappings in its values. -/
def shown (answer : Except Err Registry) : Except Err Registry := answer.map Registry.normal

theorem get?_normal (r : Registry) (id : String) :
    r.normal.entries.get? id = (r.entries.get? id).map RegistryEntry.written :=
  Dict.get?_mapValues _ _ _

theorem withEntry_normal (r : Registry) (e : RegistryEntry) :
    (withEntry hash r.normal e now).normal = (withEntry hash r e now).normal := by
  have hentries : (r.normal.entries.set e.entryId e).mapValues RegistryEntry.written =
      (r.entries.set e.entryId e).mapValues RegistryEntry.written := by
    rw [Dict.mapValues_set, Dict.mapValues_set, r.entries_normal]
    rfl
  have hlength : (r.normal.entries.set e.entryId e).entries.length =
      (r.entries.set e.entryId e).entries.length := by
    have h := congrArg (fun d => d.entries.length) hentries
    simpa only [Dict.mapValues, List.length_map] using h
  unfold withEntry
  dsimp only
  rw [← seal_normal, ← seal_normal, hlength]
  refine congrArg _ ?_
  dsimp only [Registry.normal]
  congr 1
  exact r.completion_normal

theorem shown_register (r : Registry) (mission goal session : Entries) (artifactRoot : Val) :
    shown (registerGoalExecutionRequest hash r.normal mission goal session artifactRoot now) =
      shown (registerGoalExecutionRequest hash r mission goal session artifactRoot now) := by
  have hvalid : ∀ e, validateGoalExecutionRegistry hash (withEntry hash r.normal e now) =
      validateGoalExecutionRegistry hash (withEntry hash r e now) := by
    intro e
    rw [← validate_normal, withEntry_normal, validate_normal]
  have hregistry : r.normal.registryId = r.registryId := rfl
  unfold registerGoalExecutionRequest
  rw [validate_normal, hregistry]
  cases requireNone (validateGoalExecutionRegistry hash r) with
  | error err => dsimp only [bind, Except.bind]
  | ok u =>
    change shown (if r.registryStatus ≠ .active then _ else _) = shown (if _ then _ else _)
    split
    · rfl
    cases requireNone (sortedSet
        (registrationReasons (normalizeGoal hash mission goal) session artifactRoot)) with
    | error err => rfl
    | ok u =>
      generalize newEntry hash r.registryId mission goal session artifactRoot now = e
      dsimp only [bind, Except.bind]
      rw [get?_normal, hvalid]
      cases r.entries.get? e.entryId with
      | some existing =>
        change shown (if existing.executionRequestFingerprint ≠ _ then _ else _) =
          shown (if _ then _ else _)
        split
        · rfl
        · rw [seal_normal]
          exact congrArg Except.ok (Registry.normal_normal _)
      | none =>
        dsimp only [Option.map]
        cases requireNone (validateGoalExecutionRegistry hash (withEntry hash r e now)) with
        | error err => rfl
        | ok u => exact congrArg Except.ok (withEntry_normal r e)

theorem shown_consume (r : Registry) (entryId result : Val) :
    shown (markRegistryEntryConsumed hash r.normal entryId result now) =
      shown (markRegistryEntryConsumed hash r entryId result now) := by
  unfold markRegistryEntryConsumed
  rw [validate_normal, get?_normal]
  cases requireNone (validateGoalExecutionRegistry hash r) with
  | error err => rfl
  | ok u =>
    cases r.entries.get? entryId.text with
    | none => rfl
    | some e =>
      dsimp only [bind, Except.bind, Option.map]
      split
      · rfl
      have hstatus : e.written.entryStatus = e.entryStatus := rfl
      have hresult : e.written.executionResultFingerprint = e.executionResultFingerprint := rfl
      rw [hstatus, hresult]
      cases e.entryStatus with
      | consumed =>
        dsimp only
        split
        · rfl
        · rw [seal_normal]
          exact congrArg Except.ok (Registry.normal_normal _)
      | invalidated => rfl
      | registered =>
        refine congrArg Except.ok ?_
        rw [← seal_normal, ← seal_normal, consumedEntry_written]
        refine congrArg _ ?_
        have hentries : (r.normal.entries.set entryId.text
              (consumedEntry hash e result.text now).written).mapValues RegistryEntry.written =
            (r.entries.set entryId.text
              (consumedEntry hash e result.text now)).mapValues RegistryEntry.written := by
          rw [Dict.mapValues_set, Dict.mapValues_set, r.entries_normal,
            RegistryEntry.written_written]
          rfl
        dsimp only [Registry.normal]
        congr 1
        exact r.completion_normal

theorem mapValues_settleEntry (sessionId : Val) (result : String)
    (d : Dict String RegistryEntry) :
    (d.mapValues (settleEntry hash sessionId result now)).mapValues RegistryEntry.written =
      (d.mapValues RegistryEntry.written).mapValues (settleEntry hash sessionId result now) := by
  rw [Dict.mapValues_mapValues, Dict.mapValues_mapValues]
  simp only [settleEntry_written]

/-- What the loop over the goals works on, whatever the order of the keys. -/
def Settled.normal (s : Settled) : Settled :=
  ((s.1.mapValues CompletionRecord.written).sortKeys, s.2.mapValues RegistryEntry.written)

theorem get?_settled_normal (s : Settled) (id : String) :
    (Settled.normal s).1.get? id = (s.1.get? id).map CompletionRecord.written := by
  unfold Settled.normal
  rw [Dict.get?_sortKeys, Dict.get?_mapValues]

theorem settleGoal_congr {registryId : String} {mission sessions : Entries} {s s' : Settled}
    (goalId : Val) (h : Settled.normal s = Settled.normal s') :
    (settleGoal hash registryId mission sessions now s goalId).map Settled.normal =
      (settleGoal hash registryId mission sessions now s' goalId).map Settled.normal := by
  have hmatch : ∀ (s : Settled) (record : CompletionRecord),
      ((s.1.get? record.recordId).any fun existing => !Val.eq existing.toVal record.toVal) =
        ((Settled.normal s).1.get? record.recordId).any fun existing =>
          !Val.eq existing.toVal record.toVal := by
    intro s record
    rw [get?_settled_normal]
    cases s.1.get? record.recordId with
    | none => rfl
    | some existing =>
      change (!Val.eq existing.toVal record.toVal) = (!Val.eq existing.written.toVal record.toVal)
      rw [← Val.eq_sorted_left existing.toVal, ← Val.eq_sorted_left existing.written.toVal,
        existing.toVal_written]
  unfold settleGoal
  cases lookup goalId (Val.getIn "goals" mission).entries with
  | error err => rfl
  | ok goal =>
    dsimp only [bind, Except.bind]
    split
    · rfl
    cases lookup goalId sessions with
    | error err => rfl
    | ok session =>
      dsimp only
      rw [hmatch s, hmatch s', h]
      split
      · rfl
      · refine congrArg Except.ok (Prod.ext ?_ ?_)
        · have hrecords := congrArg Prod.fst h
          unfold Settled.normal at hrecords ⊢
          dsimp only at hrecords ⊢
          rw [Dict.mapValues_set, Dict.mapValues_set, ← Dict.sortKeys_set, hrecords,
            Dict.sortKeys_set]
        · have hentries := congrArg Prod.snd h
          unfold Settled.normal at hentries ⊢
          dsimp only at hentries ⊢
          rw [mapValues_settleEntry, mapValues_settleEntry, hentries]

theorem records_normal (r : Registry) :
    ((((r.normal.completion.map Completion.records).getD Dict.empty).mapValues
      CompletionRecord.written).sortKeys) =
    (((r.completion.map Completion.records).getD Dict.empty).mapValues
      CompletionRecord.written).sortKeys := by
  unfold Registry.normal
  cases r.completion with
  | none => rfl
  | some c =>
    dsimp only [Option.map, Option.getD, Completion.written]
    rw [Dict.sortKeys_mapValues, Dict.mapValues_mapValues]
    simp only [CompletionRecord.written_written]

theorem shown_finalize (r : Registry) (mission sessions : Entries) :
    shown (finalizeGoalExecutionRegistry hash r.normal mission sessions now) =
      shown (finalizeGoalExecutionRegistry hash r mission sessions now) := by
  have hclosed : (r.normal.completion.map Completion.closedAt) =
      r.completion.map Completion.closedAt := by
    unfold Registry.normal
    cases r.completion <;> rfl
  have hregistry : r.normal.registryId = r.registryId := rfl
  unfold finalizeGoalExecutionRegistry
  rw [validate_normal, hclosed, hregistry]
  cases requireNone (validateGoalExecutionRegistry hash r) with
  | error err => rfl
  | ok u =>
    dsimp only [bind, Except.bind]
    split
    · rfl
    cases Val.iterate ((Val.getIn "goal_order" mission).orElse (.list [])) with
    | error err => rfl
    | ok goalIds =>
      dsimp only
      have hstart : Settled.normal
            ((r.normal.completion.map Completion.records).getD Dict.empty, r.normal.entries) =
          Settled.normal ((r.completion.map Completion.records).getD Dict.empty, r.entries) :=
        Prod.ext (records_normal r) r.entries_normal
      obtain ⟨err, hf, hf'⟩ | ⟨s, s', hf, hf', hs⟩ := alike_cases (foldlM_map_congr
        (fun s s' goalId h => @settleGoal_congr hash now r.registryId mission sessions s s' goalId h)
        goalIds hstart)
      · rw [hf, hf']
      · rw [hf, hf']
        have hrecords := congrArg Prod.fst hs
        have hentries := congrArg Prod.snd hs
        unfold Settled.normal at hrecords hentries
        dsimp only at hrecords hentries
        have hkeys : sortTexts s.1.keys = sortTexts s'.1.keys := by
          have h := congrArg Dict.keys hrecords
          rwa [Dict.keys_sortKeys, Dict.keys_sortKeys, Dict.keys_mapValues, Dict.keys_mapValues]
            at h
        have hlength : s.1.entries.length = s'.1.entries.length := by
          have h := congrArg (fun d => d.entries.length) hrecords
          simpa only [Dict.length_sortKeys, Dict.mapValues, List.length_map] using h
        refine congrArg Except.ok ?_
        rw [← seal_normal, ← seal_normal]
        refine congrArg _ ?_
        dsimp only [Registry.normal, Option.map, Completion.written]
        rw [hkeys, hlength, hrecords, hentries]

/-- The entries of the two registries cannot be told apart by a call. -/
theorem shown_answer (r : Registry) (c : RegistryCall) :
    shown (c.answer hash r.normal) = shown (c.answer hash r) := by
  cases c with
  | register mission goal session artifactRoot now =>
    exact shown_register r mission goal session artifactRoot
  | consume entryId result now => exact shown_consume r entryId result
  | finalize mission sessions now => exact shown_finalize r mission sessions

/-! ## Pending requests -/

def PendingRequest.written (x : PendingRequest) : PendingRequest :=
  { x with
    operatorContext := Val.sortedEntries x.operatorContext
    executionRequest := x.executionRequest.written }

/-- What is offered, whatever the order of the keys of the mappings in it. -/
def shownPending (answer : Except Err (Dict String PendingRequest)) :
    Except Err (Dict String PendingRequest) :=
  answer.map (Dict.mapValues PendingRequest.written)

theorem offerOf_written (id : String) (e : RegistryEntry) :
    (offerOf id e.written).written = (offerOf id e).written := by
  unfold offerOf PendingRequest.written
  dsimp only
  have hrequest : e.written.executionRequest = e.executionRequest.written := rfl
  have hcontext : e.executionRequest.written.operatorContext =
      Val.sortedEntries e.executionRequest.operatorContext := rfl
  rw [hrequest, hcontext, Val.sortedEntries_sortedEntries, e.executionRequest.written_written]
  rfl

theorem offers_normal (r : Registry) (ids : List String)
    {offered offered' : Dict String PendingRequest}
    (h : offered.mapValues PendingRequest.written = offered'.mapValues PendingRequest.written) :
    (ids.foldl (offerEntry r.normal.entries) offered).mapValues PendingRequest.written =
      (ids.foldl (offerEntry r.entries) offered').mapValues PendingRequest.written := by
  induction ids generalizing offered offered' with
  | nil => exact h
  | cons id ids ih =>
    refine ih ?_
    unfold offerEntry
    rw [get?_normal]
    cases r.entries.get? id with
    | none => exact h
    | some e =>
      have hstatus : e.written.entryStatus = e.entryStatus := rfl
      have hsession : e.written.sessionId = e.sessionId := rfl
      dsimp only [Option.map]
      rw [hstatus, hsession]
      split
      · exact h
      split
      · exact h
      · rw [Dict.mapValues_set, Dict.mapValues_set, h, offerOf_written]

theorem shown_pending (r : Registry) :
    shownPending (pendingGoalExecutionRequests hash r.normal) =
      shownPending (pendingGoalExecutionRequests hash r) := by
  unfold pendingGoalExecutionRequests
  rw [validate_normal]
  cases requireNone (validateGoalExecutionRegistry hash r) with
  | error err => rfl
  | ok u => exact congrArg Except.ok (offers_normal r r.entryOrder rfl)

/-- A file, and the registry it was written from. -/
def shownSave (answer : Except Err (Registry × Registry)) : Except Err (Registry × Registry) :=
  answer.map fun p => (p.1, p.2.normal)

theorem shown_save (r : Registry) :
    shownSave (saveGoalExecutionRegistry hash r.normal) =
      shownSave (saveGoalExecutionRegistry hash r) := by
  have hwritable : ∀ r : Registry, r.normal.toVal.writable = r.toVal.writable := by
    intro r
    rw [← Val.writable_sorted, r.sorted_toVal_normal, Val.writable_sorted]
  unfold saveGoalExecutionRegistry
  rw [seal_normal]
  dsimp only
  rw [validate_normal, hwritable]
  cases requireNone (validateGoalExecutionRegistry hash (sealGoalExecutionRegistry hash r)) with
  | error err => rfl
  | ok u =>
    dsimp only [bind, Except.bind]
    split
    · refine congrArg Except.ok (Prod.ext ?_ ?_)
      · exact Registry.written_normal _
      · exact Registry.normal_normal _
    · rfl

/-! ## Runs -/

theorem alike_of_normal (h : r.normal = r'.normal) (c : RegistryCall) :
    shown (c.answer hash r) = shown (c.answer hash r') := by
  rw [← shown_answer r, h, shown_answer r']

theorem alike_step (h : r.normal = r'.normal) (c : RegistryCall) :
    ((registryMachine hash).step r c).2.normal = ((registryMachine hash).step r' c).2.normal := by
  change ((c.answer hash r).toOption.getD r).normal = ((c.answer hash r').toOption.getD r').normal
  obtain ⟨err, ha, ha'⟩ | ⟨s, s', ha, ha', hs⟩ := alike_cases (@alike_of_normal hash r r' h c)
  · rw [ha, ha']
    exact h
  · rw [ha, ha']
    exact hs

theorem alike_run (h : r.normal = r'.normal) (calls : List RegistryCall) :
    ((registryMachine hash).run r calls).normal = ((registryMachine hash).run r' calls).normal := by
  induction calls generalizing r r' with
  | nil => exact h
  | cons c calls ih => exact ih (alike_step h c)

theorem alike_outputs (h : r.normal = r'.normal) (calls : List RegistryCall) :
    (((registryMachine hash).outputs r calls).map fun o => shown o.2) =
      ((registryMachine hash).outputs r' calls).map fun o => shown o.2 := by
  induction calls generalizing r r' with
  | nil => rfl
  | cons c calls ih =>
    rw [Machine.outputs, Machine.outputs, List.map_cons, List.map_cons, ih (alike_step h c)]
    exact congrArg (· :: _) (alike_of_normal h c)

/-- Later calls are answered alike: they and what is pending and saved after them. -/
structure BehavesAlike (hash : Val → String) (r r' : Registry) : Prop where
  answers : ∀ calls, (((registryMachine hash).outputs r calls).map fun o => shown o.2) =
    ((registryMachine hash).outputs r' calls).map fun o => shown o.2
  pending : ∀ calls,
    shownPending (pendingGoalExecutionRequests hash ((registryMachine hash).run r calls)) =
      shownPending (pendingGoalExecutionRequests hash ((registryMachine hash).run r' calls))
  saved : ∀ calls,
    shownSave (saveGoalExecutionRegistry hash ((registryMachine hash).run r calls)) =
      shownSave (saveGoalExecutionRegistry hash ((registryMachine hash).run r' calls))

theorem behavesAlike_of_normal (h : r.normal = r'.normal) : BehavesAlike hash r r' where
  answers := alike_outputs h
  pending calls := by
    rw [← shown_pending, alike_run h calls, shown_pending]
  saved calls := by
    rw [← shown_save, alike_run h calls, shown_save]

/-- What is loaded after a save equals what was saved, whatever the order of the keys, and later
calls behave alike on the two. -/
def SurvivesSave (hash : Val → String) (r : Registry) : Prop :=
  ∃ file saved loaded, saveGoalExecutionRegistry hash r = .ok (file, saved) ∧
    loadGoalExecutionRegistry hash file = .ok loaded ∧ loaded.written = r.written ∧
    BehavesAlike hash loaded r

theorem save_of_valid (hr : Valid hash r) : saveGoalExecutionRegistry hash r =
    if r.toVal.writable then .ok (r.written, r) else .error .typeError := by
  unfold saveGoalExecutionRegistry
  rw [hr.seal_eq]
  dsimp only
  rw [requireNone_of_valid hr]
  rfl

theorem survives_of_inOrder (hr : Valid hash r) (horder : r.entryOrder.Pairwise TextLe)
    (hwritable : r.toVal.writable = true) : SurvivesSave hash r := by
  rw [← hr.order] at horder
  have hwritten := Registry.written_of_inOrder horder
  refine ⟨r.written, r, r.normal, ?_, ?_, Registry.written_normal r,
    behavesAlike_of_normal r.normal_normal⟩
  · rw [save_of_valid hr, if_pos hwritable]
  · unfold loadGoalExecutionRegistry
    rw [hwritten, validate_normal, requireNone_of_valid hr]
    rfl

theorem inOrder_of_survives (hr : Valid hash r) (h : SurvivesSave hash r) :
    r.entryOrder.Pairwise TextLe ∧ r.toVal.writable = true := by
  obtain ⟨file, saved, loaded, hsave, hload, -, -⟩ := h
  rw [save_of_valid hr] at hsave
  split at hsave
  · rename_i hwritable
    cases hsave
    refine ⟨?_, hwritable⟩
    unfold loadGoalExecutionRegistry at hload
    obtain ⟨u, hvalid, -⟩ := bind_eq_ok.mp hload
    have horder := (valid_iff.mp (requireNone_ok.mp hvalid)).order
    have hkeys : r.written.entries.keys = sortTexts r.entries.keys := by
      unfold Registry.written
      rw [Dict.keys_sortKeys, Dict.keys_mapValues]
    rw [hkeys] at horder
    change sortTexts r.entries.keys = r.entryOrder at horder
    rw [← horder]
    exact List.pairwise_insertionSort TextLe _
  · cases hsave

/-- A reached registry survives a save exactly if its entries were registered in the order of
their ids, and JSON has all its values. -/
theorem survives_save_iff {registryId : Val}
    (hcreate : createGoalExecutionRegistry hash registryId now = .ok r)
    (calls : List RegistryCall) :
    SurvivesSave hash ((registryMachine hash).run r calls) ↔
      ((registryMachine hash).run r calls).entryOrder.Pairwise TextLe ∧
        ((registryMachine hash).run r calls).toVal.writable = true := by
  have hr := valid_run (valid_created hcreate) calls
  exact ⟨inOrder_of_survives hr, fun h => survives_of_inOrder hr h.1 h.2⟩

end Digest

/-! ## Two entries -/

theorem writable_texts (xs : List String) : (texts xs).writable = true := by
  unfold texts
  rw [Val.writable, Val.writableItems_eq_all, List.all_map, List.all_eq_true]
  intro x hx
  rfl

theorem writable_registry {r : Registry} (hcompletion : r.completion = none)
    (h : ∀ e ∈ r.entries.values, e.toVal.writable = true) : r.toVal.writable = true := by
  have hentries : (dictVal RegistryEntry.toVal r.entries).writable = true := by
    unfold dictVal Dict.mapValues
    rw [Val.writable, Val.writableEntries_eq_all, List.all_map, List.all_eq_true]
    intro e he
    exact h e.2 (List.mem_map.mpr ⟨e, he, rfl⟩)
  unfold Registry.toVal Registry.unsigned
  rw [hcompletion, Val.writable, Val.writableEntries_eq_all]
  simp [hentries, writable_texts, timeVal, Val.writable, Val.writableEntries]

/-- Two registrations at different times, one after the other. -/
theorem run_registerAt {r : Registry} {first second : Instant} (hr : Valid sampleHash r)
    (hactive : r.registryStatus = .active) (hid : r.registryId = "registry")
    (hempty : r.entries = Dict.empty)
    (hne : (entryAt second).entryId ≠ (entryAt first).entryId) :
    (registryMachine sampleHash).run r [registerAt first, registerAt second] =
      withEntry sampleHash (withEntry sampleHash r (entryAt first) first) (entryAt second)
        second := by
  have hnone : ∀ id, r.entries.get? id = none := by
    intro id
    rw [hempty]
    rfl
  have hfirst := register_at hr hactive hid (hnone (entryAt first).entryId)
  have hsecond := @register_at _ second (valid_answer hfirst) hactive hid
    (by rw [get?_withEntry, if_neg hne, hnone])
  change ((registryMachine sampleHash).step ((registryMachine sampleHash).step r
    (registerAt first)).2 (registerAt second)).2 = _
  rw [after_of_ok hfirst, after_of_ok hsecond]

theorem survives_save_iff_sample : ∃ r,
    createGoalExecutionRegistry sampleHash (.str "registry") 0 = .ok r ∧
      SurvivesSave sampleHash
        ((registryMachine sampleHash).run r [registerAt 1000000, registerAt 2000000]) := by
  refine ⟨_, rfl, (@survives_save_iff _ _ 0 (.str "registry") rfl _).mpr ?_⟩
  have hne : (entryAt 2000000).entryId ≠ (entryAt 1000000).entryId := by
    rw [entryId_first, entryId_second]
    exact secondEntry_ne
  rw [run_registerAt (@valid_created sampleHash _ 0 (.str "registry") rfl) rfl rfl rfl hne]
  constructor
  · change ([(entryAt 1000000).entryId, (entryAt 2000000).entryId] : List String).Pairwise TextLe
    rw [entryId_first, entryId_second]
    decide +kernel
  · refine writable_registry rfl fun e he => ?_
    obtain ⟨id, he⟩ := Dict.mem_values.mp he
    rw [get?_withEntry, get?_withEntry] at he
    split at he
    · cases he
      decide +kernel
    · split at he
      · cases he
        decide +kernel
      · cases he

def ninthEntry : String := "goal-execution-entry-9..................."

def tenthEntry : String := "goal-execution-entry-10.................."

theorem entryId_ninth : (entryAt 9000000).entryId = ninthEntry :=
  (entryId_newEntry "registry" sampleMission sampleGoal waitingSession (.str "/artifacts")
    (by decide)).trans (by decide +kernel)

theorem entryId_tenth : (entryAt 10000000).entryId = tenthEntry :=
  (entryId_newEntry "registry" sampleMission sampleGoal waitingSession (.str "/artifacts")
    (by decide)).trans (by decide +kernel)

/-- The id of the second entry is before that of the first, and the registry is not loaded. -/
theorem unordered_not_loaded : Function.Injective sampleHash ∧ ∃ r,
    createGoalExecutionRegistry sampleHash (.str "registry") 0 = .ok r ∧
      ¬SurvivesSave sampleHash
        ((registryMachine sampleHash).run r [registerAt 9000000, registerAt 10000000]) := by
  refine ⟨Val.tagged_injective sampleText, _, rfl, fun h => ?_⟩
  have hcreated := @valid_created sampleHash _ 0 (.str "registry") rfl
  have hvalid := valid_run hcreated [registerAt 9000000, registerAt 10000000]
  have horder := (inOrder_of_survives hvalid h).1
  have hne : tenthEntry ≠ ninthEntry := by
    decide +kernel
  rw [← entryId_ninth, ← entryId_tenth] at hne
  rw [run_registerAt hcreated rfl rfl rfl hne] at horder
  change ([(entryAt 9000000).entryId, (entryAt 10000000).entryId] : List String).Pairwise TextLe
    at horder
  rw [entryId_ninth, entryId_tenth] at horder
  revert horder
  decide +kernel

end Execution
end ZeroRuntime
