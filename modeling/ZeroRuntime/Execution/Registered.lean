import ZeroRuntime.Execution.Registry
import ZeroRuntime.Lib.Digest
import ZeroRuntime.Lib.Machine

/-!
# ZeroRuntime.Execution.Registered

Registries as calls come in, one after the other.

* `Valid`: what the validation of a registry asks for. `valid_step`: every call keeps it.
* `Moved`: an entry stays as it is, or it is consumed once. `Moves`: what a call does to the entries
  that are there. `register_cases`, `moves_consume`, `moves_finalize` say it of each call.
-/

namespace ZeroRuntime
namespace Execution

open Lib Sessions Missions

inductive RegistryCall where
  | register (mission goal session : Entries) (artifactRoot : Val) (now : Instant)
  | consume (entryId result : Val) (now : Instant)
  | finalize (mission sessions : Entries) (now : Instant)

section Digest

variable (hash : Val → String)

def RegistryCall.answer (r : Registry) : RegistryCall → Except Err Registry
  | register mission goal session artifactRoot now =>
    registerGoalExecutionRequest hash r mission goal session artifactRoot now
  | consume entryId result now => markRegistryEntryConsumed hash r entryId result now
  | finalize mission sessions now => finalizeGoalExecutionRegistry hash r mission sessions now

/-- A call that raises leaves the registry as it was. -/
def registryMachine : Machine Registry RegistryCall (Except Err Registry) where
  step r c := (c.answer hash r, (c.answer hash r).toOption.getD r)

/-! ## Valid registries -/

structure ValidEntry (e : RegistryEntry) : Prop where
  contract : e.contract = entryContract
  sealed : e.entryFingerprint = fingerprint hash (.dict e.unsigned)
  entryId : isBlank e.entryId = false
  registryId : isBlank e.registryId = false
  missionId : isBlank e.missionId = false
  goalId : isBlank e.goalId = false
  sessionId : isBlank e.sessionId = false
  requestFingerprint : isBlank e.executionRequestFingerprint = false
  requestContract : e.executionRequest.contract = requestContract
  requestSession : Val.eq e.executionRequest.sessionId (.str e.sessionId) = true
  requestGoal : e.executionRequest.goalId = e.goalId
  requestMission : e.executionRequest.missionId = e.missionId
  request : e.executionRequest.executionRequestFingerprint = e.executionRequestFingerprint
  workspace : e.workspaceMutated = false
  transaction : e.transactionInvoked = false

structure Valid (r : Registry) : Prop where
  contract : r.contract = registryContract
  sealed : r.registryFingerprint = fingerprint hash (.dict r.unsigned)
  registryId : isBlank r.registryId = false
  order : r.entries.keys = r.entryOrder
  count : r.entryCount = r.entries.entries.length
  ids : ∀ id e, r.entries.get? id = some e → e.entryId = id
  entries : ∀ id e, r.entries.get? id = some e → ValidEntry hash e

variable {hash} {r r' : Registry} {e e' : RegistryEntry} {now : Instant}

theorem validEntry_iff : validateRegistryEntry hash e = [] ↔ ValidEntry hash e := by
  unfold validateRegistryEntry
  simp only [List.append_eq_nil_iff, reasonIf_eq_nil, not_not, Bool.not_eq_true, and_assoc,
    Bool.not_eq_true', Bool.not_eq_false]
  constructor
  · rintro ⟨h1, h2, h3, h4, h5, h6, h7, h8, h9, h10, h11, h12, h13, h14, h15⟩
    exact ⟨h1, h2, h3, h4, h5, h6, h7, h8, h9, h10, h11, h12, h13, h14, h15⟩
  · rintro ⟨h1, h2, h3, h4, h5, h6, h7, h8, h9, h10, h11, h12, h13, h14, h15⟩
    exact ⟨h1, h2, h3, h4, h5, h6, h7, h8, h9, h10, h11, h12, h13, h14, h15⟩

theorem valid_iff : validateGoalExecutionRegistry hash r = [] ↔ Valid hash r := by
  unfold validateGoalExecutionRegistry
  rw [sortedSet_eq_nil]
  simp only [List.append_eq_nil_iff, reasonIf_eq_nil, not_not, Bool.not_eq_true, and_assoc,
    List.flatMap_eq_nil_iff, Prod.forall, validEntry_iff, Dict.mem_entries]
  constructor
  · rintro ⟨h1, h2, h3, h4, h5, h6⟩
    exact ⟨h1, h2, h3, h4, h5, fun id e h => (h6 id e h).1, fun id e h => (h6 id e h).2⟩
  · rintro ⟨h1, h2, h3, h4, h5, h6, h7⟩
    exact ⟨h1, h2, h3, h4, h5, fun id e h => ⟨h6 id e h, h7 id e h⟩⟩

theorem requireNone_ok {reasons : List String} {u : Unit} :
    requireNone reasons = .ok u ↔ reasons = [] := by
  unfold requireNone
  split <;> simp_all

theorem requireNone_of_valid (h : Valid hash r) :
    requireNone (validateGoalExecutionRegistry hash r) = .ok () :=
  requireNone_ok.mpr (valid_iff.mpr h)

theorem Valid.seal_eq (h : Valid hash r) : sealGoalExecutionRegistry hash r = r := by
  unfold sealGoalExecutionRegistry
  rw [← h.sealed]

theorem valid_created {registryId : Val}
    (h : createGoalExecutionRegistry hash registryId now = .ok r) : Valid hash r := by
  unfold createGoalExecutionRegistry at h
  split at h
  · cases h
  · rename_i hid
    cases h
    have htext : Text.strip registryId.text = registryId.text := by
      unfold Val.text
      split
      · exact Text.strip_strip _
      · rfl
    refine ⟨rfl, rfl, ?_, rfl, rfl, fun id e he => ?_, fun id e he => ?_⟩
    · unfold isBlank
      change (Text.strip registryId.text == "") = false
      rw [htext]
      simpa using hid
    · cases he
    · cases he

/-! ## What a call does to an entry -/

/-- An entry stays, or it waits no longer and has its result. -/
def Moved (hash : Val → String) (e e' : RegistryEntry) : Prop :=
  e' = e ∨ e.entryStatus = .registered ∧ ∃ result now, e' = consumedEntry hash e result now

theorem Moved.refl (e : RegistryEntry) : Moved hash e e := .inl rfl

theorem Moved.trans {a b c : RegistryEntry} (h : Moved hash a b) (h' : Moved hash b c) :
    Moved hash a c := by
  rcases h with rfl | ⟨hstatus, result, now, rfl⟩
  · exact h'
  · rcases h' with rfl | ⟨hconsumed, -⟩
    · exact .inr ⟨hstatus, result, now, rfl⟩
    · cases hconsumed

theorem Moved.consumed (hstatus : e.entryStatus = .registered) (result : String) (now : Instant) :
    Moved hash e (consumedEntry hash e result now) := .inr ⟨hstatus, result, now, rfl⟩

theorem Moved.entryId (h : Moved hash e e') : e'.entryId = e.entryId := by
  rcases h with rfl | ⟨-, result, now, rfl⟩ <;> rfl

/-- Whatever waits has not moved. -/
theorem Moved.of_registered (h : Moved hash e e') (hstatus : e'.entryStatus = .registered) :
    e' = e := by
  rcases h with rfl | ⟨-, result, now, rfl⟩
  · rfl
  · cases hstatus

/-- What is consumed stays as it is. -/
theorem Moved.of_consumed (h : Moved hash e e') (hstatus : e.entryStatus = .consumed) :
    e' = e := by
  rcases h with rfl | ⟨hregistered, -⟩
  · rfl
  · rw [hstatus] at hregistered
    cases hregistered

theorem Moved.valid (h : Moved hash e e') (he : ValidEntry hash e) : ValidEntry hash e' := by
  rcases h with rfl | ⟨-, result, now, rfl⟩
  · exact he
  · exact { he with sealed := rfl }

/-- Every entry has moved, and no entry is new. -/
structure Moves (hash : Val → String) (entries entries' : Dict String RegistryEntry) : Prop where
  keys : entries'.keys = entries.keys
  moved : ∀ id e', entries'.get? id = some e' →
    ∃ e, entries.get? id = some e ∧ Moved hash e e'

theorem Moves.refl (entries : Dict String RegistryEntry) : Moves hash entries entries :=
  ⟨rfl, fun _ e' he' => ⟨e', he', .refl e'⟩⟩

theorem Moves.trans {a b c : Dict String RegistryEntry} (h : Moves hash a b)
    (h' : Moves hash b c) : Moves hash a c where
  keys := h'.keys.trans h.keys
  moved := by
    intro id e'' he''
    obtain ⟨e', he', hmoved'⟩ := h'.moved id e'' he''
    obtain ⟨e, he, hmoved⟩ := h.moved id e' he'
    exact ⟨e, he, hmoved.trans hmoved'⟩

theorem Moves.get? {entries entries' : Dict String RegistryEntry} (h : Moves hash entries entries')
    {id : String} (he : entries.get? id = some e) :
    ∃ e', entries'.get? id = some e' ∧ Moved hash e e' := by
  have hkey : id ∈ entries'.keys := by
    rw [h.keys]
    exact Dict.mem_keys.mpr ⟨e, he⟩
  obtain ⟨e', he'⟩ := Dict.mem_keys.mp hkey
  obtain ⟨x, hx, hmoved⟩ := h.moved id e' he'
  rw [he, Option.some.injEq] at hx
  exact ⟨e', he', hx ▸ hmoved⟩

theorem Moves.set {entries : Dict String RegistryEntry} {id : String}
    (he : entries.get? id = some e) (h : Moved hash e e') :
    Moves hash entries (entries.set id e') where
  keys := Dict.keys_set_of_mem e' (Dict.mem_keys.mpr ⟨e, he⟩)
  moved := by
    intro i x hx
    rw [Dict.get?_set] at hx
    split at hx
    · rename_i hi
      cases hx
      exact ⟨e, hi ▸ he, h⟩
    · exact ⟨x, hx, .refl x⟩

theorem Moves.mapValues (entries : Dict String RegistryEntry) {f : RegistryEntry → RegistryEntry}
    (h : ∀ e, Moved hash e (f e)) : Moves hash entries (entries.mapValues f) where
  keys := Dict.keys_mapValues f entries
  moved := by
    intro id e' he'
    rw [Dict.get?_mapValues, Option.map_eq_some_iff] at he'
    obtain ⟨e, he, rfl⟩ := he'
    exact ⟨e, he, h e⟩

/-- A registry whose entries have moved is as valid as before, once it is sealed. -/
theorem Moves.valid (hr : Valid hash r) (h : Moves hash r.entries r'.entries)
    (hcontract : r'.contract = r.contract) (hid : r'.registryId = r.registryId)
    (horder : r'.entryOrder = r.entryOrder) (hcount : r'.entryCount = r.entryCount) :
    Valid hash (sealGoalExecutionRegistry hash r') where
  contract := hcontract.trans hr.contract
  sealed := rfl
  registryId := by
    change isBlank r'.registryId = false
    rw [hid]
    exact hr.registryId
  order := by
    change r'.entries.keys = r'.entryOrder
    rw [h.keys, horder]
    exact hr.order
  count := by
    have hlength := congrArg List.length h.keys
    unfold Dict.keys at hlength
    rw [List.length_map, List.length_map] at hlength
    change r'.entryCount = r'.entries.entries.length
    rw [hcount, hlength]
    exact hr.count
  ids := by
    intro id e' he'
    obtain ⟨e, he, hmoved⟩ := h.moved id e' he'
    rw [hmoved.entryId]
    exact hr.ids id e he
  entries := by
    intro id e' he'
    obtain ⟨e, he, hmoved⟩ := h.moved id e' he'
    exact hmoved.valid (hr.entries id e he)

/-! ## The calls -/

/-- A registration finds its entry, or makes it. -/
theorem register_cases {mission goal session : Entries} {artifactRoot : Val}
    (h : registerGoalExecutionRequest hash r mission goal session artifactRoot now = .ok r') :
    Valid hash r ∧ Valid hash r' ∧
      ((r' = r ∧ ∃ e, r.entries.get?
          (newEntry hash r.registryId mission goal session artifactRoot now).entryId = some e) ∨
        (r.registryStatus = .active ∧
          registrationReasons (normalizeGoal hash mission goal) session artifactRoot = [] ∧
          r.entries.get? (newEntry hash r.registryId mission goal session artifactRoot
            now).entryId = none ∧
          r' = withEntry hash r (newEntry hash r.registryId mission goal session artifactRoot now)
            now)) := by
  unfold registerGoalExecutionRequest at h
  obtain ⟨u, hvalid, h⟩ := bind_eq_ok.mp h
  have hr := valid_iff.mp (requireNone_ok.mp hvalid)
  split at h
  · cases h
  rename_i hactive
  obtain ⟨u', hreasons, h⟩ := bind_eq_ok.mp h
  dsimp only at h
  split at h
  · rename_i existing hexisting
    split at h
    · cases h
    · cases h
      rw [hr.seal_eq]
      exact ⟨hr, hr, .inl ⟨rfl, existing, hexisting⟩⟩
  · rename_i hnone
    obtain ⟨u'', hvalid', h⟩ := bind_eq_ok.mp h
    cases h
    exact ⟨hr, valid_iff.mp (requireNone_ok.mp hvalid'), .inr ⟨not_not.mp hactive,
      sortedSet_eq_nil.mp (requireNone_ok.mp hreasons), hnone, rfl⟩⟩

theorem moves_consume {entryId result : Val}
    (h : markRegistryEntryConsumed hash r entryId result now = .ok r') :
    Valid hash r ∧ Valid hash r' ∧ Moves hash r.entries r'.entries := by
  unfold markRegistryEntryConsumed at h
  obtain ⟨u, hvalid, h⟩ := bind_eq_ok.mp h
  have hr := valid_iff.mp (requireNone_ok.mp hvalid)
  split at h
  · cases h
  rename_i e he
  split at h
  · cases h
  split at h
  · split at h
    · cases h
    · cases h
      rw [hr.seal_eq]
      exact ⟨hr, hr, .refl _⟩
  · cases h
  · rename_i hstatus
    cases h
    have hmoves : Moves hash r.entries
        (r.entries.set entryId.text (consumedEntry hash e result.text now)) :=
      .set he (.consumed hstatus result.text now)
    exact ⟨hr, hmoves.valid hr rfl rfl rfl rfl, hmoves⟩

theorem moved_settleEntry (sessionId : Val) (result : String) (now : Instant)
    (e : RegistryEntry) : Moved hash e (settleEntry hash sessionId result now e) := by
  unfold settleEntry
  split
  · rename_i hboth
    rw [Bool.and_eq_true, decide_eq_true_eq] at hboth
    exact .consumed hboth.2 result now
  · exact .refl e

theorem moves_settleGoals {registryId : String} {mission sessions : Entries} {goalIds : List Val}
    {s s' : Settled}
    (h : goalIds.foldlM (settleGoal hash registryId mission sessions now) s = .ok s') :
    Moves hash s.2 s'.2 := by
  induction goalIds generalizing s with
  | nil =>
    cases h
    exact .refl _
  | cons goalId goalIds ih =>
    rw [List.foldlM_cons] at h
    obtain ⟨next, hnext, h⟩ := bind_eq_ok.mp h
    unfold settleGoal at hnext
    obtain ⟨goal, -, hnext⟩ := bind_eq_ok.mp hnext
    dsimp only at hnext
    split at hnext
    · cases hnext
    obtain ⟨session, -, hnext⟩ := bind_eq_ok.mp hnext
    split at hnext
    · cases hnext
    · cases hnext
      exact (Moves.mapValues s.2 fun e => moved_settleEntry _ _ now e).trans (ih h)

theorem moves_finalize {mission sessions : Entries}
    (h : finalizeGoalExecutionRegistry hash r mission sessions now = .ok r') :
    Valid hash r ∧ Valid hash r' ∧ Moves hash r.entries r'.entries := by
  unfold finalizeGoalExecutionRegistry at h
  obtain ⟨u, hvalid, h⟩ := bind_eq_ok.mp h
  have hr := valid_iff.mp (requireNone_ok.mp hvalid)
  split at h
  · cases h
  obtain ⟨goalIds, -, h⟩ := bind_eq_ok.mp h
  obtain ⟨s', hs', h⟩ := bind_eq_ok.mp h
  have hmoves := moves_settleGoals hs'
  cases h
  exact ⟨hr, hmoves.valid hr rfl rfl rfl rfl, hmoves⟩

/-! ## Runs -/

theorem valid_answer {c : RegistryCall} (h : c.answer hash r = .ok r') : Valid hash r' := by
  cases c with
  | register mission goal session artifactRoot now => exact (register_cases h).2.1
  | consume entryId result now => exact (moves_consume h).2.1
  | finalize mission sessions now => exact (moves_finalize h).2.1

theorem valid_step (hr : Valid hash r) (c : RegistryCall) :
    Valid hash ((registryMachine hash).step r c).2 := by
  change Valid hash ((c.answer hash r).toOption.getD r)
  cases hanswer : c.answer hash r with
  | error e => exact hr
  | ok r' => exact valid_answer hanswer

theorem valid_run (hr : Valid hash r) (calls : List RegistryCall) :
    Valid hash ((registryMachine hash).run r calls) :=
  @Machine.run_invariant _ _ _ _ (Valid hash) (fun _ c hr => valid_step hr c) r calls hr

/-- The validation finds nothing wrong with a registry, whatever was done since it was created. -/
theorem validated_run {registryId : Val}
    (h : createGoalExecutionRegistry hash registryId now = .ok r) (calls : List RegistryCall) :
    validateGoalExecutionRegistry hash ((registryMachine hash).run r calls) = [] :=
  valid_iff.mpr (valid_run (valid_created h) calls)

end Digest

/-! ## A registry to run -/

/-- What the fingerprints start with: that of a request with the time of its creation, and that of
the identity of an entry with the fingerprint of its request. -/
def sampleText (v : Val) : String :=
  ((Val.getIn "created_at" v.entries).orElse
    (Val.getIn "execution_request_fingerprint" v.entries)).toText

def sampleHash : Val → String := Val.tagged sampleText

def sampleMission : Entries := [("mission_id", .str "mission")]

def sampleGoal : Entries :=
  [("goal_id", .str "goal"), ("goal_type", .str "inspect"),
    ("target_scope", .list [.str "docs/a.md"])]

def waitingSession : Entries :=
  [("session_id", .str "session"), ("session_fingerprint", .str "seal"),
    ("session_status", .str "waiting_for_candidate_bundle"),
    ("required_action", .str "candidate_bundle")]

def registerAt (now : Instant) : RegistryCall :=
  .register sampleMission sampleGoal waitingSession (.str "/artifacts") now

theorem validated_run_sample : ∃ r,
    createGoalExecutionRegistry sampleHash (.str "registry") 0 = .ok r ∧
      validateGoalExecutionRegistry sampleHash
        ((registryMachine sampleHash).run r [registerAt 1000000]) = [] :=
  ⟨_, rfl, @validated_run sampleHash _ 0 (.str "registry") rfl _⟩

def entryAt (now : Instant) : RegistryEntry :=
  newEntry sampleHash "registry" sampleMission sampleGoal waitingSession (.str "/artifacts") now

theorem sampleText_sorted {kvs : Entries} (hkeys : (kvs.map Prod.fst).Nodup) :
    sampleText (Val.dict kvs).sorted =
      ((Val.getIn "created_at" kvs).sorted.orElse
        (Val.getIn "execution_request_fingerprint" kvs).sorted).toText := by
  have hread : ∀ k, Val.getIn k (Val.sortedEntries kvs) = (Val.getIn k kvs).sorted := by
    intro k
    unfold Val.getIn
    rw [Val.find_sortedEntries hkeys]
    cases Val.find k kvs with
    | none => rfl
    | some x => rfl
  unfold sampleText
  rw [Val.sorted_dict]
  dsimp only [Val.entries]
  rw [hread, hread]

theorem keys_request (r : ExecutionRequest) : (r.unsigned.map Prod.fst).Nodup := by
  change (["contract", "execution_request_id", "goal_id", "mission_id", "session_id", "goal_type",
    "approved_scope", "excluded_scope", "acceptance_criteria", "validation_requirements",
    "operator_context", "created_at", "goal_fingerprint", "session_fingerprint"] :
      List String).Nodup
  decide

theorem tag_request (g : NormalGoal) (session : Entries) {now : Instant} (h : timeText now ≠ 0) :
    Val.tag (createGoalExecutionRequest sampleHash g session now).executionRequestFingerprint =
      Val.tag (Val.int (timeText now)).toText := by
  unfold createGoalExecutionRequest
  dsimp only
  unfold fingerprint sampleHash
  rw [Val.tag_tagged, sampleText_sorted (keys_request _)]
  change Val.tag (((Val.int (timeText now)).orElse _).toText) = _
  unfold Val.orElse
  rw [if_pos]
  change decide ((timeText now : ℤ) ≠ 0) = true
  simpa using h

theorem entryId_newEntry (registryId : String) (mission goal session : Entries)
    (artifactRoot : Val) {now : Instant} (h : timeText now ≠ 0) :
    (newEntry sampleHash registryId mission goal session artifactRoot now).entryId =
      "goal-execution-entry-" ++ String.ofList (Val.tag (Val.int (timeText now)).toText) := by
  unfold newEntry sealRegistryEntry
  dsimp only
  rw [← tag_request (normalizeGoal sampleHash mission goal) session h]
  generalize createGoalExecutionRequest sampleHash (normalizeGoal sampleHash mission goal) session
    now = request
  generalize normalizeGoal sampleHash mission goal = g
  have hkeys : (["registry_id", "mission_id", "goal_id", "session_id",
      "execution_request_fingerprint"] : List String).Nodup := by
    decide
  unfold entryIdOf fingerprint sampleHash
  rw [Val.take_tagged, sampleText_sorted]
  · rfl
  · exact hkeys

end Execution
end ZeroRuntime
