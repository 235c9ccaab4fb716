import ZeroRuntime.Execution.Registered

/-!
# ZeroRuntime.Execution.Pending

What a registry offers to its executors.

* `OneExecution`: a session is not offered for work that is done, and every entry that waits is
  offered. `oneExecution_iff`: what this asks of the entries.
* `Single`: a registration makes an entry only for a session none of whose entries waits, and for
  work that is not done.
* `one_execution_iff`: in runs whose registrations are single, and in no others, the law holds
  after every call.
-/

namespace ZeroRuntime
namespace Execution

open Lib Sessions Missions

/-! ## The law -/

/-- Two entries for one session, goal and session fingerprint. -/
structure SameWork (e e' : RegistryEntry) : Prop where
  session : e.sessionId = e'.sessionId
  goal : e.goalId = e'.goalId
  fingerprint : Val.eq e.sessionFingerprint e'.sessionFingerprint = true

instance (e e' : RegistryEntry) : Decidable (SameWork e e') :=
  decidable_of_iff (e.sessionId = e'.sessionId ∧ e.goalId = e'.goalId ∧
      Val.eq e.sessionFingerprint e'.sessionFingerprint = true)
    ⟨fun h => ⟨h.1, h.2.1, h.2.2⟩, fun h => ⟨h.session, h.goal, h.fingerprint⟩⟩

section Digest

variable (hash : Val → String)

structure OneExecution (r : Registry) : Prop where
  offered : ∀ p, pendingGoalExecutionRequests hash r = .ok p →
    ∀ sid x e, p.get? sid = some x → r.entries.get? x.registryEntryId = some e →
      ∀ e' ∈ r.entries.values, e'.entryStatus = .consumed → ¬SameWork e e'
  represented : ∃ p, pendingGoalExecutionRequests hash r = .ok p ∧
    ∀ id e, r.entries.get? id = some e → e.entryStatus = .registered →
      ∃ sid x, p.get? sid = some x ∧ x.registryEntryId = id

/-- The result of a consumed entry does not change. -/
def KeepsResults (r r' : Registry) : Prop :=
  ∀ id e, r.entries.get? id = some e → e.entryStatus = .consumed →
    ∃ e', r'.entries.get? id = some e' ∧ e'.entryStatus = .consumed ∧
      e'.executionResultFingerprint = e.executionResultFingerprint

/-- A registration that makes a new entry. -/
structure MakesEntry (r : Registry) (mission goal session : Entries) (artifactRoot : Val)
    (now : Instant) : Prop where
  active : r.registryStatus = .active
  allowed : registrationReasons (normalizeGoal hash mission goal) session artifactRoot = []
  valid : validateRegistryEntry hash
    (newEntry hash r.registryId mission goal session artifactRoot now) = []
  new : r.entries.get?
    (newEntry hash r.registryId mission goal session artifactRoot now).entryId = none

/-- No entry for the session of `e` waits, and the work of `e` is not done. -/
def Untried (r : Registry) (e : RegistryEntry) : Prop :=
  ∀ e' ∈ r.entries.values,
    (e'.entryStatus = .registered → Text.strip e'.sessionId ≠ Text.strip e.sessionId) ∧
      (e'.entryStatus = .consumed → ¬SameWork e e')

/-- What a call must be like. -/
def Single (r : Registry) : RegistryCall → Prop
  | .register mission goal session artifactRoot now =>
    MakesEntry hash r mission goal session artifactRoot now →
      Untried r (newEntry hash r.registryId mission goal session artifactRoot now)
  | .consume .. | .finalize .. => True

variable {hash} {r r' : Registry} {e e' : RegistryEntry} {now : Instant}

/-! ## What is offered -/

variable {entries : Dict String RegistryEntry} {offered : Dict String PendingRequest}

variable {ids : List String} {sid : String}

theorem mem_offers {x : PendingRequest}
    (h : (ids.foldl (offerEntry entries) offered).get? sid = some x) :
    offered.get? sid = some x ∨ ∃ id ∈ ids, ∃ e, entries.get? id = some e ∧
      e.entryStatus = .registered ∧ Text.strip e.sessionId = sid ∧ x = offerOf id e := by
  induction ids generalizing offered with
  | nil => exact .inl h
  | cons id ids ih =>
    rw [List.foldl_cons] at h
    rcases ih h with h | ⟨i, hi, hrest⟩
    · unfold offerEntry at h
      split at h
      · rename_i e he
        split at h
        · exact .inl h
        rename_i hstatus
        split at h
        · exact .inl h
        rw [Dict.get?_set] at h
        split at h
        · rename_i hsid
          cases h
          exact .inr ⟨id, List.mem_cons_self, e, he, not_not.mp hstatus, hsid.symm, rfl⟩
        · exact .inl h
      · exact .inl h
    · exact .inr ⟨i, List.mem_cons_of_mem _ hi, hrest⟩

theorem offered_keys (h : sid ∈ offered.keys) :
    sid ∈ (ids.foldl (offerEntry entries) offered).keys := by
  induction ids generalizing offered with
  | nil => exact h
  | cons id ids ih =>
    rw [List.foldl_cons]
    refine ih ?_
    unfold offerEntry
    split
    · split
      · exact h
      split
      · exact h
      · rw [Dict.mem_keys, Dict.get?_set]
        split
        · exact ⟨_, rfl⟩
        · exact Dict.mem_keys.mp h
    · exact h

theorem session_offered {id : String} (hid : id ∈ ids) (he : entries.get? id = some e)
    (hstatus : e.entryStatus = .registered) (hsession : isBlank e.sessionId = false) :
    ∃ x, (ids.foldl (offerEntry entries) offered).get? (Text.strip e.sessionId) = some x := by
  induction ids generalizing offered with
  | nil => cases hid
  | cons i ids ih =>
    rw [List.foldl_cons]
    rcases List.mem_cons.mp hid with rfl | hid
    · refine Dict.mem_keys.mp (offered_keys ?_)
      unfold offerEntry
      rw [he]
      dsimp only
      rw [if_neg (not_not.mpr hstatus), hsession, if_neg Bool.false_ne_true, Dict.mem_keys,
        Dict.get?_set, if_pos rfl]
      exact ⟨_, rfl⟩
    · exact ih hid

theorem pending_eq (hr : Valid hash r) : pendingGoalExecutionRequests hash r =
    .ok (r.entryOrder.foldl (offerEntry r.entries) Dict.empty) := by
  unfold pendingGoalExecutionRequests
  rw [requireNone_of_valid hr]
  rfl

theorem offered_entry (hr : Valid hash r) {p : Dict String PendingRequest}
    (hp : pendingGoalExecutionRequests hash r = .ok p) {x : PendingRequest}
    (hx : p.get? sid = some x) :
    ∃ e, r.entries.get? x.registryEntryId = some e ∧ e.entryStatus = .registered ∧
      Text.strip e.sessionId = sid := by
  rw [pending_eq hr, Except.ok.injEq] at hp
  subst hp
  rcases mem_offers hx with hx | ⟨id, -, e, he, hstatus, hsid, rfl⟩
  · cases hx
  · exact ⟨e, he, hstatus, hsid⟩

/-! ## What the law asks of the entries -/

structure Distinct (r : Registry) : Prop where
  waiting : ∀ id id' e e', r.entries.get? id = some e → r.entries.get? id' = some e' →
    e.entryStatus = .registered → e'.entryStatus = .registered →
      Text.strip e.sessionId = Text.strip e'.sessionId → id = id'
  undone : ∀ id e, r.entries.get? id = some e → e.entryStatus = .registered →
    ∀ e' ∈ r.entries.values, e'.entryStatus = .consumed → ¬SameWork e e'

theorem oneExecution_iff (hr : Valid hash r) : OneExecution hash r ↔ Distinct r := by
  constructor
  · rintro ⟨hoffered, p, hp, hrepresented⟩
    constructor
    · intro id id' e e' he he' hstatus hstatus' hsame
      obtain ⟨sid, x, hx, rfl⟩ := hrepresented id e he hstatus
      obtain ⟨sid', x', hx', rfl⟩ := hrepresented id' e' he' hstatus'
      obtain ⟨y, hy, -, hsid⟩ := offered_entry hr hp hx
      obtain ⟨y', hy', -, hsid'⟩ := offered_entry hr hp hx'
      rw [he, Option.some.injEq] at hy
      rw [he', Option.some.injEq] at hy'
      have hkey : sid = sid' := by
        rw [← hsid, ← hsid', ← hy, ← hy']
        exact hsame
      rw [hkey, hx', Option.some.injEq] at hx
      rw [hx]
    · intro id e he hstatus
      obtain ⟨sid, x, hx, rfl⟩ := hrepresented id e he hstatus
      exact hoffered p hp sid x e hx he
  · rintro ⟨hwaiting, hundone⟩
    constructor
    · intro p hp sid x e hx he
      obtain ⟨y, hy, hstatus, -⟩ := offered_entry hr hp hx
      rw [he, Option.some.injEq] at hy
      exact hundone _ e he (hy ▸ hstatus)
    · refine ⟨_, pending_eq hr, fun id e he hstatus => ?_⟩
      have hid : id ∈ r.entryOrder := by
        rw [← hr.order]
        exact Dict.mem_keys.mpr ⟨e, he⟩
      obtain ⟨x, hx⟩ : ∃ x, (r.entryOrder.foldl (offerEntry r.entries) Dict.empty).get?
          (Text.strip e.sessionId) = some x :=
        session_offered hid he hstatus (hr.entries id e he).sessionId
      obtain ⟨y, hy, hystatus, hsid⟩ := offered_entry hr (pending_eq hr) hx
      exact ⟨_, x, hx, hwaiting _ _ y e hy he hystatus hstatus hsid⟩

/-! ## One call -/

theorem Distinct.moves (hd : Distinct r) (h : Moves hash r.entries r'.entries) :
    Distinct r' where
  waiting := by
    intro id id' e e' he he' hstatus hstatus' hsame
    obtain ⟨x, hx, hmoved⟩ := h.moved id e he
    obtain ⟨x', hx', hmoved'⟩ := h.moved id' e' he'
    have hxe := hmoved.of_registered hstatus
    have hxe' := hmoved'.of_registered hstatus'
    subst hxe hxe'
    exact hd.waiting id id' e e' hx hx' hstatus hstatus' hsame
  undone := by
    intro id e he hstatus e' he' hconsumed hsame
    obtain ⟨id', he'⟩ := Dict.mem_values.mp he'
    obtain ⟨x, hx, hmoved⟩ := h.moved id e he
    obtain ⟨x', hx', hmoved'⟩ := h.moved id' e' he'
    have hxe := hmoved.of_registered hstatus
    subst hxe
    rcases hmoved' with rfl | ⟨hwaits, result, now, rfl⟩
    · exact hd.undone id e hx hstatus e' (Dict.mem_values.mpr ⟨id', hx'⟩) hconsumed hsame
    · -- The entry has just been consumed, so two entries for one session waited.
      have hsession : Text.strip e.sessionId = Text.strip x'.sessionId :=
        congrArg Text.strip hsame.session
      have hid := hd.waiting id id' e x' hx hx' hstatus hwaits hsession
      rw [hid, he', Option.some.injEq] at he
      rw [← he] at hstatus
      cases hstatus

theorem keepsResults_of_moves (h : Moves hash r.entries r'.entries) : KeepsResults r r' := by
  intro id e he hconsumed
  obtain ⟨e', he', hmoved⟩ := h.get? he
  rw [hmoved.of_consumed hconsumed] at he'
  exact ⟨e, he', hconsumed, rfl⟩

theorem get?_withEntry (id : String) :
    (withEntry hash r e now).entries.get? id = if id = e.entryId then some e
      else r.entries.get? id := Dict.get?_set _ _ _ _

theorem keepsResults_withEntry (hnew : r.entries.get? e.entryId = none) :
    KeepsResults r (withEntry hash r e now) := by
  intro id x hx hconsumed
  have hne : id ≠ e.entryId := by
    rintro rfl
    rw [hnew] at hx
    cases hx
  refine ⟨x, ?_, hconsumed, rfl⟩
  rw [get?_withEntry, if_neg hne]
  exact hx

/-- A new entry that waits keeps the law exactly if it is untried. -/
theorem distinct_withEntry (hd : Distinct r) (hnew : r.entries.get? e.entryId = none)
    (hstatus : e.entryStatus = .registered) :
    Distinct (withEntry hash r e now) ↔ Untried r e := by
  have hold : ∀ id x, r.entries.get? id = some x →
      (withEntry hash r e now).entries.get? id = some x := by
    intro id x hx
    have hne : id ≠ e.entryId := by
      rintro rfl
      rw [hnew] at hx
      cases hx
    rw [get?_withEntry, if_neg hne]
    exact hx
  have hown : (withEntry hash r e now).entries.get? e.entryId = some e := by
    rw [get?_withEntry, if_pos rfl]
  constructor
  · intro h x hx
    obtain ⟨id, hx⟩ := Dict.mem_values.mp hx
    refine ⟨fun hwaits hsame => ?_, fun hconsumed => ?_⟩
    · have hid := h.waiting id e.entryId x e (hold id x hx) hown hwaits hstatus hsame
      rw [hid, hnew] at hx
      cases hx
    · exact h.undone e.entryId e hown hstatus x (Dict.mem_values.mpr ⟨id, hold id x hx⟩) hconsumed
  · intro h
    constructor
    · intro id id' x x' hx hx' hwaits hwaits' hsame
      rw [get?_withEntry] at hx hx'
      split at hx
      · rename_i hid
        cases hx
        split at hx'
        · rename_i hid'
          rw [hid, hid']
        · exact absurd hsame.symm ((h x' (Dict.mem_values.mpr ⟨id', hx'⟩)).1 hwaits')
      · split at hx'
        · cases hx'
          exact absurd hsame ((h x (Dict.mem_values.mpr ⟨id, hx⟩)).1 hwaits)
        · exact hd.waiting id id' x x' hx hx' hwaits hwaits' hsame
    · intro id x hx hwaits x' hx' hconsumed
      obtain ⟨id', hx'⟩ := Dict.mem_values.mp hx'
      rw [get?_withEntry] at hx hx'
      split at hx'
      · cases hx'
        rw [hstatus] at hconsumed
        cases hconsumed
      · have hmem : x' ∈ r.entries.values := Dict.mem_values.mpr ⟨id', hx'⟩
        split at hx
        · cases hx
          exact (h x' hmem).2 hconsumed
        · exact hd.undone id x hx hwaits x' hmem hconsumed

theorem register_of_makes (hr : Valid hash r) {mission goal session : Entries}
    {artifactRoot : Val} (h : MakesEntry hash r mission goal session artifactRoot now) :
    registerGoalExecutionRequest hash r mission goal session artifactRoot now =
      .ok (withEntry hash r (newEntry hash r.registryId mission goal session artifactRoot now)
        now) := by
  generalize he : newEntry hash r.registryId mission goal session artifactRoot now = e
  have hnew := h.new
  have hentry := validEntry_iff.mp h.valid
  rw [he] at hnew hentry
  have hkey : e.entryId ∉ r.entries.keys := by
    rw [Dict.mem_keys]
    rintro ⟨x, hx⟩
    rw [hnew] at hx
    cases hx
  have hvalid : Valid hash (withEntry hash r e now) := by
    refine ⟨hr.contract, rfl, hr.registryId, ?_, rfl, fun id x hx => ?_, fun id x hx => ?_⟩
    · change (r.entries.set e.entryId e).keys = r.entryOrder ++ [e.entryId]
      rw [Dict.keys_set_of_not_mem e hkey, hr.order]
    · rw [get?_withEntry] at hx
      split at hx
      · rename_i hid
        cases hx
        exact hid.symm
      · exact hr.ids id x hx
    · rw [get?_withEntry] at hx
      split at hx
      · cases hx
        exact hentry
      · exact hr.entries id x hx
  have hreasons : requireNone (sortedSet
      (registrationReasons (normalizeGoal hash mission goal) session artifactRoot)) = .ok () :=
    requireNone_ok.mpr (sortedSet_eq_nil.mpr h.allowed)
  unfold registerGoalExecutionRequest
  rw [requireNone_of_valid hr]
  change (if r.registryStatus ≠ .active then _ else _) = _
  rw [if_neg (not_not.mpr h.active), hreasons]
  dsimp only [bind, Except.bind]
  rw [he, hnew]
  dsimp only
  rw [requireNone_of_valid hvalid]

/-- What the law says of one call. -/
def Lawful (hash : Val → String) (r : Registry) (c : RegistryCall) : Prop :=
  OneExecution hash ((registryMachine hash).step r c).2 ∧
    KeepsResults r ((registryMachine hash).step r c).2

theorem after_of_ok {c : RegistryCall} (h : c.answer hash r = .ok r') :
    ((registryMachine hash).step r c).2 = r' := by
  change (c.answer hash r).toOption.getD r = r'
  rw [h]
  rfl

theorem after_of_error {c : RegistryCall} {err : Err} (h : c.answer hash r = .error err) :
    ((registryMachine hash).step r c).2 = r := by
  change (c.answer hash r).toOption.getD r = r
  rw [h]
  rfl

theorem lawful_iff_single (hr : Valid hash r) (hd : Distinct r) (c : RegistryCall) :
    Lawful hash r c ↔ Single hash r c := by
  have hmoves : ∀ r', c.answer hash r = .ok r' → Moves hash r.entries r'.entries →
      Lawful hash r c := by
    intro r' hanswer h
    unfold Lawful
    rw [after_of_ok hanswer]
    exact ⟨(oneExecution_iff (valid_answer hanswer)).mpr (hd.moves h), keepsResults_of_moves h⟩
  have hraised : ∀ err, c.answer hash r = .error err → Lawful hash r c := by
    intro err hanswer
    unfold Lawful
    rw [after_of_error hanswer]
    exact ⟨(oneExecution_iff hr).mpr hd, keepsResults_of_moves (@Moves.refl hash _)⟩
  cases hanswer : c.answer hash r with
  | error err =>
    refine iff_of_true (hraised err hanswer) ?_
    cases c with
    | consume entryId result now => trivial
    | finalize mission sessions now => trivial
    | register mission goal session artifactRoot now =>
      intro hmakes
      exact absurd ((register_of_makes hr hmakes).symm.trans hanswer) (by simp)
  | ok r' =>
    cases c with
    | consume entryId result now =>
      exact iff_of_true (hmoves r' hanswer (moves_consume hanswer).2.2) trivial
    | finalize mission sessions now =>
      exact iff_of_true (hmoves r' hanswer (moves_finalize hanswer).2.2) trivial
    | register mission goal session artifactRoot now =>
      obtain ⟨-, hvalid', ⟨rfl, x, hx⟩ | ⟨hactive, hallowed, hnew, rfl⟩⟩ := register_cases hanswer
      · refine iff_of_true (hmoves _ hanswer (.refl _)) fun hmakes => ?_
        have hnone := hmakes.new
        rw [hx] at hnone
        cases hnone
      · have hlaw : Lawful hash r (.register mission goal session artifactRoot now) ↔
            Untried r (newEntry hash r.registryId mission goal session artifactRoot now) := by
          unfold Lawful
          rw [after_of_ok hanswer, oneExecution_iff hvalid', distinct_withEntry hd hnew rfl,
            and_iff_left (keepsResults_withEntry hnew)]
        rw [hlaw]
        refine ⟨fun h _ => h, fun h => h ⟨hactive, hallowed, validEntry_iff.mpr ?_, hnew⟩⟩
        exact hvalid'.entries _ _ ((get?_withEntry _).trans (if_pos rfl))

/-! ## Runs -/

theorem distinct_created {registryId : Val}
    (h : createGoalExecutionRegistry hash registryId now = .ok r) : Distinct r := by
  unfold createGoalExecutionRegistry at h
  split at h
  · cases h
  · cases h
    refine ⟨fun id id' e e' he => ?_, fun id e he => ?_⟩
    · cases he
    · cases he

/-- Runs in which every call keeps the law are those in which every registration is single. -/
theorem one_execution_iff {registryId : Val}
    (hcreate : createGoalExecutionRegistry hash registryId now = .ok r)
    (calls : List RegistryCall) :
    (registryMachine hash).Guarded (Lawful hash) r calls ↔
      (registryMachine hash).Guarded (Single hash) r calls := by
  have hstep : ∀ r c, Valid hash r ∧ Distinct r → Lawful hash r c →
      Valid hash ((registryMachine hash).step r c).2 ∧
        Distinct ((registryMachine hash).step r c).2 := by
    rintro r c ⟨hr, -⟩ hlaw
    have hnext := valid_step hr c
    exact ⟨hnext, (oneExecution_iff hnext).mp hlaw.1⟩
  exact Machine.guarded_iff_of_invariant (fun r c hr => lawful_iff_single hr.1 hr.2 c) hstep
    ⟨valid_created hcreate, distinct_created hcreate⟩

end Digest

/-! ## A session that is registered again -/

theorem isBlank_text {x : Val} (h : x.text ≠ "") : isBlank x.text = false := by
  have hstrip : Text.strip x.text = x.text := by
    unfold Val.text
    split
    · exact Text.strip_strip _
    · rfl
  unfold isBlank
  rw [hstrip]
  exact beq_false_of_ne h

theorem normalizeGoal_ids (hash : Val → String) (mission goal : Entries) :
    (∃ x : Val, (normalizeGoal hash mission goal).missionId = x.text) ∧
      ∃ y : Val, (normalizeGoal hash mission goal).goalId = y.text := by
  unfold normalizeGoal
  dsimp only
  split
  · exact ⟨⟨_, rfl⟩, _, rfl⟩
  · exact ⟨⟨_, rfl⟩, _, rfl⟩

/-- Under a digest that is never blank, a request that nothing refuses makes an entry. -/
theorem makesEntry_of {hash : Val → String} {r : Registry} {now : Instant}
    {mission goal session : Entries} {artifactRoot : Val} (hr : Valid hash r)
    (hactive : r.registryStatus = .active)
    (hallowed : registrationReasons (normalizeGoal hash mission goal) session artifactRoot = [])
    (hsession : Val.eq (Val.getIn "session_id" session)
      (.str (Val.getIn "session_id" session).text) = true)
    (hhash : ∀ v, Text.strip (hash v) ≠ "")
    (hnew : r.entries.get?
      (newEntry hash r.registryId mission goal session artifactRoot now).entryId = none) :
    MakesEntry hash r mission goal session artifactRoot now := by
  have hreasons := hallowed
  unfold registrationReasons at hreasons
  simp only [List.append_eq_nil_iff, reasonIf_eq_nil, and_assoc] at hreasons
  obtain ⟨hmission, hgoal, -, -, -, -, hid, -⟩ := hreasons
  obtain ⟨⟨x, hx⟩, y, hy⟩ := normalizeGoal_ids hash mission goal
  have hmissionId : isBlank (normalizeGoal hash mission goal).missionId = false := by
    rw [hx] at hmission ⊢
    exact isBlank_text hmission
  have hgoalId : isBlank (normalizeGoal hash mission goal).goalId = false := by
    rw [hy] at hgoal ⊢
    exact isBlank_text hgoal
  have hentryId : ∀ t : String, isBlank ("goal-execution-entry-" ++ t) = false := by
    intro t
    refine beq_false_of_ne (@Text.strip_ne_empty _ 'g' ?_ (by decide))
    rw [String.toList_append]
    exact List.mem_append_left _ (by decide)
  refine ⟨hactive, hallowed, validEntry_iff.mpr ?_, hnew⟩
  exact
    { contract := rfl
      sealed := rfl
      entryId := hentryId _
      registryId := hr.registryId
      missionId := hmissionId
      goalId := hgoalId
      sessionId := isBlank_text hid
      requestFingerprint := beq_false_of_ne (hhash _)
      requestContract := rfl
      requestSession := hsession
      requestGoal := rfl
      requestMission := rfl
      request := rfl
      workspace := rfl
      transaction := rfl }

theorem consume_registered {hash : Val → String} {r : Registry} {e : RegistryEntry} {now : Instant}
    {entryId result : Val} (hr : Valid hash r) (he : r.entries.get? entryId.text = some e)
    (hstatus : e.entryStatus = .registered) (hresult : result.text ≠ "") :
    markRegistryEntryConsumed hash r entryId result now =
      .ok (sealGoalExecutionRegistry hash
        { r with
          entries := r.entries.set entryId.text (consumedEntry hash e result.text now)
          updatedAt := timeText now }) := by
  unfold markRegistryEntryConsumed
  rw [requireNone_of_valid hr, he]
  dsimp only [bind, Except.bind]
  rw [if_neg hresult, hstatus]

theorem makes_sample {r : Registry} {now : Instant} (hr : Valid sampleHash r)
    (hactive : r.registryStatus = .active) (hid : r.registryId = "registry")
    (hnew : r.entries.get? (entryAt now).entryId = none) :
    MakesEntry sampleHash r sampleMission sampleGoal waitingSession (.str "/artifacts") now := by
  refine makesEntry_of hr hactive (by decide +kernel) (by decide +kernel)
    (Val.strip_tagged sampleText) ?_
  rw [hid]
  exact hnew

def firstEntry : String := "goal-execution-entry-1..................."

def secondEntry : String := "goal-execution-entry-2..................."

theorem secondEntry_ne : secondEntry ≠ firstEntry := by
  decide +kernel

theorem entryId_first : (entryAt 1000000).entryId = firstEntry :=
  (entryId_newEntry "registry" sampleMission sampleGoal waitingSession (.str "/artifacts")
    (by decide)).trans (by decide +kernel)

theorem entryId_second : (entryAt 2000000).entryId = secondEntry :=
  (entryId_newEntry "registry" sampleMission sampleGoal waitingSession (.str "/artifacts")
    (by decide)).trans (by decide +kernel)

theorem one_execution_iff_sample : ∃ r,
    createGoalExecutionRegistry sampleHash (.str "registry") 0 = .ok r ∧
      (registryMachine sampleHash).Guarded (Lawful sampleHash) r [registerAt 1000000] := by
  refine ⟨_, rfl, (@one_execution_iff _ _ 0 (.str "registry") rfl _).mpr
    ⟨fun hmakes e' he' => ?_, trivial⟩⟩
  cases he'

theorem consumedEntry_status (e : RegistryEntry) (result : String) (now : Instant) :
    (consumedEntry sampleHash e result now).entryStatus = .consumed := rfl

theorem sameWork_again (registryId result : String) (at₁ at₂ at₃ : Instant) :
    SameWork
      (newEntry sampleHash registryId sampleMission sampleGoal waitingSession (.str "/artifacts") at₃)
      (consumedEntry sampleHash (entryAt at₁) result at₂) := by
  unfold entryAt consumedEntry newEntry sealRegistryEntry
  refine ⟨?_, ?_, ?_⟩
  · dsimp only
  · dsimp only
  · dsimp only
    change Val.eq (.str "seal") (.str "seal") = true
    decide

def againCalls : List RegistryCall :=
  [registerAt 1000000, .consume (.str firstEntry) (.str "result") 1000000, registerAt 2000000]

theorem register_at {r : Registry} {now : Instant} (hr : Valid sampleHash r)
    (hactive : r.registryStatus = .active) (hid : r.registryId = "registry")
    (hnew : r.entries.get? (entryAt now).entryId = none) :
    (registerAt now).answer sampleHash r = .ok (withEntry sampleHash r (entryAt now) now) := by
  have h := register_of_makes hr (makes_sample hr hactive hid hnew)
  rw [hid] at h
  exact h

theorem registered_again {r : Registry} (hr : Valid sampleHash r)
    (hactive : r.registryStatus = .active) (hid : r.registryId = "registry")
    (hempty : r.entries = Dict.empty) :
    ¬(registryMachine sampleHash).Guarded (Single sampleHash) r againCalls := by
  rintro ⟨-, -, hsingle, -⟩
  -- The first registration makes an entry.
  have hnone : ∀ id, r.entries.get? id = none := by
    intro id
    rw [hempty]
    rfl
  have hfirst := @register_at r 1000000 hr hactive hid (hnone _)
  generalize hr₁ : withEntry sampleHash r (entryAt 1000000) 1000000 = r₁ at hfirst
  have hvalid₁ := valid_answer hfirst
  have hafter₁ : ((registryMachine sampleHash).step r (registerAt 1000000)).2 = r₁ :=
    after_of_ok hfirst
  have hentries₁ : ∀ id, r₁.entries.get? id =
      if id = firstEntry then some (entryAt 1000000) else none := by
    intro id
    rw [← hr₁, get?_withEntry, hnone, entryId_first]
  -- The entry is consumed.
  have htext : (Val.str firstEntry).text = firstEntry := by decide +kernel
  have hsecond := @consume_registered sampleHash r₁ (entryAt 1000000) 1000000 (.str firstEntry)
    (.str "result") hvalid₁ (by rw [htext, hentries₁, if_pos rfl]) rfl (by decide +kernel)
  rw [htext] at hsecond
  generalize hr₂ : sealGoalExecutionRegistry sampleHash _ = r₂ at hsecond
  have hvalid₂ := (moves_consume hsecond).2.1
  have hafter₂ : ((registryMachine sampleHash).step r₁
      (.consume (.str firstEntry) (.str "result") 1000000)).2 = r₂ := after_of_ok hsecond
  have hentries₂ : ∀ id, r₂.entries.get? id = if id = firstEntry then
      some (consumedEntry sampleHash (entryAt 1000000) (Val.str "result").text 1000000) else none := by
    intro id
    rw [← hr₂]
    change Dict.get? (Dict.set _ _ _) id = _
    rw [Dict.get?_set, hentries₁]
    split
    · rfl
    · rfl
  -- The second registration makes an entry for the same work.
  rw [hafter₁, hafter₂] at hsingle
  have hid₂ : r₂.registryId = "registry" := by
    rw [← hr₂, ← hr₁]
    exact hid
  have hactive₂ : r₂.registryStatus = .active := by
    rw [← hr₂, ← hr₁]
    exact hactive
  have hnew : r₂.entries.get? (entryAt 2000000).entryId = none := by
    rw [hentries₂, entryId_second, if_neg secondEntry_ne]
  have huntried := hsingle (@makes_sample r₂ 2000000 hvalid₂ hactive₂ hid₂ hnew)
  have hdone := Dict.mem_values.mpr ⟨firstEntry, (hentries₂ firstEntry).trans (if_pos rfl)⟩
  have hsame := sameWork_again r₂.registryId (Val.str "result").text 1000000 1000000 2000000
  exact (huntried _ hdone).2 (consumedEntry_status _ _ _) hsame

/-- After a restart the session is registered again, and it is offered though its work is done. -/
theorem session_offered_again : Function.Injective sampleHash ∧ ∃ r,
    createGoalExecutionRegistry sampleHash (.str "registry") 0 = .ok r ∧
      ¬(registryMachine sampleHash).Guarded (Lawful sampleHash) r againCalls := by
  refine ⟨Val.tagged_injective sampleText, _, rfl, fun h => ?_⟩
  have hcreated := @valid_created sampleHash _ 0 (.str "registry") rfl
  have hsingle := (@one_execution_iff _ _ 0 (.str "registry") rfl _).mp h
  exact registered_again hcreated rfl rfl rfl hsingle

end Execution
end ZeroRuntime
