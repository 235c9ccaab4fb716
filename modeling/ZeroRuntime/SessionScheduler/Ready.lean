import ZeroRuntime.SessionScheduler.Fenced

/-!
# ZeroRuntime.SessionScheduler.Ready

Resuming all sessions that are ready (`resume_ready_sessions`).

* `FirstReady`: the entry can be dispatched, and none that can comes before it.
* `Whole`: what every operation keeps, whatever the times of the calls and the fingerprints are; a
  whole state can be recovered, and a lease that was just handed out can be given back.
* `Startable`: the arguments are accepted, the session belongs to the roots, and no call has used
  the first dispatch id of this second.
* `dispatchesReady_iff`: in every world that is reached, the first ready session is dispatched first
  if and only if it is startable.
-/

namespace ZeroRuntime
namespace SessionScheduler

open Lib Sessions

/-! ## The call -/

/-- How far a call to `resume_ready_sessions` came: the sessions it dispatched, one after the other,
and the state it returns, or the exception that ended it. -/
structure ReadyRun where
  files : Files
  dispatched : List DispatchAnswer
  outcome : Except Err SchedulerState

section Calls

variable (F : QueueDigest) (isoText : ℕ → String)

/-- `f"resume-ready:{time_text(now)}:{index}"` -/
def readyId (now : Instant) (index : ℕ) : String :=
  "resume-ready:" ++ isoText (timeText now) ++ ":" ++ toString index

section Loop

variable (owner : String) (targetRoot workspaceRoot : Root) (now : Instant)

/-- The loop over the indices from `index` on. -/
def resumeLoop : ℕ → ℕ → Files → SchedulerState → List DispatchAnswer → ReadyRun
  | 0, _, files, s, results => ⟨files, results, .ok s⟩
  | n + 1, index, files, s, results =>
    match dispatchSession F files s owner targetRoot workspaceRoot now none
        (some (readyId isoText now index)) with
    | (write, .error error) => ⟨afterWrite files write, results, .error error⟩
    | (write, .ok (s, .dispatched id sessionId status)) =>
      resumeLoop n (index + 1) (afterWrite files write) s
        (results ++ [.dispatched id sessionId status])
    | (write, .ok (s, _)) => ⟨afterWrite files write, results, .ok s⟩

def resumeReadySessions (files : Files) (s : SchedulerState) (maxSessions : ℤ) : ReadyRun :=
  if maxSessions < 1 ∨ 100 < maxSessions then
    ⟨files, [], .error (.valueError "invalid_max_sessions")⟩
  else match recoverSchedulerState F files s now with
    | .error error => ⟨files, [], .error error⟩
    | .ok s =>
      resumeLoop F isoText owner targetRoot workspaceRoot now maxSessions.toNat 0 files s []

end Loop

inductive ReadyStep where
  | single (st : Step)
  | resumeReady (owner : String) (maxSessions : ℤ) (targetRoot workspaceRoot : Root) (now : Instant)

def World.readyStep (w : World) : ReadyStep → World
  | .single st => w.step F st
  | .resumeReady owner maxSessions targetRoot workspaceRoot now =>
    let r := resumeReadySessions F isoText owner targetRoot workspaceRoot now w.files w.state
      maxSessions
    ⟨orKept w.state r.outcome, r.files, now⟩

/-- The scheduler under all of its operations. -/
def resuming : Machine World ReadyStep Unit where
  step w st := ((), w.readyStep F isoText st)

/-! ## What is claimed of it -/

/-- The first of the entries that can be dispatched. -/
structure FirstReady (s : SchedulerState) (now : Instant) (e : QueueEntry) : Prop where
  mem : e ∈ s.entries
  ready : dispatchable now e = true
  first : ∀ e' ∈ s.entries, dispatchable now e' = true → entryLe e e'

/-- What `recover_scheduler_state` makes of a state that is valid. -/
def World.recovered (w : World) (now : Instant) : SchedulerState :=
  SessionScheduler.recovered F w.files w.state now

def DispatchesReady (w : World) (owner : String) (maxSessions : ℤ) (targetRoot workspaceRoot : Root)
    (now : Instant) : Prop :=
  1 ≤ maxSessions → (∃ e ∈ (w.recovered F now).entries, dispatchable now e = true) →
    ∃ e id status, FirstReady (w.recovered F now) now e ∧
      (resumeReadySessions F isoText owner targetRoot workspaceRoot now w.files w.state
        maxSessions).dispatched.head? = some (.dispatched id e.sessionId status)

/-- The call is accepted, and its first dispatch id is new. -/
structure Startable (w : World) (owner : String) (maxSessions : ℤ)
    (targetRoot workspaceRoot : Root) (now : Instant) (e : QueueEntry) : Prop where
  count : maxSessions ≤ 100
  owned : Text.strip owner ≠ ""
  roots : ∀ session, w.files e.sessionPath = .session session →
    givenRootReasons session (some targetRoot) (some workspaceRoot) = []
  unused : readyId isoText now 0 ∉ w.state.processedDispatchIds

end Calls

variable {F : QueueDigest} {isoText : ℕ → String} {files : Files} {s s' s₁ : SchedulerState}
  {now clock : Instant}

/-! ## What every operation keeps -/

theorem seal_seal (s : SchedulerState) :
    sealSchedulerState F (sealSchedulerState F s) = sealSchedulerState F s := by
  have hentries : (s.entries.map (sealEntry F)).map (sealEntry F) =
      s.entries.map (sealEntry F) := by
    rw [List.map_map]
    rfl
  unfold sealSchedulerState sealFingerprint unsignedScheduler
  simp only [hentries]

theorem sealed_rebuild (s : SchedulerState) (at' : Instant) :
    sealSchedulerState F (rebuildWaitingProjection F s at') = rebuildWaitingProjection F s at' :=
  seal_seal _

variable (F) in
structure Whole (s : SchedulerState) : Prop where
  shaped : Shaped s
  signed : sealSchedulerState F s = s

theorem Whole.rebuild (h : Shaped s) (at' : Instant) :
    Whole F (rebuildWaitingProjection F s at') :=
  ⟨h.keeps (@keeps_rebuild F at' s at'), sealed_rebuild s at'⟩

theorem Whole.valid (h : Whole F s) : validateSchedulerState F s = [] := by
  have hvalid : validateSchedulerState F (sealSchedulerState F s) = [] := h.shaped.valid
  rwa [h.signed] at hvalid

theorem Whole.recover_eq (h : Whole F s) :
    recoverSchedulerState F files s now = .ok (recovered F files s now) := by
  unfold recoverSchedulerState checked
  rw [if_pos h.valid]
  rfl

theorem whole_recovered (h : Shaped s) : Whole F (recovered F files s now) :=
  Whole.rebuild (h.keeps (@keeps_map now (recoverEntry F files now) follows_recover s)) now

variable {e : QueueEntry}

theorem Shaped.append (h : Shaped s) (hsequence : e.sequenceNumber = nextSequence s.entries)
    (hfresh : SessionScheduler.entry? s e.sessionId = none) :
    Shaped { s with entries := s.entries ++ [e] } :=
  ⟨h.contract, h.version, sequences_append h.sequences hsequence,
    sessions_append h.sessions hfresh, h.scheduler⟩

theorem Shaped.change (h : Shaped s) (sessionId : String) {f : QueueEntry → QueueEntry}
    (hsequence : ∀ e, (f e).sequenceNumber = e.sequenceNumber)
    (hsession : ∀ e, (f e).sessionId = e.sessionId) : Shaped (changeEntry s sessionId f) where
  contract := h.contract
  version := h.version
  sequences := by
    change ((modifyFirst _ f s.entries).map QueueEntry.sequenceNumber).Nodup
    rw [map_modifyFirst hsequence]
    exact h.sequences
  sessions := by
    change ((modifyFirst _ f s.entries).map QueueEntry.sessionId).Nodup
    rw [map_modifyFirst hsession]
    exact h.sessions
  scheduler := h.scheduler

theorem whole_grant (h : Shaped s) {l : SessionLease} (hl : l.schedulerId = s.schedulerId) :
    Whole F (grant F s l) := by
  have hchanged := h.change l.sessionId (fun e => rfl) (f := leasedEntry l) fun e => rfl
  have hgranted : Shaped { changeEntry s l.sessionId (leasedEntry l) with
      leases := s.leases ++ [l], schedulerStatus := .running } :=
    ⟨hchanged.contract, hchanged.version, hchanged.sequences, hchanged.sessions, fun l' hl' => by
      rcases List.mem_append.mp hl' with hold | hnew
      · exact h.scheduler l' hold
      · rw [List.mem_singleton.mp hnew]
        exact hl⟩
  exact ⟨hgranted.keeps (@keeps_seal F 0 _), seal_seal _⟩

variable {owner : String}

theorem whole_release (h : Shaped s) {leaseId sessionId : String}
    (hs : releaseSessionLease F s leaseId owner sessionId now = .ok s') : Whole F s' := by
  obtain ⟨-, -, -, -, -, rfl⟩ := release_ok hs
  have hchanged := h.change sessionId (fun e => rfl) (f := unleased .released) fun e => rfl
  have hreleased : Shaped { changeEntry s sessionId (unleased .released) with
      leases := modifyFirst (fun l => l.leaseId = leaseId) (releasedLease now) s.leases
      schedulerStatus := .idle } := by
    refine ⟨hchanged.contract, hchanged.version, hchanged.sequences, hchanged.sessions, ?_⟩
    intro l' hl'
    have hsame := forall₂_modifyFirst (R := fun a b => b.schedulerId = a.schedulerId)
      (p := fun l => l.leaseId = leaseId) (f := releasedLease now) (fun _ => rfl)
      (fun _ _ => rfl) s.leases
    obtain ⟨l, hl, hid⟩ := forall₂_mem_right hsame hl'
    exact hid.trans (h.scheduler l hl)
  exact Whole.rebuild hreleased now

/-! ## Every call -/

variable {lease : Option SessionLease}

theorem whole_leaseNext (h : Whole F s) {lifetime : ℤ}
    (hs : leaseNextSession F files s owner lifetime now = .ok (s', lease)) : Whole F s' := by
  have hrecovered : Whole F (recovered F files s now) := whole_recovered h.shaped
  obtain ⟨-, -, ⟨-, rfl⟩ | ⟨candidate, live, -, -, -, rfl⟩⟩ := leaseNext_ok hs
  · exact hrecovered
  · exact whole_grant hrecovered.shaped rfl

theorem whole_dispatchLease (h : Whole F s) {leaseId : Option String}
    (hs : dispatchLease F files s owner now leaseId = .ok (s', lease)) : Whole F s' := by
  rcases dispatchLease_ok hs with rfl | hnew
  · exact h
  · exact whole_leaseNext h hnew

theorem whole_dispatch (h : Whole F s) {owner : String} {targetRoot workspaceRoot : Root}
    {leaseId dispatchId : Option String} {answer : DispatchAnswer}
    (hs : (dispatchSession F files s owner targetRoot workspaceRoot now leaseId dispatchId).2 =
      .ok (s', answer)) : Whole F s' := by
  rcases dispatch_ok hs with rfl | ⟨s₁, lease, hlease, rfl | ⟨s₂, id, sessionId, hkeeps, hrelease⟩⟩
  · exact h
  · exact whole_dispatchLease h hlease
  · exact whole_release ((whole_dispatchLease h hlease).shaped.keeps hkeeps) hrelease

theorem whole_settle (h : Shaped s) (e : QueueEntry) (result : Session) :
    Whole F (settleEntry F s e result now) :=
  ⟨h.keeps (@keeps_settle F now s e result now), sealed_rebuild _ now⟩

theorem whole_status (h : Shaped s) (status : SchedulerStatus) (at' : Instant) :
    Whole F (sealSchedulerState F
      { s with schedulerStatus := status, updatedAt := timeText at' }) :=
  ⟨h.keeps (@keeps_status F at' s status at'), seal_seal _⟩

theorem whole_pause (h : Whole F s) (hs : pauseQueue F s now = .ok s') : Whole F s' := by
  unfold pauseQueue at hs
  split at hs
  · cases hs
    exact whole_status h.shaped .paused now
  · cases hs

theorem whole_resume (h : Whole F s) (hs : resumeQueue F s now = .ok s') : Whole F s' := by
  unfold resumeQueue at hs
  split at hs
  · cases hs
  split at hs
  · cases hs
  · cases hs
    exact whole_status h.shaped .idle now

theorem whole_call {w : World} (h : Whole F w.state) {st : Step}
    (hs : (w.call F st).2 = .ok s') : Whole F s' := by
  cases st with
  | enqueue path priority targetRoot workspaceRoot now =>
    rcases enqueue_ok hs with rfl | ⟨session, p, hfresh, rfl⟩
    · exact h
    · exact Whole.rebuild (h.shaped.append rfl hfresh) now
  | recover now =>
    obtain ⟨-, rfl⟩ := recover_ok hs
    exact whole_recovered h.shaped
  | lease owner lifetime now =>
    obtain ⟨lease, hlease⟩ := map_fst_ok hs
    exact whole_leaseNext h hlease
  | release leaseId owner sessionId now => exact whole_release h.shaped hs
  | dispatch owner targetRoot workspaceRoot leaseId dispatchId now =>
    obtain ⟨answer, hanswer⟩ := map_fst_ok hs
    exact whole_dispatch h hanswer
  | submit input d targetRoot workspaceRoot now =>
    obtain ⟨write, hanswer⟩ := saving_ok hs
    obtain ⟨e, result, rfl⟩ := submit_ok hanswer
    exact whole_settle (whole_recovered h.shaped).shaped e result
  | cancel sessionId operatorId now =>
    obtain ⟨write, hanswer⟩ := saving_ok hs
    obtain ⟨e, result, rfl⟩ := cancel_ok hanswer
    exact whole_settle (whole_recovered h.shaped).shaped e result
  | pause now => exact whole_pause h hs
  | resume now => exact whole_resume h hs
  | edit path stored =>
    cases hs
    exact h

theorem whole_orKept {answer : Except Err SchedulerState} (h : Whole F s)
    (hs : ∀ s', answer = .ok s' → Whole F s') : Whole F (orKept s answer) := by
  cases answer with
  | ok s' => exact hs s' rfl
  | error e => exact h

section Loop

variable {owner : String} {targetRoot workspaceRoot : Root}

/-- The induction is on the sessions that may still be dispatched. -/
theorem whole_loop (h : Whole F s) {n index : ℕ} {results : List DispatchAnswer}
    (hs : (resumeLoop F isoText owner targetRoot workspaceRoot now n index files s
      results).outcome = .ok s') : Whole F s' := by
  induction n generalizing index files s results with
  | zero =>
    cases hs
    exact h
  | succ n ih =>
    rw [resumeLoop] at hs
    split at hs
    · cases hs
    · rename_i hdispatch
      exact ih (whole_dispatch h (congrArg Prod.snd hdispatch)) hs
    · rename_i hdispatch
      cases hs
      exact whole_dispatch h (congrArg Prod.snd hdispatch)

theorem loop_results (F : QueueDigest) (isoText : ℕ → String) (owner : String)
    (targetRoot workspaceRoot : Root) (now : Instant) (n index : ℕ) (files : Files)
    (s : SchedulerState) (results : List DispatchAnswer) :
    ∃ more, (resumeLoop F isoText owner targetRoot workspaceRoot now n index files s
      results).dispatched = results ++ more := by
  induction n generalizing index files s results with
  | zero => exact ⟨[], (List.append_nil results).symm⟩
  | succ n ih =>
    rw [resumeLoop]
    split
    · exact ⟨[], (List.append_nil results).symm⟩
    · rename_i id sessionId status hdispatch
      obtain ⟨more, hmore⟩ := ih (index + 1) (afterWrite files _) _
        (results ++ [.dispatched id sessionId status])
      rw [hmore, List.append_assoc]
      exact ⟨_, rfl⟩
    · exact ⟨[], (List.append_nil results).symm⟩

theorem whole_resumeReady (h : Whole F s) {maxSessions : ℤ}
    (hs : (resumeReadySessions F isoText owner targetRoot workspaceRoot now files s
      maxSessions).outcome = .ok s') : Whole F s' := by
  unfold resumeReadySessions at hs
  split at hs
  · cases hs
  · rw [h.recover_eq] at hs
    exact whole_loop (whole_recovered h.shaped) hs

end Loop

theorem whole_readyStep (w : World) (st : ReadyStep) (h : Whole F w.state) :
    Whole F (w.readyStep F isoText st).state := by
  cases st with
  | single st => exact whole_orKept h fun s' hs => whole_call h hs
  | resumeReady owner maxSessions targetRoot workspaceRoot now =>
    exact whole_orKept h fun s' hs => whole_resumeReady h hs

theorem whole_create {schedulerId : String} : Whole F (createSchedulerState F schedulerId now) := by
  refine ⟨⟨rfl, rfl, List.nodup_nil, List.nodup_nil, ?_⟩, seal_seal _⟩
  intro l hl
  cases hl

theorem whole_run (schedulerId : String) (sts : List ReadyStep) :
    Whole F ((resuming F isoText).run (World.init F schedulerId files now) sts).state :=
  @Machine.run_invariant World ReadyStep Unit (resuming F isoText) (fun w => Whole F w.state)
    (fun w st h => whole_readyStep w st h) _ sts whole_create

instance : Std.Total entryLe where
  total a b := by
    unfold entryLe
    omega

instance : IsTrans QueueEntry entryLe where
  trans a b c := by
    unfold entryLe
    omega

theorem safe_open {status : SessionStatus} (h : safeDispatch status = true) :
    status.waiting = false ∧ status.terminal = false := by
  cases status with
  | created => exact ⟨rfl, rfl⟩
  | running => exact ⟨rfl, rfl⟩
  | _ => cases h

theorem dispatchable_safe (h : dispatchable now e = true) :
    safeDispatch e.sessionStatus = true := by
  unfold dispatchable at h
  simp only [Bool.and_eq_true] at h
  exact h.1.1

/-- An entry that can be dispatched is among those that the next one is looked for. -/
theorem dispatchable_ordered (he : e ∈ s.entries) (h : dispatchable now e = true) :
    e ∈ orderedEntries s false := by
  refine (List.mem_insertionSort _).mpr (List.mem_filter.mpr ⟨he, ?_⟩)
  rw [(safe_open (dispatchable_safe h)).2]
  rfl

/-- The next candidate comes before every entry that can be dispatched. -/
theorem nextCandidate_first (h : nextCandidate s now = some e) : FirstReady s now e := by
  obtain ⟨hmem, hready⟩ := nextCandidate_mem h
  refine ⟨hmem, hready, fun e' he' hready' => ?_⟩
  obtain ⟨-, before, after, hlist, hbefore⟩ := List.find?_eq_some_iff_append.mp h
  have hin : e' ∈ orderedEntries s false := dispatchable_ordered he' hready'
  have hsorted : (orderedEntries s false).Pairwise entryLe := List.pairwise_insertionSort _ _
  rw [hlist] at hin hsorted
  rcases List.mem_append.mp hin with hb | ha
  · have hnot := hbefore e' hb
    rw [hready'] at hnot
    cases hnot
  · rcases List.mem_cons.mp ha with rfl | ha
    · exact .inr ⟨rfl, le_refl _⟩
    · exact (List.pairwise_cons.mp (List.pairwise_append.mp hsorted).2.1).1 e' ha

/-- Numbers are not used twice, so there is one first entry. -/
theorem FirstReady.unique (h : Shaped s) {e' : QueueEntry} (he : FirstReady s now e)
    (he' : FirstReady s now e') : e = e' := by
  refine eq_of_key h.sequences he.mem he'.mem ?_
  have hle := he.first e' he'.mem he'.ready
  have hle' := he'.first e he.mem he.ready
  unfold entryLe at hle hle'
  omega

theorem nextCandidate_of_ready (he : e ∈ s.entries) (hready : dispatchable now e = true) :
    ∃ c, nextCandidate s now = some c := by
  cases hnext : nextCandidate s now with
  | some c => exact ⟨c, rfl⟩
  | none => exact absurd hready (List.find?_eq_none.mp hnext e (dispatchable_ordered he hready))

theorem FirstReady.candidate (h : Shaped s) (he : FirstReady s now e) :
    nextCandidate s now = some e := by
  obtain ⟨c, hc⟩ := nextCandidate_of_ready he.mem he.ready
  rw [hc, (nextCandidate_first hc).unique h he]

/-! ## Recovering again -/

variable (F) in
/-- The status that the file of a session gives its entry. -/
def fileStatus (files : Files) (now : Instant) (path : String) : SessionStatus :=
  match files path with
  | .session session =>
    if storedReasons F session none none now ≠ [] then .blocked
    else if session.sessionStatus = .transactionRunning ∧
        (Val.getIn "transaction_result" session.artifacts).truthy = false then .blocked
    else session.sessionStatus
  | _ => .blocked

theorem refreshEntry_status (e : QueueEntry) :
    (refreshEntry F files now e).sessionStatus = fileStatus F files now e.sessionPath := by
  unfold refreshEntry fileStatus loadRuntimeSession
  cases files e.sessionPath with
  | missing => rfl
  | broken message => rfl
  | session session =>
    by_cases hreasons : storedReasons F session none none now = []
    · simp only [hreasons, Bool.false_eq_true, if_false, if_true, ne_eq, not_true_eq_false]
      split <;> rfl
    · simp only [hreasons, Bool.false_eq_true, if_false, if_true, ne_eq, not_false_eq_true]
      rfl

/-- What no recovery changes. -/
structure SamePlace (e e' : QueueEntry) : Prop where
  priority : e'.priority = e.priority
  available : e'.availableAt = e.availableAt

theorem samePlace_recover (e : QueueEntry) : SamePlace e (recoverEntry F files now e) := by
  have hexpire : SamePlace e (expireEntry now e) := by
    unfold expireEntry
    split <;> exact ⟨rfl, rfl⟩
  have hrefresh : SamePlace (expireEntry now e) (recoverEntry F files now e) := by
    unfold recoverEntry refreshEntry
    split
    · exact ⟨rfl, rfl⟩
    · rw [if_neg Bool.false_ne_true]
      cases loadRuntimeSession F files (expireEntry now e).sessionPath none none now with
      | error error => exact ⟨rfl, rfl⟩
      | ok session =>
        dsimp only
        split <;> exact ⟨rfl, rfl⟩
  exact ⟨hrefresh.priority.trans hexpire.priority, hrefresh.available.trans hexpire.available⟩

/-- The entry says what its file says, and its lease has not run out. -/
structure Settled (F : QueueDigest) (files : Files) (now : Instant) (e : QueueEntry) : Prop where
  status : e.sessionStatus = fileStatus F files now e.sessionPath
  due : overdue now e = false

theorem settled_recover (e : QueueEntry) : Settled F files now (recoverEntry F files now e) where
  status := by
    have hpath : (recoverEntry F files now e).sessionPath = (expireEntry now e).sessionPath :=
      (@follows_refresh F files now (expireEntry now e)).path
    rw [hpath]
    exact refreshEntry_status (expireEntry now e)
  due := by
    cases hdue : overdue now e with
    | true =>
      obtain ⟨hstatus, -⟩ := @recover_overdue F files now e hdue
      unfold overdue
      rw [hstatus]
      rfl
    | false =>
      rcases (@follows_recover F files now e).lease with hsame | ⟨hdue', -, -⟩
      · rw [hsame.overdue, hdue]
      · rw [hdue] at hdue'
        cases hdue'

/-- A settled entry is recovered to one of the same place, lease and status. -/
theorem Settled.again (h : Settled F files now e) :
    dispatchable now (sealEntry F (recoverEntry F files now e)) = dispatchable now e := by
  have hstatus : (recoverEntry F files now e).sessionStatus = e.sessionStatus := by
    rw [(settled_recover e).status, (@follows_recover F files now e).path, h.status]
  have hlease : (recoverEntry F files now e).leaseStatus = e.leaseStatus := by
    rcases (@follows_recover F files now e).lease with hsame | ⟨hdue, -, -⟩
    · exact hsame.status
    · rw [h.due] at hdue
      cases hdue
  have havailable := (@samePlace_recover F files now e).available
  change dispatchable now (recoverEntry F files now e) = dispatchable now e
  unfold dispatchable
  rw [hstatus, hlease, havailable]

theorem mem_recovered :
    e ∈ (recovered F files s now).entries ↔
      ∃ e₀ ∈ s.entries, e = sealEntry F (recoverEntry F files now e₀) := by
  change e ∈ (s.entries.map (recoverEntry F files now)).map (sealEntry F) ↔ _
  rw [List.map_map, List.mem_map]
  exact exists_congr fun e₀ => and_congr_right fun _ => eq_comm

theorem settled_recovered (he : e ∈ (recovered F files s now).entries) : Settled F files now e := by
  obtain ⟨e₀, -, rfl⟩ := mem_recovered.mp he
  exact ⟨(settled_recover e₀).status, (settled_recover e₀).due⟩

/-- Recovering a second time at the same time leaves the first ready entry what it is. -/
theorem FirstReady.again (h : FirstReady (recovered F files s now) now e) :
    FirstReady (recovered F files (recovered F files s now) now) now
      (sealEntry F (recoverEntry F files now e)) := by
  refine ⟨mem_recovered.mpr ⟨e, h.mem, rfl⟩, ?_, fun e' he' hready' => ?_⟩
  · rw [(settled_recovered h.mem).again]
    exact h.ready
  · obtain ⟨e₀, he₀, rfl⟩ := mem_recovered.mp he'
    rw [(settled_recovered he₀).again] at hready'
    have hle := h.first e₀ he₀ hready'
    have hplace := @samePlace_recover F files now e
    have hplace₀ := @samePlace_recover F files now e₀
    have hnumber := (@follows_recover F files now e).sequence
    have hnumber₀ := (@follows_recover F files now e₀).sequence
    change entryLe (recoverEntry F files now e) (recoverEntry F files now e₀)
    unfold entryLe at hle ⊢
    rw [hplace.priority, hplace₀.priority, hnumber, hnumber₀]
    exact hle

/-! ## The session of a ready entry -/

/-- The session of an entry that can be dispatched is there, and waits for nothing. -/
theorem fileStatus_safe {path : String} (h : safeDispatch (fileStatus F files now path) = true) :
    ∃ session, files path = .session session ∧ storedReasons F session none none now = [] ∧
      session.sessionStatus.waiting = false := by
  unfold fileStatus at h
  split at h
  · rename_i session hfile
    split at h
    · cases h
    · rename_i hreasons
      refine ⟨session, hfile, not_not.mp hreasons, ?_⟩
      split at h
      · cases h
      · exact (safe_open h).1
  · cases h

theorem storedReasons_roots {session : Session} {targetRoot workspaceRoot : Root}
    (h : storedReasons F session none none now = []) :
    storedReasons F session (some targetRoot) (some workspaceRoot) now = [] ↔
      givenRootReasons session (some targetRoot) (some workspaceRoot) = [] := by
  unfold storedReasons at h ⊢
  simp only [List.append_eq_nil_iff] at h ⊢
  obtain ⟨⟨⟨⟨hcontract, hfingerprint⟩, hartifacts⟩, -⟩, hexpired⟩ := h
  exact ⟨fun h => h.1.2, fun h => ⟨⟨⟨⟨hcontract, hfingerprint⟩, hartifacts⟩, h⟩, hexpired⟩⟩

/-- The session of a ready entry can go on under a lease if and only if it is of the roots. -/
theorem goesOn_iff {e : QueueEntry} {l : SessionLease} {targetRoot workspaceRoot : Root}
    (hentry : entry? s l.sessionId = some e)
    (hsafe : safeDispatch (fileStatus F files now e.sessionPath) = true) :
    goesOn F files s targetRoot workspaceRoot now l = true ↔
      ∀ session, files e.sessionPath = .session session →
        givenRootReasons session (some targetRoot) (some workspaceRoot) = [] := by
  obtain ⟨session, hfile, hreasons, hwaiting⟩ := fileStatus_safe hsafe
  unfold goesOn loadRuntimeSession
  simp only [hentry, hfile, Stored.session.injEq, forall_eq']
  rw [← storedReasons_roots hreasons]
  by_cases hroots : storedReasons F session (some targetRoot) (some workspaceRoot) now = []
  · simp [hroots, hwaiting]
  · simp [hroots]

/-! ## The first dispatch -/

section Dispatch

variable {owner : String} {targetRoot workspaceRoot : Root} {c e : QueueEntry}

/-- The entry that a lease was handed out for is found with the lease on it. -/
theorem grant_entry (h : Shaped s) (he : e ∈ s.entries) (lifetime : ℕ) :
    ∃ e', e' ∈ (grant F s (newLease F s e owner lifetime now)).entries ∧
      Held (newLease F s e owner lifetime now) e' ∧ e'.sessionPath = e.sessionPath := by
  have hchanged := mem_modifyFirst_of_find? (f := leasedEntry (newLease F s e owner lifetime now))
    (h.entry? he)
  exact ⟨_, List.mem_map_of_mem hchanged, ⟨rfl, rfl, rfl, rfl, rfl⟩, rfl⟩

theorem leaseNext_ready (h : Whole F s) (hc : FirstReady (recovered F files s now) now c)
    (howner : Text.strip owner ≠ "") :
    leaseNextSession F files s owner leaseSeconds now =
      .ok (grant F (recovered F files s now)
          (newLease F (recovered F files s now) c owner leaseSeconds.toNat now),
        some (newLease F (recovered F files s now) c owner leaseSeconds.toNat now)) := by
  have hshaped : Shaped (recovered F files s now) := (whole_recovered h.shaped).shaped
  unfold leaseNextSession
  rw [if_neg howner, if_neg (by decide), h.recover_eq]
  dsimp only [bind, Except.bind]
  rw [hc.candidate hshaped]
  unfold entryOf
  dsimp only
  rw [hshaped.entry? hc.mem]

/-- The first ready entry is dispatched if and only if nothing is wrong with the call. -/
theorem dispatch_first_iff (h : Whole F s) (hc : FirstReady (recovered F files s now) now c)
    {id : String} (hid : id ≠ "") :
    (∃ write s' identifier status,
      dispatchSession F files s owner targetRoot workspaceRoot now none (some id) =
        (write, .ok (s', .dispatched identifier c.sessionId status))) ↔
      Text.strip owner ≠ "" ∧
        (∀ session, files c.sessionPath = .session session →
          givenRootReasons session (some targetRoot) (some workspaceRoot) = []) ∧
        id ∉ s.processedDispatchIds := by
  have hrecovered : Whole F (recovered F files s now) := whole_recovered h.shaped
  have hgiven : given (some id) = some id := by
    unfold given
    rw [Option.filter_some, if_pos (decide_eq_true hid)]
  have hsafe : safeDispatch (fileStatus F files now c.sessionPath) = true := by
    rw [← (settled_recovered hc.mem).status]
    exact dispatchable_safe hc.ready
  let l := newLease F (recovered F files s now) c owner leaseSeconds.toNat now
  obtain ⟨e, he, hheld, hpath⟩ :=
    @grant_entry F (recovered F files s now) now owner c hrecovered.shaped hc.mem leaseSeconds.toNat
  have hgrant : Whole F (grant F (recovered F files s now) l) := whole_grant hrecovered.shaped rfl
  have hentry : entry? (grant F (recovered F files s now) l) l.sessionId = some e :=
    hheld.session ▸ hgrant.shaped.entry? he
  have hgoes := @goesOn_iff F files _ now e l targetRoot workspaceRoot hentry (hpath ▸ hsafe)
  rw [hpath] at hgoes
  rcases dispatchSession_cases (F := F) files s owner targetRoot workspaceRoot now none
      (some id) with
    ⟨done, hdone, hmem, heq⟩ | ⟨hnew, hcase⟩
  · rw [hgiven] at hdone
    cases hdone
    constructor
    · rintro ⟨write, s', identifier, status, hanswer⟩
      rw [heq] at hanswer
      cases hanswer
    · exact fun hall => absurd hmem hall.2.2
  · rw [hgiven, Option.any_some, decide_eq_false_iff_not] at hnew
    rw [dispatchLease_new rfl] at hcase
    by_cases howner : Text.strip owner = ""
    · have herror : leaseNextSession F files s owner leaseSeconds now =
          .error (.valueError "lease_owner_required") := by
        unfold leaseNextSession
        rw [if_pos howner]
      refine ⟨?_, fun hall => absurd howner hall.1⟩
      rintro ⟨write, s', identifier, status, hanswer⟩
      rcases hcase with ⟨error, -, heq⟩ | ⟨s₁, hlease, -⟩ | ⟨s₁, l, hlease, -⟩
      · rw [heq] at hanswer
        cases hanswer
      · rw [herror] at hlease
        cases hlease
      · rw [herror] at hlease
        cases hlease
    · rw [leaseNext_ready h hc howner] at hcase
      rcases hcase with ⟨error, hlease, -⟩ | ⟨s₁, hlease, -⟩ | ⟨s₁, l₁, hlease, heq⟩
      · cases hlease
      · cases hlease
      · cases hlease
        rw [heq]
        constructor
        · rintro ⟨write, s', identifier, status, hanswer⟩
          refine ⟨howner, ?_, hnew⟩
          rcases dispatchLeased_cases (F := F) files (grant F (recovered F files s now) l) l owner
              targetRoot workspaceRoot now (some id) with
            ⟨-, error, hrefused⟩ | ⟨hgo, -⟩
          · rw [hrefused] at hanswer
            cases hanswer
          · exact hgoes.mp hgo
        · rintro ⟨-, hroots, -⟩
          have hlisted : l ∈ (grant F (recovered F files s now) l).leases :=
            List.mem_append_right _ (List.mem_singleton.mpr rfl)
          obtain ⟨result, s₂, identifier, hanswer⟩ :=
            dispatchLeased_held hgrant.shaped hlisted he hheld (reached_future (by decide))
              (some id) (hgoes.mpr hroots)
          exact ⟨_, _, _, _, hanswer⟩

theorem readyId_ne (isoText : ℕ → String) (now : Instant) (index : ℕ) :
    readyId isoText now index ≠ "" := by
  intro h
  have hlen := congrArg String.length h
  unfold readyId at hlen
  simp only [String.length_append] at hlen
  have hprefix : "resume-ready:".length = 13 := rfl
  have hempty : "".length = 0 := rfl
  omega

/-- The call begins with what the first round dispatches. -/
theorem resume_head_iff (h : Whole F s) {maxSessions : ℤ} (hmin : 1 ≤ maxSessions)
    (hmax : maxSessions ≤ 100) {identifier sessionId : String} {status : SessionStatus} :
    (resumeReadySessions F isoText owner targetRoot workspaceRoot now files s
      maxSessions).dispatched.head? = some (.dispatched identifier sessionId status) ↔
    ∃ write s', dispatchSession F files (recovered F files s now) owner targetRoot workspaceRoot now
      none (some (readyId isoText now 0)) =
        (write, .ok (s', .dispatched identifier sessionId status)) := by
  obtain ⟨n, hn⟩ : ∃ n, maxSessions.toNat = n + 1 := ⟨maxSessions.toNat - 1, by omega⟩
  unfold resumeReadySessions
  rw [if_neg (by omega), h.recover_eq]
  dsimp only
  rw [hn, resumeLoop]
  split
  · rename_i write error hanswer
    rw [hanswer]
    simp
  · rename_i write s₁ id sid st hanswer
    obtain ⟨more, hmore⟩ := loop_results F isoText owner targetRoot workspaceRoot now n (0 + 1)
      (afterWrite files write) s₁ ([] ++ [.dispatched id sid st])
    rw [hmore, hanswer]
    simp [eq_comm]
  · rename_i write s₁ answer hnot hanswer
    rw [hanswer]
    constructor
    · intro hhead
      cases hhead
    · rintro ⟨write', s', hsame⟩
      cases hsame
      exact absurd rfl (hnot _ _ _)

theorem startable_iff {w : World} (h : Whole F w.state) {maxSessions : ℤ} (hmin : 1 ≤ maxSessions)
    (hc : FirstReady (w.recovered F now) now c) :
    (∃ id status, (resumeReadySessions F isoText owner targetRoot workspaceRoot now w.files w.state
      maxSessions).dispatched.head? = some (.dispatched id c.sessionId status)) ↔
      Startable isoText w owner maxSessions targetRoot workspaceRoot now c := by
  by_cases hmax : maxSessions ≤ 100
  · have hagain := FirstReady.again hc
    have hid : (recoverEntry F w.files now c).sessionId = c.sessionId :=
      (@follows_recover F w.files now c).session
    have hpath : (recoverEntry F w.files now c).sessionPath = c.sessionPath :=
      (@follows_recover F w.files now c).path
    have hfirst := @dispatch_first_iff F w.files (w.recovered F now) now owner targetRoot
      workspaceRoot _ (whole_recovered h.shaped) hagain _ (readyId_ne isoText now 0)
    change (∃ write s' identifier status, _ = (write, Except.ok (s',
      DispatchAnswer.dispatched identifier (recoverEntry F w.files now c).sessionId status))) ↔
        _ ∧ (∀ session, w.files (recoverEntry F w.files now c).sessionPath = _ → _) ∧ _ at hfirst
    rw [hid, hpath] at hfirst
    constructor
    · rintro ⟨id, status, hhead⟩
      obtain ⟨write, s', hanswer⟩ := (resume_head_iff h hmin hmax).mp hhead
      obtain ⟨howner, hroots, hunused⟩ := hfirst.mp ⟨write, s', id, status, hanswer⟩
      exact ⟨hmax, howner, hroots, hunused⟩
    · intro hstart
      obtain ⟨write, s', id, status, hanswer⟩ :=
        hfirst.mpr ⟨hstart.owned, hstart.roots, hstart.unused⟩
      exact ⟨id, status, (resume_head_iff h hmin hmax).mpr ⟨write, s', hanswer⟩⟩
  · refine ⟨?_, fun hstart => absurd hstart.count hmax⟩
    rintro ⟨id, status, hhead⟩
    unfold resumeReadySessions at hhead
    rw [if_pos (by omega)] at hhead
    cases hhead

end Dispatch

/-! ## Runs -/

/-- The world that is reached from an empty queue by calls at any times. -/
def worldAfter (F : QueueDigest) (isoText : ℕ → String) (schedulerId : String) (files : Files)
    (start : Instant) (sts : List ReadyStep) : World :=
  (resuming F isoText).run (World.init F schedulerId files start) sts

/-- In every world that is reached, the first ready session is the first to be dispatched if and
only if the call is accepted for it and no call before has used the first dispatch id of this
second. -/
theorem dispatchesReady_iff (F : QueueDigest) (isoText : ℕ → String) (schedulerId : String)
    (files : Files) (start : Instant) (sts : List ReadyStep) (owner : String) (maxSessions : ℤ)
    (targetRoot workspaceRoot : Root) (now : Instant) :
    DispatchesReady F isoText (worldAfter F isoText schedulerId files start sts) owner maxSessions
        targetRoot workspaceRoot now ↔
      (1 ≤ maxSessions → ∀ e, FirstReady ((worldAfter F isoText schedulerId files start
          sts).recovered F now) now e →
        Startable isoText (worldAfter F isoText schedulerId files start sts) owner maxSessions
          targetRoot workspaceRoot now e) := by
  have h : Whole F (worldAfter F isoText schedulerId files start sts).state :=
    whole_run schedulerId sts
  generalize worldAfter F isoText schedulerId files start sts = w at h
  have hshaped : Shaped (w.recovered F now) := (whole_recovered h.shaped).shaped
  constructor
  · intro hdispatches hmin e he
    obtain ⟨e', id, status, he', hhead⟩ := hdispatches hmin ⟨e, he.mem, he.ready⟩
    obtain rfl := he'.unique hshaped he
    exact (startable_iff h hmin he).mp ⟨id, status, hhead⟩
  · rintro hstart hmin ⟨e, he, hready⟩
    obtain ⟨c, hc⟩ := nextCandidate_of_ready he hready
    have hfirst := nextCandidate_first hc
    obtain ⟨id, status, hhead⟩ := (startable_iff h hmin hfirst).mpr (hstart hmin c hfirst)
    exact ⟨c, id, status, hfirst, hhead⟩

def twoFiles : Files := fun path =>
  if path = "/sessions/1.json" then .session sampleSession
  else if path = "/sessions/2.json" then .session { sampleSession with sessionId := "2" }
  else .missing

/-- A session is resumed, and in the same second another one is enqueued. -/
def secondArrives : List ReadyStep :=
  [.single (.enqueue "/sessions/1.json" (.str "normal") none none 0),
   .resumeReady "first" 1 (some "/target") (some "/work") 0,
   .single (.enqueue "/sessions/2.json" (.str "high") none none 400000)]

/-- The session is ready and nobody has a lease on it, but the call dispatches nothing. -/
theorem same_second_refused :
    ¬DispatchesReady sampleDigest toString
      (worldAfter sampleDigest toString "scheduler" twoFiles 0 secondArrives) "second" 5
      (some "/target") (some "/work") 800000 := by
  intro h
  let w := worldAfter sampleDigest toString "scheduler" twoFiles 0 secondArrives
  have hfacts : (∃ e ∈ (w.recovered sampleDigest 800000).entries, dispatchable 800000 e = true) ∧
      (resumeReadySessions sampleDigest toString "second" (some "/target") (some "/work") 800000
        w.files w.state 5).dispatched.head? = none := by
    decide +kernel
  obtain ⟨hready, hnone⟩ := hfacts
  obtain ⟨e, id, status, -, hhead⟩ := h (by decide) hready
  rw [hnone] at hhead
  cases hhead

end SessionScheduler
end ZeroRuntime
