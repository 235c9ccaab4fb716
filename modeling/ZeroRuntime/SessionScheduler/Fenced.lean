import ZeroRuntime.Lib.Digest
import ZeroRuntime.Lib.Machine
import ZeroRuntime.SessionScheduler.Leases

/-!
# ZeroRuntime.SessionScheduler.Fenced

Who can make a session go on.

* `World`: the state of the scheduler, the files of the sessions and the time of the last call. A
  `Step` is a call of anyone, or a file of a session that others change.
* `Fenced`: a dispatch with a lease saves the session only under the lease that is on its entry and
  has not run out; one that is refused leaves every file as it is.
* `Timely` is the condition: a dispatch that is taken up by its lease comes before the lease runs
  out.
* `fenced_iff_timely`: in a run of calls at times in order, all steps are the one if and only if all
  are the other.
-/

namespace ZeroRuntime
namespace SessionScheduler

open Lib Sessions

structure World where
  state : SchedulerState
  files : Files
  clock : Instant

inductive Step where
  | enqueue (path : String) (priority : Val) (targetRoot workspaceRoot : Option Root) (now : Instant)
  | recover (now : Instant)
  | lease (owner : String) (lifetime : ℤ) (now : Instant)
  | release (leaseId owner sessionId : String) (now : Instant)
  | dispatch (owner : String) (targetRoot workspaceRoot : Root) (leaseId dispatchId : Option String)
      (now : Instant)
  | submit (input : SessionInput) (d : Decision) (targetRoot workspaceRoot : Root) (now : Instant)
  | cancel (sessionId operatorId : String) (now : Instant)
  | pause (now : Instant)
  | resume (now : Instant)
  | edit (path : String) (stored : Stored)

/-- The time of a call. -/
def Step.now? : Step → Option Instant
  | .enqueue _ _ _ _ now => some now
  | .recover now => some now
  | .lease _ _ now => some now
  | .release _ _ _ now => some now
  | .dispatch _ _ _ _ _ now => some now
  | .submit _ _ _ _ now => some now
  | .cancel _ _ now => some now
  | .pause now => some now
  | .resume now => some now
  | .edit _ _ => none

section Digest

variable (F : QueueDigest)

/-- A call that comes to its end saved a session. -/
def saving (answer : Except Err (SchedulerState × SessionWrite)) :
    Option SessionWrite × Except Err SchedulerState :=
  match answer with
  | .ok (s, write) => (some write, .ok s)
  | .error e => (none, .error e)

/-- The session that a step saves, and the state it returns. -/
def World.call (w : World) : Step → Option SessionWrite × Except Err SchedulerState
  | .enqueue path priority targetRoot workspaceRoot now =>
    (none, enqueueSession F w.files w.state path priority targetRoot workspaceRoot now)
  | .recover now => (none, recoverSchedulerState F w.files w.state now)
  | .lease owner lifetime now =>
    (none, (leaseNextSession F w.files w.state owner lifetime now).map Prod.fst)
  | .release leaseId owner sessionId now =>
    (none, releaseSessionLease F w.state leaseId owner sessionId now)
  | .dispatch owner targetRoot workspaceRoot leaseId dispatchId now =>
    let answer := dispatchSession F w.files w.state owner targetRoot workspaceRoot now leaseId
      dispatchId
    (answer.1, answer.2.map Prod.fst)
  | .submit input d targetRoot workspaceRoot now =>
    saving (submitOperatorInput F w.files w.state input d targetRoot workspaceRoot now)
  | .cancel sessionId operatorId now =>
    saving (cancelScheduledSession F w.files w.state sessionId operatorId now)
  | .pause now => (none, pauseQueue F w.state now)
  | .resume now => (none, resumeQueue F w.state now)
  | .edit _ _ => (none, .ok w.state)

/-- A call that raises leaves its caller the state it had. -/
def orKept (s : SchedulerState) (answer : Except Err SchedulerState) : SchedulerState :=
  match answer with
  | .ok s' => s'
  | .error _ => s

def filesAfter (w : World) : Step → Files
  | .edit path stored => fun p => if p = path then stored else w.files p
  | st => afterWrite w.files (w.call F st).1

def World.step (w : World) (st : Step) : World where
  state := orKept w.state (w.call F st).2
  files := filesAfter F w st
  clock := st.now?.getD w.clock

def scheduling : Machine World Step Unit where
  step w st := ((), w.step F st)

/-- No call is made at a time before that of an earlier one. -/
def InOrder (w : World) (st : Step) : Prop := ∀ now ∈ st.now?, w.clock ≤ now

instance (w : World) (st : Step) : Decidable (InOrder w st) :=
  inferInstanceAs (Decidable (∀ now ∈ st.now?, w.clock ≤ now))

/-- A dispatch answers that it was done. -/
def World.dispatched (w : World) : Step → Bool
  | .dispatch owner targetRoot workspaceRoot leaseId dispatchId now =>
    match (dispatchSession F w.files w.state owner targetRoot workspaceRoot now leaseId
      dispatchId).2 with
    | .ok (_, .dispatched ..) => true
    | _ => false
  | _ => false

/-- The step is a dispatch, with a lease or without one. -/
def Step.isDispatch : Step → Bool
  | .dispatch .. => true
  | _ => false

def Step.leaseId? : Step → Option String
  | .dispatch _ _ _ leaseId _ _ => given leaseId
  | _ => none

structure Fenced (w : World) (st : Step) : Prop where
  current : ∀ id path session, st.leaseId? = some id → (w.call F st).1 = some (path, session) →
    ∃ e ∈ w.state.entries, e.sessionPath = path ∧ e.leaseStatus = .active ∧ e.leaseId = id ∧
      ∀ now ∈ st.now?, ∃ time, e.leaseExpiresAt = some time ∧ reached now time = false
  refused : st.isDispatch = true → w.dispatched F st = false → (w.step F st).files = w.files

def goesOn (files : Files) (s : SchedulerState) (targetRoot workspaceRoot : Root) (now : Instant)
    (l : SessionLease) : Bool :=
  match entry? s l.sessionId with
  | none => false
  | some e =>
    match loadRuntimeSession F files e.sessionPath (some targetRoot) (some workspaceRoot) now with
    | .ok session => !session.sessionStatus.waiting
    | .error _ => false

def takenUp (w : World) : Step → Option SessionLease
  | .dispatch owner targetRoot workspaceRoot leaseId dispatchId now =>
    if (given dispatchId).any fun id => id ∈ w.state.processedDispatchIds then none
    else
      ((given leaseId).bind (listed? w.state)).filter fun l =>
        l.leaseOwner = owner && goesOn F w.files w.state targetRoot workspaceRoot now l
  | _ => none

/-- The condition on a step, in the world it is taken in. -/
def Timely (w : World) (st : Step) : Prop :=
  ∀ l ∈ takenUp F w st, ∀ now ∈ st.now?, reached now l.expiresAt = false

instance (w : World) (st : Step) : Decidable (Timely F w st) :=
  inferInstanceAs (Decidable
    (∀ l ∈ takenUp F w st, ∀ now ∈ st.now?, reached now l.expiresAt = false))

end Digest

variable {F : QueueDigest} {files : Files} {s s' s₁ : SchedulerState} {now clock : Instant}

/-! ## The operations keep the record -/

variable {owner : String} {lease : Option SessionLease}

theorem leaseNext_ok {lifetime : ℤ}
    (hs : leaseNextSession F files s owner lifetime now = .ok (s', lease)) :
    validateSchedulerState F s = [] ∧ 1 ≤ lifetime ∧
      ((lease = none ∧ s' = recovered F files s now) ∨
        ∃ candidate live, nextCandidate (recovered F files s now) now = some candidate ∧
          entry? (recovered F files s now) candidate.sessionId = some live ∧
          lease = some (newLease F (recovered F files s now) live owner lifetime.toNat now) ∧
          s' = grant F (recovered F files s now)
            (newLease F (recovered F files s now) live owner lifetime.toNat now)) := by
  unfold leaseNextSession at hs
  split at hs
  · cases hs
  split at hs
  · cases hs
  rename_i hlifetime
  obtain ⟨s₁, hrecover, hrest⟩ := bind_eq_ok.mp hs
  obtain ⟨hvalid, rfl⟩ := recover_ok hrecover
  refine ⟨hvalid, not_lt.mp (not_or.mp hlifetime).1, ?_⟩
  split at hrest
  · cases hrest
    exact .inl ⟨rfl, rfl⟩
  · rename_i candidate hcandidate
    obtain ⟨live, hlive, hgrant⟩ := bind_eq_ok.mp hrest
    unfold entryOf at hlive
    split at hlive
    case h_2 => cases hlive
    rename_i hentry
    cases hlive
    cases hgrant
    exact .inr ⟨candidate, _, hcandidate, hentry, rfl, rfl⟩

variable {e : QueueEntry}

theorem nextCandidate_mem (h : nextCandidate s now = some e) :
    e ∈ s.entries ∧ dispatchable now e = true := by
  refine ⟨?_, @List.find?_some _ (dispatchable now) e _ h⟩
  have hmem := (List.mem_insertionSort _).mp (List.mem_of_find?_eq_some h)
  exact (List.mem_filter.mp hmem).1

theorem dispatchable_free (h : dispatchable now e = true) : e.leaseStatus ≠ .active := by
  unfold dispatchable at h
  simp only [Bool.and_eq_true, decide_eq_true_eq] at h
  exact h.1.2

/-- A lease that was just handed out has not run out. -/
theorem reached_future {n : ℕ} (hn : 1 ≤ n) : reached now (timeText now + n) = false := by
  unfold reached timeText
  rw [decide_eq_false_iff_not]
  omega

/-- A lease that was handed out is on its entry. -/
theorem recorded_leaseNext (h : Recorded F clock s) (hF : Faithful F) (hclock : clock ≤ now)
    {lifetime : ℤ} (hs : leaseNextSession F files s owner lifetime now = .ok (s', lease)) :
    Recorded F now s' ∧ ∀ l ∈ lease, l ∈ s'.leases ∧ l.leaseOwner = owner ∧
      reached now l.expiresAt = false ∧ ∃ e ∈ s'.entries, Held l e := by
  have hrecovered := recorded_keeps hclock h (@keeps_recovered F files now s)
  obtain ⟨-, hlifetime, ⟨rfl, rfl⟩ | ⟨candidate, live, hcandidate, hentry, rfl, rfl⟩⟩ :=
    leaseNext_ok hs
  · refine ⟨hrecovered, ?_⟩
    rintro l hl
    cases hl
  · obtain ⟨hmem, hfree⟩ := nextCandidate_mem hcandidate
    rw [hrecovered.entry? hmem] at hentry
    cases hentry
    have hfree := dispatchable_free hfree
    have hgrant : Recorded F now (grant F (recovered F files s now) (newLease F
        (recovered F files s now) candidate owner lifetime.toNat now)) :=
      recorded_grant hrecovered hF hmem hfree owner lifetime.toNat
    refine ⟨hgrant, ?_⟩
    rintro l hl
    cases hl
    have hlisted : newLease F (recovered F files s now) candidate owner lifetime.toNat now ∈
        (grant F (recovered F files s now) (newLease F (recovered F files s now) candidate owner
          lifetime.toNat now)).leases := List.mem_append_right _ (List.mem_singleton.mpr rfl)
    refine ⟨hlisted, rfl, reached_future (by omega), ?_⟩
    have hchanged := mem_changeEntry_of
      (f := leasedEntry (newLease F (recovered F files s now) candidate owner lifetime.toNat now))
      hrecovered hmem
    exact ⟨_, List.mem_map_of_mem hchanged, rfl, rfl, rfl, rfl, rfl⟩

/-- An accepted path is the one of an entry already, or of a new one. -/
theorem enqueue_ok {path : String} {priority : Val} {targetRoot workspaceRoot : Option Root}
    (hs : enqueueSession F files s path priority targetRoot workspaceRoot now = .ok s') :
    s' = s ∨ ∃ session p, entry? s session.sessionId = none ∧
      s' = rebuildWaitingProjection F { s with
        entries := s.entries ++ [projection F session path p (nextSequence s.entries) now] } now := by
  obtain ⟨s₁, hcheck, hrest⟩ := bind_eq_ok.mp hs
  obtain ⟨-, rfl⟩ := checked_ok hcheck
  obtain ⟨priority, -, hrest'⟩ := bind_eq_ok.mp hrest
  split at hrest'
  · cases hrest'
  obtain ⟨session, -, hsession⟩ := bind_eq_ok.mp hrest'
  split at hsession
  · split at hsession
    · cases hsession
      exact .inl rfl
    · cases hsession
  · rename_i hfresh
    split at hsession
    · cases hsession
    · cases hsession
      exact .inr ⟨session, priority, hfresh, rfl⟩

theorem recorded_enqueue {path : String} {priority : Val} {targetRoot workspaceRoot : Option Root}
    (h : Recorded F clock s) (hclock : clock ≤ now)
    (hs : enqueueSession F files s path priority targetRoot workspaceRoot now = .ok s') :
    Recorded F now s' := by
  have hkept := recorded_keeps hclock h (Keeps.refl _)
  rcases enqueue_ok hs with rfl | ⟨session, p, hfresh, rfl⟩
  · exact hkept
  · exact recorded_keeps (le_refl now) (recorded_append hkept rfl hfresh rfl rfl rfl)
      (keeps_rebuild _ now)

/-- What a dispatch under a lease saves and answers. -/
theorem dispatchLeased_cases (files : Files) (s : SchedulerState) (l : SessionLease) (owner : String)
    (targetRoot workspaceRoot : Root) (now : Instant) (dispatchId : Option String) :
    (goesOn F files s targetRoot workspaceRoot now l = false ∧ ∃ error,
        dispatchLeased F files s l owner targetRoot workspaceRoot now dispatchId =
          (none, .error error)) ∨
      goesOn F files s targetRoot workspaceRoot now l = true ∧ ∃ e result s₁ identifier,
        entry? s l.sessionId = some e ∧ Keeps now s s₁ ∧
        dispatchLeased F files s l owner targetRoot workspaceRoot now dispatchId =
          (some (e.sessionPath, result), do
            let s₂ ← releaseSessionLease F s₁ l.leaseId owner l.sessionId now
            .ok (s₂, .dispatched identifier l.sessionId result.sessionStatus)) := by
  unfold goesOn dispatchLeased
  cases hentry : entry? s l.sessionId with
  | none => exact .inl ⟨rfl, _, rfl⟩
  | some e =>
    dsimp only
    cases hload : loadRuntimeSession F files e.sessionPath (some targetRoot) (some workspaceRoot)
      now with
    | error error => exact .inl ⟨rfl, _, rfl⟩
    | ok session =>
      dsimp only
      cases hwaiting : session.sessionStatus.waiting with
      | true => exact .inl ⟨rfl, _, rfl⟩
      | false =>
        exact .inr ⟨rfl, e, _, _, _, rfl, keeps_noteDispatch s l.sessionId _ _ _ now, rfl⟩

variable {l : SessionLease} {targetRoot workspaceRoot : Root}

/-- A dispatch under the lease that is on the entry, before it runs out, comes to its end. -/
theorem dispatchLeased_held (h : Shaped s) (hl : l ∈ s.leases) (he : e ∈ s.entries)
    (hheld : Held l e) (hexpires : reached now l.expiresAt = false) (dispatchId : Option String)
    (hgoes : goesOn F files s targetRoot workspaceRoot now l = true) :
    ∃ result s₂ identifier,
      dispatchLeased F files s l l.leaseOwner targetRoot workspaceRoot now dispatchId =
        (some (e.sessionPath, result),
          .ok (s₂, .dispatched identifier l.sessionId result.sessionStatus)) := by
  rcases dispatchLeased_cases (F := F) files s l l.leaseOwner targetRoot workspaceRoot now
      dispatchId with
    ⟨hstop, -⟩ | ⟨-, e', result, s₁, identifier, hentry, hkeeps, hanswer⟩
  · rw [hgoes] at hstop
    cases hstop
  · rw [← hheld.session, h.entry? he] at hentry
    cases hentry
    have hl₁ : l ∈ s₁.leases := hkeeps.leases.symm ▸ hl
    obtain ⟨e₁, he₁, hf⟩ := forall₂_mem_left hkeeps.entries he
    have hheld₁ : Held l e₁ := by
      rcases hf.lease with hsame | ⟨hdue, -, -⟩
      · exact hsame.held hf.session hheld
      · rw [overdue_held hheld, hexpires] at hdue
        cases hdue
    obtain ⟨s₂, hrelease⟩ : ∃ s₂, releaseSessionLease F s₁ l.leaseId l.leaseOwner l.sessionId now
        = .ok s₂ :=
      release_of_held (h.keeps hkeeps) hl₁ he₁ hheld₁
    rw [hrelease] at hanswer
    exact ⟨result, s₂, identifier, hanswer⟩

/-- A dispatch is a duplicate, is refused a lease, or goes by one. -/
theorem dispatchSession_cases (files : Files) (s : SchedulerState) (owner : String)
    (targetRoot workspaceRoot : Root) (now : Instant) (leaseId dispatchId : Option String) :
    (∃ id, given dispatchId = some id ∧ id ∈ s.processedDispatchIds ∧
        dispatchSession F files s owner targetRoot workspaceRoot now leaseId dispatchId =
          (none, .ok (s, .duplicate id))) ∨
      ((given dispatchId).any fun id => id ∈ s.processedDispatchIds) = false ∧
        ((∃ error, dispatchLease F files s owner now leaseId = .error error ∧
            dispatchSession F files s owner targetRoot workspaceRoot now leaseId dispatchId =
              (none, .error error)) ∨
          (∃ s₁, dispatchLease F files s owner now leaseId = .ok (s₁, none) ∧
            dispatchSession F files s owner targetRoot workspaceRoot now leaseId dispatchId =
              (none, .ok (s₁, .notDispatched))) ∨
          ∃ s₁ l, dispatchLease F files s owner now leaseId = .ok (s₁, some l) ∧
            dispatchSession F files s owner targetRoot workspaceRoot now leaseId dispatchId =
              dispatchLeased F files s₁ l owner targetRoot workspaceRoot now dispatchId) := by
  unfold dispatchSession
  cases hfilter : (given dispatchId).filter fun id => id ∈ s.processedDispatchIds with
  | some id =>
    obtain ⟨hid, hmem⟩ := Option.filter_eq_some_iff.mp hfilter
    exact .inl ⟨id, hid, of_decide_eq_true hmem, rfl⟩
  | none =>
    refine .inr ⟨?_, ?_⟩
    · cases hid : given dispatchId with
      | none => rfl
      | some id =>
        rw [Option.any_some]
        exact Bool.eq_false_iff.mpr (Option.filter_eq_none_iff.mp hfilter id hid)
    · dsimp only
      cases dispatchLease F files s owner now leaseId with
      | error error => exact .inl ⟨error, rfl, rfl⟩
      | ok answer =>
        obtain ⟨s₁, lease⟩ := answer
        cases lease with
        | none => exact .inr (.inl ⟨s₁, rfl, rfl⟩)
        | some l => exact .inr (.inr ⟨s₁, l, rfl, rfl⟩)

variable {leaseId : Option String}

variable {id : String}

theorem dispatchLease_named (hid : given leaseId = some id)
    (hs : dispatchLease F files s owner now leaseId = .ok (s', some l)) :
    s' = s ∧ listed? s id = some l ∧ l.leaseOwner = owner := by
  unfold dispatchLease at hs
  rw [hid] at hs
  dsimp only at hs
  split at hs
  · rename_i hlisted
    split at hs
    · rename_i howner
      cases hs
      exact ⟨rfl, hlisted, howner⟩
    · cases hs
  · cases hs

theorem dispatchLease_new (hid : given leaseId = none) :
    dispatchLease F files s owner now leaseId =
      leaseNextSession F files s owner leaseSeconds now := by
  unfold dispatchLease
  rw [hid]

theorem dispatchLease_ok (hs : dispatchLease F files s owner now leaseId = .ok (s', lease)) :
    s' = s ∨ leaseNextSession F files s owner leaseSeconds now = .ok (s', lease) := by
  unfold dispatchLease at hs
  split at hs
  · split at hs
    · split at hs
      · cases hs
        exact .inl rfl
      · cases hs
    · cases hs
  · exact .inr hs

theorem recorded_dispatchLease (h : Recorded F clock s) (hF : Faithful F) (hclock : clock ≤ now)
    (hs : dispatchLease F files s owner now leaseId = .ok (s', lease)) : Recorded F now s' := by
  rcases dispatchLease_ok hs with rfl | hnew
  · exact recorded_keeps hclock h (Keeps.refl _)
  · exact (recorded_leaseNext h hF hclock hnew).1

variable {dispatchId : Option String}

/-- A call that succeeds has gone on under a lease and released it, or stopped before. -/
theorem dispatch_ok {answer : DispatchAnswer}
    (hs : (dispatchSession F files s owner targetRoot workspaceRoot now leaseId dispatchId).2 =
      .ok (s', answer)) :
    s' = s ∨ ∃ s₁ lease, dispatchLease F files s owner now leaseId = .ok (s₁, lease) ∧
      (s' = s₁ ∨ ∃ s₂ id sessionId, Keeps now s₁ s₂ ∧
        releaseSessionLease F s₂ id owner sessionId now = .ok s') := by
  rcases dispatchSession_cases (F := F) files s owner targetRoot workspaceRoot now leaseId
      dispatchId with
    ⟨id, -, -, heq⟩ | ⟨-, ⟨error, -, heq⟩ | ⟨s₁, hlease, heq⟩ | ⟨s₁, l, hlease, heq⟩⟩
  · rw [heq] at hs
    cases hs
    exact .inl rfl
  · rw [heq] at hs
    cases hs
  · rw [heq] at hs
    cases hs
    exact .inr ⟨_, _, hlease, .inl rfl⟩
  · rw [heq] at hs
    rcases dispatchLeased_cases (F := F) files s₁ l owner targetRoot workspaceRoot now
        dispatchId with
      ⟨-, error, hanswer⟩ | ⟨-, e, result, s₂, identifier, -, hkeeps, hanswer⟩
    · rw [hanswer] at hs
      cases hs
    · rw [hanswer] at hs
      obtain ⟨s₃, hrelease, hdone⟩ := bind_eq_ok.mp hs
      cases hdone
      exact .inr ⟨_, _, hlease, .inr ⟨s₂, _, _, hkeeps, hrelease⟩⟩

theorem recorded_dispatch (h : Recorded F clock s) (hF : Faithful F) (hclock : clock ≤ now)
    {answer : DispatchAnswer}
    (hs : (dispatchSession F files s owner targetRoot workspaceRoot now leaseId dispatchId).2 =
      .ok (s', answer)) : Recorded F now s' := by
  rcases dispatch_ok hs with rfl | ⟨s₁, lease, hlease, rfl | ⟨s₂, id, sessionId, hkeeps, hrelease⟩⟩
  · exact recorded_keeps hclock h (Keeps.refl _)
  · exact recorded_dispatchLease h hF hclock hlease
  · have hrecorded := recorded_dispatchLease h hF hclock hlease
    exact recorded_release (recorded_keeps (le_refl now) hrecorded hkeeps) hrelease

variable {write : SessionWrite}

theorem submit_ok {input : SessionInput} {d : Decision}
    (hs : submitOperatorInput F files s input d targetRoot workspaceRoot now = .ok (s', write)) :
    ∃ e result, s' = settleEntry F (recovered F files s now) e result now := by
  obtain ⟨s₁, hrecover, hs₁⟩ := bind_eq_ok.mp hs
  obtain ⟨-, rfl⟩ := recover_ok hrecover
  obtain ⟨e, -, he⟩ := bind_eq_ok.mp hs₁
  split at he
  · cases he
  obtain ⟨session, -, hsession⟩ := bind_eq_ok.mp he
  obtain ⟨result, -, hresult⟩ := bind_eq_ok.mp hsession
  cases hresult
  exact ⟨e, _, rfl⟩

theorem cancel_ok {sessionId operatorId : String}
    (hs : cancelScheduledSession F files s sessionId operatorId now = .ok (s', write)) :
    ∃ e result, s' = settleEntry F (recovered F files s now) e result now := by
  obtain ⟨s₁, hrecover, hs₁⟩ := bind_eq_ok.mp hs
  obtain ⟨-, rfl⟩ := recover_ok hrecover
  obtain ⟨e, -, he⟩ := bind_eq_ok.mp hs₁
  split at he
  · cases he
  obtain ⟨session, -, hsession⟩ := bind_eq_ok.mp he
  obtain ⟨result, -, hresult⟩ := bind_eq_ok.mp hsession
  cases hresult
  exact ⟨e, _, rfl⟩

theorem recorded_settle (h : Recorded F clock s) (hclock : clock ≤ now) (e : QueueEntry)
    (result : Session) : Recorded F now (settleEntry F (recovered F files s now) e result now) :=
  recorded_keeps (le_refl now) (recorded_keeps hclock h (keeps_recovered s))
    (keeps_settle _ e result now)

/-- The status of the scheduler is all that a pause changes. -/
theorem keeps_status (s : SchedulerState) (status : SchedulerStatus) (at' : Instant) :
    Keeps now s (sealSchedulerState F
      { s with schedulerStatus := status, updatedAt := timeText at' }) := by
  have hchanged : Keeps now s { s with schedulerStatus := status, updatedAt := timeText at' } :=
    (Keeps.refl s).congr rfl rfl rfl rfl rfl
  exact hchanged.trans (keeps_seal _)

theorem keeps_pause (hs : pauseQueue F s clock = .ok s') : Keeps now s s' := by
  unfold pauseQueue at hs
  split at hs
  · cases hs
    exact keeps_status s .paused clock
  · cases hs

theorem keeps_resume (hs : resumeQueue F s clock = .ok s') : Keeps now s s' := by
  unfold resumeQueue at hs
  split at hs
  · cases hs
  split at hs
  · cases hs
  · cases hs
    exact keeps_status s .idle clock

theorem saving_ok {answer : Except Err (SchedulerState × SessionWrite)}
    (h : (saving answer).2 = .ok s) : ∃ write, answer = .ok (s, write) := by
  cases answer with
  | error e => cases h
  | ok p =>
    cases h
    exact ⟨p.2, rfl⟩

theorem map_fst_ok {α : Type} {answer : Except Err (SchedulerState × α)}
    (h : answer.map Prod.fst = .ok s) : ∃ x, answer = .ok (s, x) := by
  cases answer with
  | error e => cases h
  | ok p =>
    cases h
    exact ⟨p.2, rfl⟩

variable {w : World} {st : Step}

def Step.after (st : Step) (clock : Instant) : Instant := st.now?.getD clock

theorem InOrder.le (h : InOrder w st) : w.clock ≤ st.after w.clock := by
  unfold Step.after
  cases hnow : st.now? with
  | none => exact le_refl _
  | some now => exact h now hnow

theorem recorded_call (hF : Faithful F) (h : Recorded F w.clock w.state) (hin : InOrder w st)
    (hs : (w.call F st).2 = .ok s') : Recorded F (st.after w.clock) s' := by
  have hclock := hin.le
  cases st with
  | enqueue path priority targetRoot workspaceRoot now => exact recorded_enqueue h hclock hs
  | recover now =>
    obtain ⟨-, rfl⟩ := recover_ok hs
    exact recorded_keeps hclock h (keeps_recovered _)
  | lease owner lifetime now =>
    obtain ⟨lease, hlease⟩ := map_fst_ok hs
    exact (recorded_leaseNext h hF hclock hlease).1
  | release leaseId owner sessionId now =>
    exact recorded_release (recorded_keeps hclock h (Keeps.refl _)) hs
  | dispatch owner targetRoot workspaceRoot leaseId dispatchId now =>
    obtain ⟨answer, hanswer⟩ := map_fst_ok hs
    exact recorded_dispatch h hF hclock hanswer
  | submit input d targetRoot workspaceRoot now =>
    obtain ⟨write, hanswer⟩ := saving_ok hs
    obtain ⟨e, result, rfl⟩ := submit_ok hanswer
    exact recorded_settle h hclock e result
  | cancel sessionId operatorId now =>
    obtain ⟨write, hanswer⟩ := saving_ok hs
    obtain ⟨e, result, rfl⟩ := cancel_ok hanswer
    exact recorded_settle h hclock e result
  | pause now => exact recorded_keeps hclock h (keeps_pause hs)
  | resume now => exact recorded_keeps hclock h (keeps_resume hs)
  | edit path stored =>
    cases hs
    exact recorded_keeps hclock h (Keeps.refl _)

theorem recorded_step (hF : Faithful F) (h : Recorded F w.clock w.state) (hin : InOrder w st) :
    Recorded F (w.step F st).clock (w.step F st).state := by
  change Recorded F (st.after w.clock) (orKept w.state (w.call F st).2)
  cases hcall : (w.call F st).2 with
  | error e => exact recorded_keeps hin.le h (Keeps.refl _)
  | ok s' => exact recorded_call hF h hin hcall

/-! ## The dispatch -/

theorem listed?_some (h : listed? s id = some l) :
    l ∈ s.leases ∧ l.leaseId = id ∧ l.leaseStatus = .active := by
  have hfound := of_decide_eq_true
    (@List.find?_some _ (fun x : SessionLease => decide (x.leaseId = id ∧ x.leaseStatus = .active)) l
      s.leases h)
  exact ⟨List.mem_of_find?_eq_some h, hfound⟩

theorem dispatch_named (hid : given leaseId = some id) (w : World) (owner : String)
    (targetRoot workspaceRoot : Root) (dispatchId : Option String) (now : Instant) :
    (takenUp F w (.dispatch owner targetRoot workspaceRoot leaseId dispatchId now) = none ∧
        (dispatchSession F w.files w.state owner targetRoot workspaceRoot now leaseId
          dispatchId).1 = none) ∨
      ∃ l, takenUp F w (.dispatch owner targetRoot workspaceRoot leaseId dispatchId now) = some l ∧
        l ∈ w.state.leases ∧ l.leaseId = id ∧ l.leaseStatus = .active ∧ l.leaseOwner = owner ∧
        goesOn F w.files w.state targetRoot workspaceRoot now l = true ∧
        dispatchSession F w.files w.state owner targetRoot workspaceRoot now leaseId dispatchId =
          dispatchLeased F w.files w.state l owner targetRoot workspaceRoot now dispatchId := by
  rcases dispatchSession_cases (F := F) w.files w.state owner targetRoot workspaceRoot now leaseId
      dispatchId with
    ⟨done, hdone, hmem, heq⟩ | ⟨hnew, hcase⟩
  · refine .inl ⟨?_, by rw [heq]⟩
    unfold takenUp
    dsimp only
    rw [hdone, Option.any_some, if_pos (decide_eq_true hmem)]
  · have htaken : takenUp F w (.dispatch owner targetRoot workspaceRoot leaseId dispatchId now) =
        (listed? w.state id).filter fun l =>
          l.leaseOwner = owner && goesOn F w.files w.state targetRoot workspaceRoot now l := by
      unfold takenUp
      dsimp only
      rw [hnew, if_neg Bool.false_ne_true, hid]
      rfl
    rcases hcase with ⟨error, hlease, heq⟩ | ⟨s₁, hlease, -⟩ | ⟨s₁, l, hlease, heq⟩
    · refine .inl ⟨?_, by rw [heq]⟩
      rw [htaken, Option.filter_eq_none_iff]
      intro l hl
      have howner : l.leaseOwner ≠ owner := by
        intro howner
        unfold dispatchLease at hlease
        rw [hid] at hlease
        dsimp only at hlease
        rw [hl] at hlease
        dsimp only at hlease
        rw [if_pos howner] at hlease
        cases hlease
      rw [decide_eq_false howner, Bool.false_and]
      exact Bool.false_ne_true
    · unfold dispatchLease at hlease
      rw [hid] at hlease
      dsimp only at hlease
      split at hlease
      · split at hlease <;> cases hlease
      · cases hlease
    · obtain ⟨rfl, hlisted, howner⟩ := dispatchLease_named hid hlease
      obtain ⟨hl, hleaseId, hactive⟩ := listed?_some hlisted
      cases hgoes : goesOn F w.files w.state targetRoot workspaceRoot now l with
      | false =>
        refine .inl ⟨?_, ?_⟩
        · rw [htaken, hlisted, Option.filter_some, hgoes, Bool.and_false, if_neg Bool.false_ne_true]
        · rw [heq]
          rcases dispatchLeased_cases (F := F) w.files w.state l owner targetRoot workspaceRoot now
              dispatchId with
            ⟨-, error, hanswer⟩ | ⟨hgoes', -⟩
          · rw [hanswer]
          · rw [hgoes] at hgoes'
            cases hgoes'
      | true =>
        refine .inr ⟨l, ?_, hl, hleaseId, hactive, howner, hgoes, heq⟩
        rw [htaken, hlisted, Option.filter_some, hgoes, decide_eq_true howner]
        rfl

/-- Without a write, a dispatch leaves every file as it is. -/
theorem files_unsaved
    (h : (dispatchSession F w.files w.state owner targetRoot workspaceRoot now leaseId
      dispatchId).1 = none) :
    (w.step F (.dispatch owner targetRoot workspaceRoot leaseId dispatchId now)).files =
      w.files := by
  change afterWrite w.files (dispatchSession F w.files w.state owner targetRoot workspaceRoot now
    leaseId dispatchId).1 = w.files
  rw [h]
  rfl

/-- A dispatch that leases a session itself goes by a lease that is on the entry. -/
theorem fenced_new (hF : Faithful F) (h : Recorded F w.clock w.state) (hclock : w.clock ≤ now)
    (hid : given leaseId = none) :
    Fenced F w (.dispatch owner targetRoot workspaceRoot leaseId dispatchId now) where
  current id path session hleaseId := by
    change given leaseId = some id at hleaseId
    rw [hid] at hleaseId
    cases hleaseId
  refused _ hrefused := by
    change (match (dispatchSession F w.files w.state owner targetRoot workspaceRoot now leaseId
      dispatchId).2 with
      | .ok (_, .dispatched ..) => true
      | _ => false) = false at hrefused
    refine files_unsaved ?_
    rcases dispatchSession_cases (F := F) w.files w.state owner targetRoot workspaceRoot now leaseId
        dispatchId with
      ⟨done, -, -, heq⟩ | ⟨-, ⟨error, -, heq⟩ | ⟨s₁, -, heq⟩ | ⟨s₁, l, hlease, heq⟩⟩
    · rw [heq]
    · rw [heq]
    · rw [heq]
    · rw [dispatchLease_new hid] at hlease
      obtain ⟨hrecorded, hnew⟩ := recorded_leaseNext h hF hclock hlease
      obtain ⟨hl, rfl, hexpires, e, he, hheld⟩ := hnew l rfl
      rw [heq] at hrefused ⊢
      rcases dispatchLeased_cases (F := F) w.files s₁ l l.leaseOwner targetRoot workspaceRoot now
          dispatchId with
        ⟨-, error, hanswer⟩ | ⟨hgoes, -⟩
      · rw [hanswer]
      · obtain ⟨result, s₂, identifier, hanswer⟩ :=
          dispatchLeased_held hrecorded.shaped hl he hheld hexpires dispatchId hgoes
        rw [hanswer] at hrefused
        cases hrefused

theorem fenced_takenUp (h : Recorded F w.clock w.state) (hclock : w.clock ≤ now)
    (hid : given leaseId = some l.leaseId) (hl : l ∈ w.state.leases)
    (hactive : l.leaseStatus = .active)
    (hgoes : goesOn F w.files w.state targetRoot workspaceRoot now l = true)
    (heq : dispatchSession F w.files w.state l.leaseOwner targetRoot workspaceRoot now leaseId
      dispatchId =
        dispatchLeased F w.files w.state l l.leaseOwner targetRoot workspaceRoot now dispatchId) :
    Fenced F w (.dispatch l.leaseOwner targetRoot workspaceRoot leaseId dispatchId now) ↔
      reached now l.expiresAt = false := by
  have hwrite : (w.call F (.dispatch l.leaseOwner targetRoot workspaceRoot leaseId dispatchId
      now)).1 = (dispatchLeased F w.files w.state l l.leaseOwner targetRoot workspaceRoot now
        dispatchId).1 := congrArg Prod.fst heq
  constructor
  · intro hfenced
    rcases dispatchLeased_cases (F := F) w.files w.state l l.leaseOwner targetRoot workspaceRoot now
        dispatchId with
      ⟨hstop, -⟩ | ⟨-, e, result, s₁, identifier, -, -, hanswer⟩
    · rw [hgoes] at hstop
      cases hstop
    · rw [hanswer] at hwrite
      obtain ⟨e₁, he₁, -, hactive₁, hlease₁, hexpires⟩ :=
        hfenced.current l.leaseId e.sessionPath result hid hwrite
      obtain ⟨time, htime, hunreached⟩ := hexpires now rfl
      -- The lease that is on the entry is the one that was found in the list.
      obtain ⟨l₁, hl₁, hheld⟩ := h.active e₁ he₁ hactive₁
      obtain rfl := eq_of_key h.leaseIds hl₁ hl (hheld.lease.symm.trans hlease₁)
      rw [hheld.expires] at htime
      cases htime
      exact hunreached
  · intro hexpires
    rcases h.current l hl hactive with ⟨e, he, hheld⟩ | hreached
    · obtain ⟨result, s₂, identifier, hanswer⟩ :=
        dispatchLeased_held h.shaped hl he hheld hexpires dispatchId hgoes
      refine ⟨?_, ?_⟩
      · intro id path session hleaseId hsaved
        cases hid.symm.trans hleaseId
        rw [hwrite, hanswer] at hsaved
        cases hsaved
        refine ⟨e, he, rfl, hheld.status, hheld.lease, ?_⟩
        intro now₁ hnow₁
        cases hnow₁
        exact ⟨l.expiresAt, hheld.expires, hexpires⟩
      · intro _ hrefused
        change (match (dispatchSession F w.files w.state l.leaseOwner targetRoot workspaceRoot now
          leaseId dispatchId).2 with
          | .ok (_, .dispatched ..) => true
          | _ => false) = false at hrefused
        rw [heq, hanswer] at hrefused
        cases hrefused
    · rw [reached_mono hclock hreached] at hexpires
      cases hexpires

/-- A step that is taken up by no lease is timely. -/
theorem timely_of_none (h : takenUp F w st = none) : Timely F w st := by
  unfold Timely
  rw [h]
  exact fun l hl => by cases hl

theorem fenced_step (hF : Faithful F) (h : Recorded F w.clock w.state) (hin : InOrder w st) :
    Fenced F w st ↔ Timely F w st := by
  cases st with
  | dispatch owner targetRoot workspaceRoot leaseId dispatchId now =>
    have hclock : w.clock ≤ now := hin now rfl
    cases hid : given leaseId with
    | none =>
      have htaken : takenUp F w (.dispatch owner targetRoot workspaceRoot leaseId dispatchId now) =
          none := by
        unfold takenUp
        dsimp only
        rw [hid]
        split <;> rfl
      exact ⟨fun _ => timely_of_none htaken, fun _ => fenced_new hF h hclock hid⟩
    | some id =>
      rcases dispatch_named (F := F) hid w owner targetRoot workspaceRoot dispatchId now with
        ⟨htaken, hnone⟩ | ⟨l, htaken, hl, rfl, hactive, rfl, hgoes, heq⟩
      · refine ⟨fun _ => timely_of_none htaken, fun _ => ⟨?_, fun _ _ => files_unsaved hnone⟩⟩
        intro id path session _ hsaved
        change (dispatchSession F w.files w.state owner targetRoot workspaceRoot now leaseId
          dispatchId).1 = some (path, session) at hsaved
        rw [hnone] at hsaved
        cases hsaved
      · rw [fenced_takenUp h hclock hid hl hactive hgoes heq]
        unfold Timely
        rw [htaken]
        constructor
        · intro hexpires l₁ hl₁ now₁ hnow₁
          cases hl₁
          cases hnow₁
          exact hexpires
        · exact fun htimely => htimely l rfl now rfl
  | _ =>
    refine ⟨fun _ => timely_of_none rfl, fun _ => ⟨?_, ?_⟩⟩
    · exact fun id path session hleaseId => by cases hleaseId
    · exact fun hdispatch => by cases hdispatch

/-! ## Runs -/

/-- Nothing is enqueued. -/
def World.init (F : QueueDigest) (schedulerId : String) (files : Files) (now : Instant) : World :=
  ⟨createSchedulerState F schedulerId now, files, now⟩

theorem recorded_create {schedulerId : String} :
    Recorded F now (createSchedulerState F schedulerId now) := by
  refine ⟨rfl, rfl, List.nodup_nil, List.nodup_nil, List.nodup_nil, ?_, ?_, ?_, ?_, ?_, ?_, ?_⟩ <;>
    exact fun x hx => by cases hx

/-- In a run at times in order every dispatch is fenced if and only if every dispatch is timely. -/
theorem fenced_iff_timely (hF : Faithful F) {schedulerId : String} {now : Instant} {sts : List Step}
    (h : (scheduling F).Guarded InOrder (World.init F schedulerId files now) sts) :
    (scheduling F).Guarded (Fenced F) (World.init F schedulerId files now) sts ↔
      (scheduling F).Guarded (Timely F) (World.init F schedulerId files now) sts := by
  refine @Machine.Guarded.iff_of_invariant World Step Unit (scheduling F) InOrder (Fenced F)
    (Timely F) (fun w => Recorded F w.clock w.state) ?_ _ sts h recorded_create
  exact fun w st hrecorded hin => ⟨fenced_step hF hrecorded hin, recorded_step hF hrecorded hin⟩

/-! ## Runs of a small queue -/

/-- A digest that tells leases and sessions apart. -/
def sampleDigest : QueueDigest where
  session _ := ""
  value _ := ""
  entry _ := ""
  scheduler _ := ""
  entryIdentity sessionId _ := sessionId
  leaseIdentity i := String.ofList (Val.encode (.list
    [.str i.schedulerId, .str i.queueEntryId, .str i.owner, .int (.ofNat i.attempt),
      .int (.ofNat i.acquiredAt)]))

theorem sampleDigest_faithful : Faithful sampleDigest where
  lease i j h := by
    have hvalue := (Val.encode_append_inj (congrArg (· ++ []) (String.ofList_inj.mp h))).1
    cases i
    cases j
    simp only [Val.list.injEq, List.cons.injEq, Val.str.injEq, Val.int.injEq,
      Int.ofNat.injEq] at hvalue
    obtain ⟨rfl, rfl, rfl, rfl, rfl, -⟩ := hvalue
    rfl
  entry h := h

def sampleSession : Session where
  contract := sessionContract
  sessionId := "1"
  sessionStatus := .running
  taskId := "task"
  naturalTask := .dict []
  createdAt := 0
  updatedAt := 0
  expiresAt := 600
  targetRootIdentity := "/target"
  workspaceRootIdentity := "/work"
  requiredAction := .none
  artifacts := []
  artifactFingerprints := []
  failure := none
  completed := false
  processedInputIds := []
  sessionFingerprint := ""

def sampleFiles : Files := fun path =>
  if path = "/sessions/1.json" then .session sampleSession else .missing

def sampleWorld : World := World.init sampleDigest "scheduler" sampleFiles 0

def enqueueFirst : Step := .enqueue "/sessions/1.json" (.str "normal") none none 0

def firstLeaseId (owner : String) : String :=
  leaseIdOf sampleDigest
    ⟨"scheduler", queueEntryIdOf sampleDigest "1" "/sessions/1.json", owner, 1, 0⟩

def dispatchFirst (owner : String) (now : Instant) : Step :=
  .dispatch owner (some "/target") (some "/work") (some (firstLeaseId owner)) none now

def timelySteps : List Step :=
  [enqueueFirst, .lease "first" 30 0, dispatchFirst "first" 1000000]

/-- The lease runs out, the session is leased to another, and then the first owner is back. -/
def staleSteps : List Step :=
  [enqueueFirst, .lease "first" 1 0, .lease "second" 30 1000000, dispatchFirst "first" 1000000]

theorem fenced_iff_timely_sample :
    (scheduling sampleDigest).Guarded (Fenced sampleDigest) sampleWorld timelySteps :=
  (@fenced_iff_timely sampleDigest sampleFiles sampleDigest_faithful "scheduler" 0 timelySteps
    (by decide +kernel)).mpr (by decide +kernel)

/-- The session is saved for one whose lease is not the one on the entry. -/
theorem stale_dispatch_saves :
    (scheduling sampleDigest).Guarded InOrder sampleWorld staleSteps ∧
      ¬(scheduling sampleDigest).Guarded (Fenced sampleDigest) sampleWorld staleSteps := by
  refine ⟨by decide +kernel, ?_⟩
  rintro ⟨-, -, -, hlast, -⟩
  have hsaved : (((scheduling sampleDigest).run sampleWorld (staleSteps.take 3)).call sampleDigest
      (dispatchFirst "first" 1000000)).1.isSome = true := by decide +kernel
  obtain ⟨⟨path, session⟩, hsaved⟩ := Option.isSome_iff_exists.mp hsaved
  obtain ⟨e, he, -, -, hid, -⟩ := hlast.current (firstLeaseId "first") path session
    (by decide +kernel) hsaved
  have hother : ∀ e ∈ ((scheduling sampleDigest).run sampleWorld (staleSteps.take 3)).state.entries,
      e.leaseId ≠ firstLeaseId "first" := by decide +kernel
  exact hother e he hid

end SessionScheduler
end ZeroRuntime
