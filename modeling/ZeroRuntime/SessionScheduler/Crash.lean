import ZeroRuntime.SessionScheduler.Saves

/-!
# ZeroRuntime.SessionScheduler.Crash

An iteration of the worker that stops between two of its saves, and the next one.

* `Stage`: what an iteration does with which lease. `iteration_cases` says which saves it makes.
* `Careful` is the condition on the place of the crash and the time of the next iteration.
* `mismatch_iff_careless`: for every disk that can be reached, with crashes on the way, the next
  iteration ends in `current_lease_identity_mismatch` if and only if the crash was not careful.
-/

namespace ZeroRuntime
namespace SessionScheduler

open Lib Sessions

/-- What an iteration does, and the lease it does it under. -/
inductive Stage where
  | none
  | waiting (l : SessionLease)
  | resuming (l : SessionLease)
  | leasing (l : SessionLease)

section Digest

variable (F : WorkerDigest)

def stage (d : Disk) (c : Call) : Stage :=
  let s := recovered F.toQueueDigest d.files d.scheduler c.now
  if d.worker.stopRequested || d.worker.pauseRequested then .none
  else
    match currentOf s d.worker c.now with
    | some l =>
      match entry? s l.sessionId with
      | none => .none
      | some e =>
        if e.leaseId ≠ l.leaseId ∨ e.leaseOwner ≠ d.worker.workerId then .none
        else if e.sessionStatus.waiting then .waiting l
        else .resuming l
    | none =>
      match leaseNextSession F.toQueueDigest d.files s d.worker.workerId c.leaseSeconds c.now with
      | .ok (_, some l) => .leasing l
      | _ => .none

/-- The dispatch of an iteration is answered as one that was done before. -/
def repeats (s : SchedulerState) (dispatchId : Option String) (c : Call) : Bool :=
  ((given dispatchId).any fun id => id ∈ s.processedDispatchIds) && c.published matches .ok _

/-- The first save that a crash after `k` saves leaves out is one of the worker. -/
def leavesWorker (writes : List Write) (k : ℕ) : Bool :=
  match writes[k]? with
  | some (.worker _) => true
  | _ => false

/-- The crash after `k` saves does no harm to the next iteration. -/
def Careful (d : Disk) (c : Call) (k : ℕ) (later : Instant) : Prop :=
  match stage F d c with
  | .none => True
  | .waiting l => reached later l.expiresAt = true
  | .resuming l =>
    reached later l.expiresAt = true ∨
      (∀ e ∈ entry? d.scheduler l.sessionId, overdue later e = false) ∧
        (leavesWorker (runWorkerIteration F d c).writes k = false ∨
          repeats d.scheduler d.worker.currentDispatchId c = true)
  | .leasing l =>
    reached later l.expiresAt = true ∨
      k ≠ 1 ∧
        (leavesWorker (runWorkerIteration F d c).writes k = false ∨
          repeats d.scheduler (leasedWorker F d.worker l c.now).currentDispatchId c = true)

end Digest

variable {F : WorkerDigest} {files : Files} {s s' : SchedulerState} {w w' : WorkerState}
  {l : SessionLease} {now clock later : Instant} {c : Call} {d : Disk}

/-! ## The end of a lease -/

variable {e : QueueEntry}

theorem overdue_mono (h : now ≤ later) (hdue : overdue later e = false) :
    overdue now e = false := by
  by_contra hnow
  unfold overdue at hdue hnow
  cases hactive : decide (e.leaseStatus = .active) with
  | false =>
    rw [hactive, Bool.false_and] at hnow
    exact hnow rfl
  | true =>
    rw [hactive, Bool.true_and] at hdue hnow
    cases hexpires : e.leaseExpiresAt with
    | none =>
      rw [hexpires] at hnow
      exact hnow rfl
    | some time =>
      rw [hexpires, Option.any_some] at hdue hnow
      rw [reached_mono h (Bool.eq_true_of_not_eq_false hnow)] at hdue
      cases hdue

/-- An operation that keeps the leases changes nothing about which are held later. -/
theorem holds_keeps (hkeeps : Keeps now s s') (hlater : now ≤ later) :
    Holds s' l later ↔ Holds s l later := by
  constructor
  · rintro ⟨e', he', hsession, hid, hactive, hdue⟩
    obtain ⟨e, he, hf⟩ := forall₂_mem_right hkeeps.entries he'
    rcases hf.lease with hsame | ⟨-, hexpired, -⟩
    · exact ⟨e, he, hf.session.symm.trans hsession, hsame.lease.symm.trans hid,
        hsame.status.symm.trans hactive, hsame.overdue.symm.trans hdue⟩
    · rw [hexpired] at hactive
      cases hactive
  · rintro ⟨e, he, hsession, hid, hactive, hdue⟩
    obtain ⟨e', he', hf⟩ := forall₂_mem_left hkeeps.entries he
    rcases hf.lease with hsame | ⟨hdue', -, -⟩
    · exact ⟨e', he', hf.session.trans hsession, hsame.lease.trans hid,
        hsame.status.trans hactive, hsame.overdue.trans hdue⟩
    · rw [overdue_mono hlater hdue] at hdue'
      cases hdue'

theorem holds_seal : Holds (sealSchedulerState F.toQueueDigest s) l later ↔ Holds s l later :=
  holds_keeps (keeps_seal s) (le_refl later)

theorem holds_of_held {s : SchedulerState} {F : QueueDigest} (h : Recorded F clock s)
    (he : e ∈ s.entries) (hheld : Held l e) :
    Holds s l later ↔ reached later l.expiresAt = false := by
  rw [← overdue_held hheld]
  constructor
  · rintro ⟨e', he', hsession, -, -, hdue⟩
    obtain rfl := eq_of_key h.sessions he' he (hsession.trans hheld.session.symm)
    exact hdue
  · exact fun hdue => ⟨e, he, hheld.session, hheld.lease, hheld.status, hdue⟩

theorem Recorded.entry_of_lease {F : QueueDigest} (h : Recorded F clock s) {e' : QueueEntry}
    (he : e ∈ s.entries) (he' : e' ∈ s.entries) (hactive : e.leaseStatus = .active)
    (hactive' : e'.leaseStatus = .active) (hid : e.leaseId = e'.leaseId) : e = e' := by
  obtain ⟨l, hl, hheld⟩ := h.active e he hactive
  obtain ⟨l', hl', hheld'⟩ := h.active e' he' hactive'
  obtain rfl := eq_of_key h.leaseIds hl hl' (hheld.lease.symm.trans (hid.trans hheld'.lease))
  exact eq_of_key h.sessions he he' (hheld.session.trans hheld'.session.symm)

theorem release_not_holds {F : QueueDigest} (h : Recorded F clock s) {owner sessionId : String}
    (hs : releaseSessionLease F s l.leaseId owner sessionId now = .ok s') : ¬Holds s' l later := by
  obtain ⟨e, hentry, hactive, hid, -, rfl⟩ := release_ok hs
  obtain ⟨he, rfl⟩ := entry?_some hentry
  rintro ⟨e', he', -, hid', hactive', -⟩
  obtain ⟨e₁, he₁, rfl⟩ := List.mem_map.mp he'
  rcases mem_changeEntry h he₁ with ⟨hold, hne⟩ | ⟨e₂, -, -, rfl⟩
  · have hsame : e₁ = e := h.entry_of_lease hold he hactive' hactive (hid'.trans hid.symm)
    exact hne (congrArg QueueEntry.sessionId hsame)
  · cases hactive'

/-- The entry has the lease of the worker. -/
structure OnEntry (s : SchedulerState) (w : WorkerState) (l : SessionLease) (e : QueueEntry) :
    Prop where
  mem : e ∈ s.entries
  session : e.sessionId = l.sessionId
  lease : e.leaseId = l.leaseId
  owner : e.leaseOwner = w.workerId
  status : e.leaseStatus = .active

theorem giveBack_not_holds (h : Recorded F.toQueueDigest clock s) (he : OnEntry s w l e) :
    ¬Holds (giveBack F s w l now) l later := by
  obtain ⟨l', hl', hheld⟩ := h.active e he.mem he.status
  obtain ⟨s', hrelease⟩ : ∃ s', releaseSessionLease F.toQueueDigest s l'.leaseId l'.leaseOwner
      l'.sessionId now = .ok s' := release_of_held h.shaped hl' he.mem hheld
  rw [← hheld.lease, ← hheld.owner, ← hheld.session, he.lease, he.owner, he.session] at hrelease
  unfold giveBack
  rw [hrelease]
  exact release_not_holds h hrelease

/-- What is not held is not held after another release. -/
theorem giveBack_still (h : Recorded F.toQueueDigest clock s) (hnot : ¬Holds s l later) :
    ¬Holds (giveBack F s w l now) l later := by
  unfold giveBack
  cases hs : releaseSessionLease F.toQueueDigest s l.leaseId w.workerId l.sessionId now with
  | error e => exact hnot
  | ok s' => exact release_not_holds h hs

/-! ## The saves of a dispatch -/

/-- The last saves of an iteration with a lease: none where it raises, else the scheduler, which has
the lease on its entry only if the dispatch was done before, and the worker. -/
def Ending (s : SchedulerState) (l : SessionLease) (repeated : Bool) (writes : List Write) : Prop :=
  writes = [] ∨ ∃ s' w', writes = [.scheduler s', .worker w'] ∧
    ∀ later, Holds s' l later ↔ repeated = true ∧ Holds s l later

theorem ending_released {repeated : Bool} (hrepeated : repeated = false)
    (h : ∀ later, ¬Holds s' l later) :
    Ending s l repeated (finishDispatch F s' w now).writes := by
  refine .inr ⟨_, _, rfl, fun later => ?_⟩
  rw [holds_seal, hrepeated]
  exact ⟨fun hholds => absurd hholds (h later), fun hfalse => by cases hfalse.1⟩

theorem ending_fail {repeated : Bool} {error : Raised} (hrepeated : repeated = false)
    (h : ∀ later, ¬Holds (giveBack F s' w l c.now) l later) :
    Ending s l repeated (failDispatch F s' w l error c).writes := by
  unfold failDispatch
  cases c.failed with
  | error e => exact .inl rfl
  | ok event => exact ending_released hrepeated h

theorem given_some {id : String} (h : id ≠ "") : given (some id) = some id := by
  unfold given
  rw [Option.filter_some, if_pos (decide_eq_true h)]

/-- An iteration that dispatches gives its lease back, unless the dispatch was done before. -/
theorem dispatchIteration_writes (h : Recorded F.toQueueDigest c.now s) {e : QueueEntry} (he : OnEntry s w l e)
    (hid : l.leaseId ≠ "") :
    ∃ (write : Option SessionWrite) (tail : List Write),
      (dispatchIteration F files s w l c).writes = (write.map Write.session).toList ++ tail ∧
        Ending s l (repeats s w.currentDispatchId c) tail := by
  refine ⟨(dispatchSession F.toQueueDigest files s w.workerId c.targetRoot c.workspaceRoot c.now
    (some l.leaseId) w.currentDispatchId).1, (settleDispatch F s w l c (dispatchSession
    F.toQueueDigest files s w.workerId c.targetRoot c.workspaceRoot c.now (some l.leaseId)
    w.currentDispatchId).2).writes, rfl, ?_⟩
  have hback : ∀ later, ¬Holds (giveBack F s w l c.now) l later :=
    fun later => giveBack_not_holds h he
  rcases dispatchSession_cases (F := F.toQueueDigest) files s w.workerId c.targetRoot
      c.workspaceRoot c.now (some l.leaseId) w.currentDispatchId with
    ⟨id, hdone, hmem, heq⟩ | ⟨hnew, hcase⟩
  · rw [heq]
    dsimp only [settleDispatch, answerEvent]
    have hany : ((given w.currentDispatchId).any fun id => id ∈ s.processedDispatchIds) = true := by
      rw [hdone, Option.any_some, decide_eq_true hmem]
    cases hpublished : c.published with
    | error error =>
      refine ending_fail ?_ hback
      unfold repeats
      rw [hpublished, Bool.and_false]
    | ok event =>
      refine .inr ⟨_, _, rfl, fun later => ?_⟩
      have hrepeats : repeats s w.currentDispatchId c = true := by
        unfold repeats
        rw [hany, hpublished]
        rfl
      rw [holds_seal, hrepeats]
      exact ⟨fun hholds => ⟨rfl, hholds⟩, fun hholds => hholds.2⟩
  · have hrepeats : repeats s w.currentDispatchId c = false := by
      unfold repeats
      rw [hnew, Bool.false_and]
    rcases hcase with ⟨error, -, heq⟩ | ⟨s₁, hlease, -⟩ | ⟨s₁, l₁, hlease, heq⟩
    · rw [heq]
      exact ending_fail hrepeats hback
    · unfold dispatchLease at hlease
      rw [given_some hid] at hlease
      dsimp only at hlease
      split at hlease
      · split at hlease <;> cases hlease
      · cases hlease
    · obtain ⟨rfl, hlisted, howner⟩ := dispatchLease_named (given_some hid) hlease
      obtain ⟨hl₁, hsame, -⟩ := listed?_some hlisted
      rcases dispatchLeased_cases (F := F.toQueueDigest) files s₁ l₁ w.workerId c.targetRoot
          c.workspaceRoot c.now w.currentDispatchId with
        ⟨-, error, hanswer⟩ | ⟨-, e₁, result, s₂, identifier, -, hkeeps, hanswer⟩
      · rw [heq, hanswer]
        exact ending_fail hrepeats hback
      · rw [heq, hanswer]
        dsimp only
        have hrecorded := recorded_keeps (le_refl c.now) h hkeeps
        cases hrelease : releaseSessionLease F.toQueueDigest s₂ l₁.leaseId w.workerId l₁.sessionId
            c.now with
        | error error => exact ending_fail hrepeats hback
        | ok s₃ =>
          rw [hsame] at hrelease
          have hnot : ∀ later, ¬Holds s₃ l later :=
            fun later => release_not_holds hrecorded hrelease
          have hrecorded₃ := recorded_release hrecorded hrelease
          cases hevent : answerEvent (.dispatched identifier l₁.sessionId result.sessionStatus)
              c.published with
          | error e =>
            simp only [settleDispatch, bind, Except.bind, hevent]
            exact ending_fail hrepeats fun later => giveBack_still hrecorded₃ (hnot later)
          | ok event =>
            simp only [settleDispatch, bind, Except.bind, hevent]
            exact ending_released hrepeats hnot

/-! ## The disk after a crash -/

variable (F) in
/-- A disk on which the next iteration of a worker gets past its checks. -/
structure Ready (w₀ : WorkerState) (schedulerId : String) (clock : Instant) (d : Disk) : Prop where
  recorded : Recorded F.toQueueDigest clock d.scheduler
  scheduler : d.scheduler.schedulerId = schedulerId
  valid : validateSchedulerState F.toQueueDigest d.scheduler = []
  worker : SameWorker w₀ d.worker
  own : OwnLease F d.worker
  checked : validateWorker F d.worker = []

theorem validateWorker_eq_nil :
    validateWorker F w = [] ↔ w.contract = workerContract ∧
      w.workerFingerprint = F.worker (unsignedWorker w) ∧ ¬(w.workerId = "" ∨ w.schedulerId = "") := by
  unfold validateWorker
  rw [List.append_eq_nil_iff, List.append_eq_nil_iff, missing_eq_nil, missing_eq_nil, found_eq_nil,
    and_assoc]

variable {w₀ : WorkerState} {schedulerId : String}

theorem Ready.write (hw₀ : validateWorker F w₀ = []) (h : Ready F w₀ schedulerId clock d)
    {x : Write} (hx : Sound F w₀ schedulerId clock x) :
    Ready F w₀ schedulerId clock (d.write x) := by
  cases x with
  | worker w =>
    obtain ⟨hsame, hown, hsealed⟩ := hx
    refine ⟨h.recorded, h.scheduler, h.valid, hsame, hown, ?_⟩
    obtain ⟨hcontract, -, hids⟩ := validateWorker_eq_nil.mp hw₀
    refine validateWorker_eq_nil.mpr ⟨hsame.contract.trans hcontract, ?_, ?_⟩
    · exact congrArg WorkerState.workerFingerprint hsealed
    · change ¬(w.workerId = "" ∨ w.schedulerId = "")
      rw [hsame.workerId, hsame.schedulerId]
      exact hids
  | scheduler s =>
    obtain ⟨hrecorded, hid, hvalid⟩ := hx
    exact ⟨hrecorded, hid, hvalid, h.worker, h.own, h.checked⟩
  | session write => exact ⟨h.recorded, h.scheduler, h.valid, h.worker, h.own, h.checked⟩

theorem Ready.after (hw₀ : validateWorker F w₀ = []) {writes : List Write}
    (h : Ready F w₀ schedulerId clock d) (hwrites : AllSound F w₀ schedulerId clock writes) :
    Ready F w₀ schedulerId clock (d.after writes) := by
  unfold Disk.after
  induction writes generalizing d with
  | nil => exact h
  | cons x xs ih =>
    exact ih (h.write hw₀ (hwrites x List.mem_cons_self))
      fun y hy => hwrites y (List.mem_cons_of_mem x hy)

/-- The files belong to the worker that is called. -/
theorem binding_congr {s₀ : SchedulerState} {c' : Call} (h : bindingReasons w₀ s₀ c = [])
    (hw : SameWorker w₀ w) (hs : s.schedulerId = s₀.schedulerId)
    (hpath : c'.schedulerStatePath = c.schedulerStatePath) (hname : c'.workerName = c.workerName) :
    bindingReasons w s c' = [] := by
  unfold bindingReasons at h ⊢
  rw [hw.schedulerId, hw.path, hw.workerName, hs, hpath, hname]
  exact h

/-! ## The saves of an iteration -/

theorem stage_checked (n : ℕ) :
    currentOf (recovered F.toQueueDigest d.files d.scheduler c.now) (countedWorker d.worker n) c.now =
      currentOf (recovered F.toQueueDigest d.files d.scheduler c.now) d.worker c.now := rfl

/-- Two saves, the scheduler's and the worker's. -/
def Pair (writes : List Write) (P : SchedulerState → Prop) : Prop :=
  ∃ s w, writes = [.scheduler s, .worker w] ∧ P s

variable (F) in
def StageSaves (d : Disk) (c : Call) (writes : List Write) : Stage → Prop
  | .none => writes.length ≤ 1 ∨ Pair writes fun _ =>
      d.worker.stopRequested = true ∨ d.worker.pauseRequested = true ∨
        ∀ l ∈ d.worker.currentLease, reached c.now l.expiresAt = true
  | .waiting l => d.worker.currentLease = some l ∧
      (writes = [] ∨ Pair writes fun s => ∀ later, ¬Holds s l later)
  | .resuming l => d.worker.currentLease = some l ∧ Holds d.scheduler l c.now ∧
      ∃ (write : Option SessionWrite) (tail : List Write),
        writes = (write.map Write.session).toList ++ tail ∧
          Ending (recovered F.toQueueDigest d.files d.scheduler c.now) l
            (repeats d.scheduler d.worker.currentDispatchId c) tail
  | .leasing l => (∀ later, ¬Holds d.scheduler l later) ∧
      ∃ (s : SchedulerState) (w : WorkerState) (write : Option SessionWrite) (tail : List Write),
        writes = .worker w :: .scheduler s :: ((write.map Write.session).toList ++ tail) ∧
          w.currentLease = some l ∧ w.stopRequested = false ∧ w.pauseRequested = false ∧
          (∀ later, Holds s l later ↔ reached later l.expiresAt = false) ∧
          Ending s l (repeats d.scheduler (leasedWorker F d.worker l c.now).currentDispatchId c) tail

theorem pair_saveBoth {P : SchedulerState → Prop}
    (h : P (sealSchedulerState F.toQueueDigest s)) : Pair (saveBoth F s w).writes P :=
  ⟨_, _, rfl, h⟩

theorem currentOf_some (h : currentOf s w now = some l) :
    w.currentLease = some l ∧ (recordsLease s l || !reached now l.expiresAt) = true :=
  Option.filter_eq_some_iff.mp h

theorem currentOf_none (h : currentOf s w now = none) :
    ∀ l ∈ w.currentLease, reached now l.expiresAt = true := by
  intro l hl
  have hdropped := Option.filter_eq_none_iff.mp h l hl
  rw [Bool.or_eq_true, not_or, Bool.not_eq_true', Bool.not_eq_false] at hdropped
  exact hdropped.2

theorem resume_saves (hF : Faithful F.toQueueDigest)
    (h : Recorded F.toQueueDigest c.now (recovered F.toQueueDigest d.files d.scheduler c.now))
    (hown : OwnLease F d.worker) (n : ℕ)
    (hgo : d.worker.stopRequested = false ∧ d.worker.pauseRequested = false)
    (hcurrent : currentOf (recovered F.toQueueDigest d.files d.scheduler c.now) d.worker c.now =
      some l) :
    StageSaves F d c (resumeIteration F d.files (recovered F.toQueueDigest d.files d.scheduler c.now)
      (countedWorker d.worker n) l c).writes (stage F d c) := by
  obtain ⟨hlease, -⟩ := currentOf_some hcurrent
  obtain ⟨i, howner, hid⟩ := hown l hlease
  unfold stage
  dsimp only
  rw [hgo.1, hgo.2, Bool.or_false, if_neg Bool.false_ne_true, hcurrent]
  dsimp only
  unfold resumeIteration
  cases hentry : entry? (recovered F.toQueueDigest d.files d.scheduler c.now) l.sessionId with
  | none => exact .inl (le_refl 1)
  | some e =>
    dsimp only
    rw [show (countedWorker d.worker n).workerId = d.worker.workerId from rfl]
    by_cases hne : e.leaseId ≠ l.leaseId ∨ e.leaseOwner ≠ d.worker.workerId
    · rw [if_pos hne, if_pos hne]
      exact .inl (le_refl 1)
    · rw [if_neg hne, if_neg hne]
      obtain ⟨hsame, howned⟩ := not_or.mp hne
      have hsame := not_not.mp hsame
      have howned := not_not.mp howned
      obtain ⟨he, hsession⟩ := entry?_some hentry
      have hactive : e.leaseStatus = .active := by
        by_contra hidle
        exact leaseIdOf_ne i (hid.symm.trans (hsame.symm.trans (h.idle e he hidle)))
      have hon : OnEntry (recovered F.toQueueDigest d.files d.scheduler c.now)
          (countedWorker d.worker n) l e := ⟨he, hsession, hsame, howned, hactive⟩
      cases hwaiting : e.sessionStatus.waiting with
      | true =>
        rw [if_pos rfl, if_pos rfl]
        refine ⟨hlease, ?_⟩
        unfold waitingIteration
        split
        · exact .inl rfl
        · rename_i s' hrelease
          exact .inr (pair_saveBoth fun later => holds_seal.not.mpr (release_not_holds h hrelease))
      | false =>
        rw [if_neg Bool.false_ne_true, if_neg Bool.false_ne_true]
        refine ⟨hlease, ?_, dispatchIteration_writes h hon ?_⟩
        · have hown' : OwnLease F (countedWorker d.worker n) := hown.congr rfl rfl
          exact (mismatch_iff hF h hown' hlease).mp ⟨e, hentry, hsame, howned⟩
        · rw [hid]
          exact leaseIdOf_ne i

/-- A new lease is on no entry of the file. -/
theorem newLease_not_held (hF : Faithful F.toQueueDigest)
    (h : Recorded F.toQueueDigest clock d.scheduler) (hclock : clock ≤ now) {lifetime : ℤ}
    (hs : leaseNextSession F.toQueueDigest files
      (recovered F.toQueueDigest files d.scheduler now) w.workerId lifetime now =
        .ok (s', some l)) : ¬Holds d.scheduler l later := by
  have hrecovered := recorded_keeps hclock h
    (@keeps_recovered F.toQueueDigest files now d.scheduler)
  have hagain := recorded_keeps (le_refl now) hrecovered
    (@keeps_recovered F.toQueueDigest files now
      (recovered F.toQueueDigest files d.scheduler now))
  obtain ⟨-, -, ⟨hnone, -⟩ | ⟨candidate, live, hcandidate, hentry, hlease, -⟩⟩ := leaseNext_ok hs
  · cases hnone
  · cases hlease
    obtain ⟨hlive, -⟩ := entry?_some hentry
    have hfresh := newLease_fresh hagain hF hlive w.workerId lifetime.toNat now
    rintro ⟨e, he, -, hid, hactive, -⟩
    obtain ⟨l', hl', hheld⟩ := h.active e he hactive
    refine hfresh (List.mem_map.mpr ⟨l', hl', ?_⟩)
    exact hheld.lease.symm.trans hid

theorem leaseNext_processed {owner : String} {lifetime : ℤ} {lease : Option SessionLease}
    (hs : leaseNextSession F.toQueueDigest files s owner lifetime now = .ok (s', lease)) :
    s'.processedDispatchIds = s.processedDispatchIds := by
  obtain ⟨-, -, ⟨-, rfl⟩ | ⟨candidate, live, -, -, -, rfl⟩⟩ := leaseNext_ok hs <;> rfl

theorem repeats_congr {dispatchId : Option String}
    (h : s'.processedDispatchIds = s.processedDispatchIds) :
    repeats s' dispatchId c = repeats s dispatchId c := by
  unfold repeats
  rw [h]

theorem lease_saves (hF : Faithful F.toQueueDigest)
    (h : Recorded F.toQueueDigest clock d.scheduler) (hclock : clock ≤ c.now) (n : ℕ)
    (hgo : d.worker.stopRequested = false ∧ d.worker.pauseRequested = false)
    (hcurrent : currentOf (recovered F.toQueueDigest d.files d.scheduler c.now) d.worker c.now =
      none) :
    StageSaves F d c (leaseIteration F d.files (recovered F.toQueueDigest d.files d.scheduler c.now)
      (withoutLease (countedWorker d.worker n)) c).writes (stage F d c) := by
  have hid : (withoutLease (countedWorker d.worker n)).workerId = d.worker.workerId :=
    sameWorker_withoutLease.workerId
  have hrecovered := recorded_keeps hclock h
    (@keeps_recovered F.toQueueDigest d.files c.now d.scheduler)
  unfold stage
  dsimp only
  rw [hgo.1, hgo.2, Bool.or_false, if_neg Bool.false_ne_true, hcurrent]
  dsimp only
  unfold leaseIteration
  rw [hid]
  cases hnext : leaseNextSession F.toQueueDigest d.files
      (recovered F.toQueueDigest d.files d.scheduler c.now) d.worker.workerId c.leaseSeconds
      c.now with
  | error e => exact .inl (Nat.zero_le 1)
  | ok answer =>
    obtain ⟨s', lease⟩ := answer
    cases lease with
    | none =>
      dsimp only
      unfold idleIteration
      split
      · exact .inl (Nat.zero_le 1)
      · exact .inr (pair_saveBoth (.inr (.inr (currentOf_none hcurrent))))
    | some l =>
      obtain ⟨hrecorded, hnew⟩ := recorded_leaseNext hrecovered hF (le_refl c.now) hnext
      obtain ⟨-, howner, -, e, he, hheld⟩ := hnew l rfl
      have hflags : (withoutLease (countedWorker d.worker n)).stopRequested = false ∧
          (withoutLease (countedWorker d.worker n)).pauseRequested = false := by
        unfold withoutLease
        split <;> exact hgo
      have hon : OnEntry s' (leasedWorker F (withoutLease (countedWorker d.worker n)) l c.now) l e :=
        ⟨he, hheld.session, hheld.lease, (hheld.owner.trans howner).trans hid.symm, hheld.status⟩
      have hne : l.leaseId ≠ "" := by
        obtain ⟨i, -, hi⟩ := leaseNext_own hnext
        rw [hi]
        exact leaseIdOf_ne i
      obtain ⟨write, tail, hwrites, hending⟩ :=
        @dispatchIteration_writes F d.files s' _ l c hrecorded e hon hne
      have hdispatch : (leasedWorker F (withoutLease (countedWorker d.worker n)) l
          c.now).currentDispatchId = (leasedWorker F d.worker l c.now).currentDispatchId := by
        change some ("worker-dispatch-" ++ F.dispatchIdentity
          (withoutLease (countedWorker d.worker n)).workerId l.leaseId) = _
        rw [hid]
        rfl
      refine ⟨fun later => newLease_not_held hF h hclock hnext, sealSchedulerState F.toQueueDigest s',
        leasedWorker F (withoutLease (countedWorker d.worker n)) l c.now, write, tail,
        congrArg (fun writes => Write.worker (leasedWorker F (withoutLease (countedWorker d.worker n)) l
          c.now) :: Write.scheduler (sealSchedulerState F.toQueueDigest s') :: writes) hwrites,
        rfl, hflags.1, hflags.2, fun later => ?_, ?_⟩
      · exact holds_seal.trans (holds_of_held hrecorded he hheld)
      · rw [hdispatch, repeats_congr (leaseNext_processed hnext)] at hending
        rcases hending with rfl | ⟨s₂, w₂, rfl, hholds⟩
        · exact .inl rfl
        · exact .inr ⟨s₂, w₂, rfl, fun later => (hholds later).trans (and_congr_right' holds_seal.symm)⟩

/-- What an iteration that gets past its checks saves. -/
theorem iteration_cases (hF : Faithful F.toQueueDigest)
    (h : Recorded F.toQueueDigest clock d.scheduler) (hclock : clock ≤ c.now)
    (hown : OwnLease F d.worker) (hvalid : validateWorker F d.worker = [])
    (hscheduler : validateSchedulerState F.toQueueDigest d.scheduler = [])
    (hbinding : bindingReasons d.worker d.scheduler c = []) :
    StageSaves F d c (runWorkerIteration F d c).writes (stage F d c) ∧
      (stage F d c ≠ .none →
        d.worker.stopRequested = false ∧ d.worker.pauseRequested = false) := by
  obtain ⟨n, hrun⟩ := runWorkerIteration_checked hvalid hscheduler hbinding
  have hrecovered := recorded_keeps hclock h
    (@keeps_recovered F.toQueueDigest d.files c.now d.scheduler)
  have hnone : (d.worker.stopRequested || d.worker.pauseRequested) = true → stage F d c = .none := by
    intro hflag
    unfold stage
    exact if_pos hflag
  rw [hrun]
  unfold iterate
  rw [show (countedWorker d.worker n).stopRequested = d.worker.stopRequested from rfl,
    show (countedWorker d.worker n).pauseRequested = d.worker.pauseRequested from rfl,
    stage_checked n]
  cases hstop : d.worker.stopRequested with
  | true =>
    have hstage := hnone (by rw [hstop, Bool.true_or])
    rw [hstage, if_pos rfl]
    exact ⟨.inr (pair_saveBoth (.inl hstop)), fun hne => absurd rfl hne⟩
  | false =>
    rw [if_neg Bool.false_ne_true]
    cases hpause : d.worker.pauseRequested with
    | true =>
      have hstage := hnone (by rw [hpause, Bool.or_true])
      rw [hstage, if_pos rfl]
      exact ⟨.inr (pair_saveBoth (.inr (.inl hpause))), fun hne => absurd rfl hne⟩
    | false =>
      rw [if_neg Bool.false_ne_true]
      refine ⟨?_, fun _ => ⟨rfl, rfl⟩⟩
      cases hcurrent : currentOf (recovered F.toQueueDigest d.files d.scheduler c.now) d.worker
          c.now with
      | some l => exact resume_saves hF hrecovered hown n ⟨hstop, hpause⟩ hcurrent
      | none => exact lease_saves hF h hclock n ⟨hstop, hpause⟩ hcurrent

/-! ## The next iteration -/

variable {c' : Call} {k : ℕ}

/-- A crash in an iteration that lets go of its lease, or has none, does no harm to the next one. -/
theorem not_marks_pair {s : SchedulerState}
    (h : d.worker.stopRequested = true ∨ d.worker.pauseRequested = true ∨
      ∀ l ∈ d.worker.currentLease, reached now l.expiresAt = true) (hlater : now ≤ later) :
    ¬(d.worker.stopRequested = false ∧ d.worker.pauseRequested = false ∧
      ∃ l, d.worker.currentLease = some l ∧ reached later l.expiresAt = false ∧
        ¬Holds s l later) := by
  rintro ⟨hstop, hpause, l, hl, hunreached, -⟩
  rcases h with hstop' | hpause' | hreached
  · rw [hstop] at hstop'
    cases hstop'
  · rw [hpause] at hpause'
    cases hpause'
  · rw [reached_mono hlater (hreached l hl)] at hunreached
    cases hunreached

/-- The lease on the entry of the file has not run out later on. -/
theorem holds_later_iff {F : QueueDigest} (h : Recorded F clock s) (hholds : Holds s l now) :
    Holds s l later ↔ ∀ e ∈ entry? s l.sessionId, overdue later e = false := by
  obtain ⟨e, he, hsession, hid, hactive, -⟩ := hholds
  have hentry : entry? s l.sessionId = some e := hsession ▸ h.entry? he
  rw [hentry]
  constructor
  · rintro ⟨e', he', hsession', -, -, hdue⟩ e₁ he₁
    cases he₁
    obtain rfl := eq_of_key h.sessions he' he (hsession'.trans hsession.symm)
    exact hdue
  · exact fun hdue => ⟨e, he, hsession, hid, hactive, hdue e rfl⟩

theorem not_careful_iff {a : Bool} {P : Prop} : (a = false ∧ ¬P) ↔ ¬(a = true ∨ P) := by
  rw [not_or, Bool.not_eq_true]

/-- After a crash between two saves, the next iteration finds the files at odds if and only if the
crash was not careful. -/
theorem crash_iff (hF : Faithful F.toQueueDigest)
    (h : Recorded F.toQueueDigest clock d.scheduler) (hown : OwnLease F d.worker)
    (hclock : clock ≤ c.now) (hk : 0 < k) (hk' : k < (runWorkerIteration F d c).writes.length)
    (hlater : c.now ≤ c'.now) (hpath : c'.schedulerStatePath = c.schedulerStatePath)
    (hname : c'.workerName = c.workerName) :
    Marks (runWorkerIteration F (d.after ((runWorkerIteration F d c).writes.take k)) c') ↔
      ¬Careful F d c k c'.now := by
  have hsaves : (runWorkerIteration F d c).writes ≠ [] := by
    intro hnil
    rw [hnil] at hk'
    exact Nat.not_lt_zero k hk'
  obtain ⟨hvalid, hscheduler, hbinding⟩ := checked_of_writes hsaves
  obtain ⟨hcases, hgo⟩ := iteration_cases hF h hclock hown hvalid hscheduler hbinding
  have hsound := iteration_sound (c := c) hF h hclock hown
  have hready : Ready F d.worker d.scheduler.schedulerId c.now
      (d.after ((runWorkerIteration F d c).writes.take k)) :=
    Ready.after hvalid
      ⟨recorded_keeps hclock h (Keeps.refl _), rfl, hscheduler, SameWorker.refl _, hown, hvalid⟩
      fun x hx => hsound x (List.mem_of_mem_take hx)
  rw [marks_iff hF hready.recorded hlater hready.own hready.checked hready.valid
    (binding_congr hbinding hready.worker hready.scheduler hpath hname)]
  have hrecovers : ∀ l, Holds (recovered F.toQueueDigest d.files d.scheduler c.now) l c'.now ↔
      Holds d.scheduler l c'.now := fun l => holds_keeps (keeps_recovered _) hlater
  generalize hwrites : (runWorkerIteration F d c).writes = writes at hcases hk' ⊢
  unfold Careful
  rw [hwrites]
  cases hstage : stage F d c with
  | none =>
    rw [hstage] at hcases
    rcases hcases with hlength | ⟨s, w, rfl, hdone⟩
    · omega
    · obtain rfl : k = 1 := by
        change k < 2 at hk'
        omega
      exact ⟨fun hmarks => absurd hmarks (not_marks_pair hdone hlater),
        fun hcareless => absurd trivial hcareless⟩
  | waiting l =>
    rw [hstage] at hcases
    obtain ⟨hstop, hpause⟩ := hgo (by rw [hstage]; exact fun hne => by cases hne)
    obtain ⟨hlease, rfl | ⟨s, w, rfl, hnot⟩⟩ := hcases
    · exact absurd hk' (Nat.not_lt_zero k)
    · obtain rfl : k = 1 := by
        change k < 2 at hk'
        omega
      dsimp only
      rw [Bool.not_eq_true]
      constructor
      · rintro ⟨-, -, l', hl', hunreached, -⟩
        cases hlease.symm.trans hl'
        exact hunreached
      · exact fun hunreached => ⟨hstop, hpause, l, hlease, hunreached, hnot c'.now⟩
  | resuming l =>
    rw [hstage] at hcases
    obtain ⟨hstop, hpause⟩ := hgo (by rw [hstage]; exact fun hne => by cases hne)
    obtain ⟨hlease, hholds, write, tail, rfl, hending⟩ := hcases
    -- The worker file is the one from before the iteration.
    have hmain : ∀ {s : SchedulerState} {P : Prop}, (Holds s l c'.now ↔ P) →
        ((d.worker.stopRequested = false ∧ d.worker.pauseRequested = false ∧
          ∃ l, d.worker.currentLease = some l ∧ reached c'.now l.expiresAt = false ∧
            ¬Holds s l c'.now) ↔ ¬(reached c'.now l.expiresAt = true ∨ P)) := by
      intro s P hP
      rw [← not_careful_iff, ← hP]
      constructor
      · rintro ⟨-, -, l', hl', hboth⟩
        cases hlease.symm.trans hl'
        exact hboth
      · exact fun hboth => ⟨hstop, hpause, l, hlease, hboth⟩
    have hentry : Holds d.scheduler l c'.now ↔
        ∀ e ∈ entry? d.scheduler l.sessionId, overdue c'.now e = false :=
      holds_later_iff h hholds
    dsimp only
    rcases hending with rfl | ⟨s', w', rfl, hkept⟩
    · cases write with
      | none => exact absurd hk' (Nat.not_lt_zero k)
      | some write =>
        change k < 1 at hk'
        omega
    · have hafter : Holds s' l c'.now ↔ (∀ e ∈ entry? d.scheduler l.sessionId,
          overdue c'.now e = false) ∧ (true = false ∨
            repeats d.scheduler d.worker.currentDispatchId c = true) := by
        rw [hkept, hrecovers, hentry, and_comm]
        simp only [Bool.true_eq_false, false_or]
      cases write with
      | none =>
        obtain rfl : k = 1 := by
          change k < 2 at hk'
          omega
        exact hmain hafter
      | some write =>
        have hkcases : k = 1 ∨ k = 2 := by
          change k < 3 at hk'
          omega
        rcases hkcases with rfl | rfl
        · refine hmain ?_
          refine hentry.trans ⟨fun hdue => ⟨hdue, .inl rfl⟩, fun hdue => hdue.1⟩
        · exact hmain hafter
  | leasing l =>
    rw [hstage] at hcases
    obtain ⟨hnot, s₁, w₁, write, tail, rfl, hlease, hstop, hpause, hheld, hending⟩ := hcases
    -- The worker file is the one with the new lease.
    have hmain : ∀ {s : SchedulerState} {P : Prop},
        (reached c'.now l.expiresAt = false → (Holds s l c'.now ↔ P)) →
        ((w₁.stopRequested = false ∧ w₁.pauseRequested = false ∧
          ∃ l, w₁.currentLease = some l ∧ reached c'.now l.expiresAt = false ∧
            ¬Holds s l c'.now) ↔ ¬(reached c'.now l.expiresAt = true ∨ P)) := by
      intro s P hP
      rw [← not_careful_iff]
      constructor
      · rintro ⟨-, -, l', hl', hunreached, hfree⟩
        cases hlease.symm.trans hl'
        exact ⟨hunreached, fun p => hfree ((hP hunreached).mpr p)⟩
      · rintro ⟨hunreached, hnP⟩
        exact ⟨hstop, hpause, l, hlease, hunreached, fun hholds => hnP ((hP hunreached).mp hholds)⟩
    have hfirst : ∀ {P : Prop}, (reached c'.now l.expiresAt = false →
        (Holds d.scheduler l c'.now ↔ (1 : ℕ) ≠ 1 ∧ P)) :=
      fun _ => ⟨fun hholds => absurd hholds (hnot c'.now), fun hone => absurd rfl hone.1⟩
    have hsecond : ∀ {n : ℕ} {P : Prop}, n ≠ 1 → (reached c'.now l.expiresAt = false →
        (Holds s₁ l c'.now ↔ n ≠ 1 ∧ (false = false ∨ P))) :=
      fun hn hunreached => ⟨fun _ => ⟨hn, .inl rfl⟩, fun _ => (hheld c'.now).mpr hunreached⟩
    dsimp only
    rcases hending with rfl | ⟨s', w', rfl, hkept⟩
    · cases write with
      | none =>
        obtain rfl : k = 1 := by
          change k < 2 at hk'
          omega
        exact hmain hfirst
      | some write =>
        have hkcases : k = 1 ∨ k = 2 := by
          change k < 3 at hk'
          omega
        rcases hkcases with rfl | rfl
        · exact hmain hfirst
        · exact hmain (hsecond (by decide))
    · have hafter : ∀ {n : ℕ}, n ≠ 1 → (reached c'.now l.expiresAt = false →
          (Holds s' l c'.now ↔ n ≠ 1 ∧ (true = false ∨
            repeats d.scheduler (leasedWorker F d.worker l c.now).currentDispatchId c = true))) := by
        intro n hn hunreached
        rw [hkept, hheld]
        simp only [Bool.true_eq_false, false_or]
        exact ⟨fun hboth => ⟨hn, hboth.1⟩, fun hboth => ⟨hboth.2, hunreached⟩⟩
      cases write with
      | none =>
        have hkcases : k = 1 ∨ k = 2 ∨ k = 3 := by
          change k < 4 at hk'
          omega
        rcases hkcases with rfl | rfl | rfl
        · exact hmain hfirst
        · exact hmain (hsecond (by decide))
        · exact hmain (hafter (by decide))
      | some write =>
        have hkcases : k = 1 ∨ k = 2 ∨ k = 3 ∨ k = 4 := by
          change k < 5 at hk'
          omega
        rcases hkcases with rfl | rfl | rfl | rfl
        · exact hmain hfirst
        · exact hmain (hsecond (by decide))
        · exact hmain (hsecond (by decide))
        · exact hmain (hafter (by decide))

/-! ## Runs with crashes -/

structure Site where
  disk : Disk
  clock : Instant

/-- What happens to the files: a call of anyone on the scheduler, a change to the worker file, and an
iteration that stops after `k` of its saves. -/
inductive Event where
  | other (st : Step)
  | request (action : WorkerAction) (now : Instant)
  | start (now : Instant)
  | stopSignal
  | iterate (c : Call) (k : ℕ)

def Event.now? : Event → Option Instant
  | .other st => st.now?
  | .request _ now => some now
  | .start now => some now
  | .stopSignal => none
  | .iterate c _ => some c.now

variable (F) in
/-- The disk after a call of someone who loads the file of the scheduler and saves what the call
returns. -/
def Site.call (site : Site) (st : Step) : Disk :=
  let w : World := ⟨site.disk.scheduler, site.disk.files, site.clock⟩
  { site.disk with
    scheduler := match (w.call F.toQueueDigest st).2 with
      | .ok s => sealSchedulerState F.toQueueDigest s
      | .error _ => site.disk.scheduler
    files := filesAfter F.toQueueDigest w st }

/-- The start of `run_runtime_worker`. -/
def startedWorker (F : WorkerDigest) (w : WorkerState) (now : Instant) : WorkerState :=
  sealWorker F (heartbeat F { w with startedAt := timeText now, stoppedAt := none } .starting now)

variable (F) in
def Site.step (site : Site) (e : Event) : Site where
  disk := match e with
    | .other st => site.call F st
    | .request action now =>
      { site.disk with worker := requestWorkerAction F site.disk.worker action now }
    | .start now => { site.disk with worker := startedWorker F site.disk.worker now }
    | .stopSignal =>
      { site.disk with worker := sealWorker F { site.disk.worker with stopRequested := true } }
    | .iterate c k => site.disk.after ((runWorkerIteration F site.disk c).writes.take k)
  clock := e.now?.getD site.clock

variable (F) in
def serving : Machine Site Event Unit where
  step site e := ((), site.step F e)

/-- Nothing happens at a time before that of what happened earlier. -/
def EventInOrder (site : Site) (e : Event) : Prop := ∀ now ∈ e.now?, site.clock ≤ now

instance (site : Site) (e : Event) : Decidable (EventInOrder site e) :=
  inferInstanceAs (Decidable (∀ now ∈ e.now?, site.clock ≤ now))

variable (F) in
structure Served (site : Site) : Prop where
  recorded : Recorded F.toQueueDigest site.clock site.disk.scheduler
  own : OwnLease F site.disk.worker

/-- The files after saves of an iteration. -/
theorem served_after {writes : List Write}
    (h : Recorded F.toQueueDigest now d.scheduler ∧ OwnLease F d.worker)
    (hwrites : AllSound F w₀ schedulerId now writes) :
    Recorded F.toQueueDigest now (d.after writes).scheduler ∧ OwnLease F (d.after writes).worker := by
  unfold Disk.after
  induction writes generalizing d with
  | nil => exact h
  | cons x xs ih =>
    refine ih ?_ fun y hy => hwrites y (List.mem_cons_of_mem x hy)
    have hx := hwrites x List.mem_cons_self
    cases x with
    | worker w => exact ⟨h.1, hx.2.1⟩
    | scheduler s => exact ⟨hx.1, h.2⟩
    | session write => exact h

theorem served_step (hF : Faithful F.toQueueDigest) {site : Site} {e : Event} (h : Served F site)
    (hin : EventInOrder site e) : Served F (site.step F e) := by
  have hrecorded : ∀ now, site.clock ≤ now → Recorded F.toQueueDigest now site.disk.scheduler :=
    fun now hclock => recorded_keeps hclock h.recorded (Keeps.refl _)
  cases e with
  | other st =>
    have hin' : InOrder ⟨site.disk.scheduler, site.disk.files, site.clock⟩ st := hin
    refine ⟨?_, h.own⟩
    change Recorded F.toQueueDigest (st.after site.clock) (match
      (World.call F.toQueueDigest ⟨site.disk.scheduler, site.disk.files, site.clock⟩ st).2 with
      | .ok s => sealSchedulerState F.toQueueDigest s
      | .error _ => site.disk.scheduler)
    split
    · rename_i s hcall
      exact recorded_keeps (le_refl _) (recorded_call hF h.recorded hin' hcall) (keeps_seal s)
    · exact hrecorded _ hin'.le
  | request action now =>
    refine ⟨hrecorded now (hin now rfl), h.own.congr ?_ ?_⟩
    · cases action <;> rfl
    · cases action <;> rfl
  | start now => exact ⟨hrecorded now (hin now rfl), h.own.congr rfl rfl⟩
  | stopSignal => exact ⟨h.recorded, h.own.congr rfl rfl⟩
  | iterate c k =>
    have hclock : site.clock ≤ c.now := hin c.now rfl
    have hsound := iteration_sound (c := c) hF h.recorded hclock h.own
    obtain ⟨hafter, hown⟩ := served_after ⟨hrecorded c.now hclock, h.own⟩
      fun x hx => hsound x (List.mem_of_mem_take hx)
    exact ⟨hafter, hown⟩

def Site.init (F : WorkerDigest) (schedulerId : String) (w : WorkerState) (files : Files)
    (now : Instant) : Site :=
  ⟨⟨w, createSchedulerState F.toQueueDigest schedulerId now, files⟩, now⟩

/-- On every disk that is reached, with crashes on the way: after an iteration that crashed between
two of its saves, the next one of the worker ends in a mismatch if and only if the crash was not
careful. -/
theorem mismatch_iff_careless (hF : Faithful F.toQueueDigest)
    {schedulerId path workerPath name : String} {start : Instant}
    (hw : createWorker F (createSchedulerState F.toQueueDigest schedulerId start) path workerPath
      name start = .ok w) {events : List Event}
    (h : (serving F).Guarded EventInOrder (Site.init F schedulerId w files start) events)
    {site : Site} (hsite : site = (serving F).run (Site.init F schedulerId w files start) events)
    (hclock : site.clock ≤ c.now) (hk : 0 < k)
    (hk' : k < (runWorkerIteration F site.disk c).writes.length) (hlater : c.now ≤ c'.now)
    (hpath : c'.schedulerStatePath = c.schedulerStatePath) (hname : c'.workerName = c.workerName) :
    Marks (runWorkerIteration F
        (site.disk.after ((runWorkerIteration F site.disk c).writes.take k)) c') ↔
      ¬Careful F site.disk c k c'.now := by
  have hserved : Served F site := by
    rw [hsite]
    refine @Machine.Guarded.invariant Site Event Unit (serving F) EventInOrder (Served F)
      (fun site e hserved hin => served_step hF hserved hin) _ events h ⟨recorded_create, ?_⟩
    unfold createWorker at hw
    split at hw
    · cases hw
    · cases hw
      exact .of_none rfl
  exact crash_iff hF hserved.recorded hserved.own hclock hk hk' hlater hpath hname

/-! ## A small disk -/

def sampleWorkerDigest : WorkerDigest where
  toQueueDigest := sampleDigest
  worker _ := ""
  workerIdentity name _ _ := name
  dispatchIdentity workerId leaseId := workerId ++ leaseId

def sampleWorker : WorkerState where
  contract := workerContract
  workerId := "runtime-worker-one"
  workerName := "one"
  workerStatus := .created
  schedulerStatePath := "/scheduler.json"
  schedulerId := "scheduler"
  startedAt := 0
  updatedAt := 0
  lastHeartbeatAt := 0
  workerFingerprint := ""

def sampleSite : Site := Site.init sampleWorkerDigest "scheduler" sampleWorker sampleFiles 0

/-- An iteration of the worker at a time. -/
def sampleCall (now : Instant) : Call where
  schedulerStatePath := "/scheduler.json"
  workerName := "one"
  targetRoot := some "/target"
  workspaceRoot := some "/work"
  now
  leaseSeconds := 30
  delegation := .ok {}
  published := .ok none
  failed := .ok none

def enqueuedSite : Site := sampleSite.step sampleWorkerDigest (.other enqueueFirst)

/-- The crash comes when the lease is in both files. -/
theorem mismatch_iff_careless_sample :
    Marks (runWorkerIteration sampleWorkerDigest (enqueuedSite.disk.after
        ((runWorkerIteration sampleWorkerDigest enqueuedSite.disk (sampleCall 0)).writes.take 2))
          (sampleCall 1000000)) ↔
      ¬Careful sampleWorkerDigest enqueuedSite.disk (sampleCall 0) 2 1000000 :=
  @mismatch_iff_careless sampleWorkerDigest sampleFiles sampleWorker (sampleCall 0)
    (sampleCall 1000000) 2 sampleDigest_faithful "scheduler" "/scheduler.json" "/worker.json" "one" 0
    rfl [.other enqueueFirst] (by decide +kernel) enqueuedSite rfl (by decide +kernel) (by decide)
    (by decide +kernel) (by decide) rfl rfl

/-- A save of a worker as failed, for a lease that is not on the entry. -/
def marked : Write → Bool
  | .worker w => w.workerStatus = .failed && w.failure = some mismatchFailure
  | _ => false

theorem marks_of_any {o : Outcome} (h : o.writes.any marked = true) : Marks o := by
  obtain ⟨x, hx, hmarked⟩ := List.any_eq_true.mp h
  cases x with
  | worker w =>
    unfold marked at hmarked
    rw [Bool.and_eq_true, decide_eq_true_eq, decide_eq_true_eq] at hmarked
    exact ⟨w, hx, hmarked⟩
  | scheduler s => cases hmarked
  | session write => cases hmarked

/-- The crash comes after the worker is saved with its new lease and before the scheduler is: a
second later the worker is failed. -/
theorem lease_saved_once :
    EventInOrder sampleSite (.other enqueueFirst) ∧
      1 < (runWorkerIteration sampleWorkerDigest enqueuedSite.disk (sampleCall 0)).writes.length ∧
      Marks (runWorkerIteration sampleWorkerDigest (enqueuedSite.disk.after
        ((runWorkerIteration sampleWorkerDigest enqueuedSite.disk (sampleCall 0)).writes.take 1))
          (sampleCall 1000000)) :=
  ⟨by decide +kernel, by decide +kernel, marks_of_any (by decide +kernel)⟩

end SessionScheduler
end ZeroRuntime
