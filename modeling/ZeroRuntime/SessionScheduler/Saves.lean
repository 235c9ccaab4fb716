import ZeroRuntime.SessionScheduler.Worker

/-!
# ZeroRuntime.SessionScheduler.Saves

What a worker saves, and when it finds the two files at odds.

* `Sound`: a save that keeps the worker who it is and the leases of the scheduler recorded. All
  saves of an iteration are (`iteration_sound`).
* `Holds`: the scheduler has the lease on its entry, and it has not run out.
* `marks_iff`: an iteration ends in `current_lease_identity_mismatch` if and only if the worker file
  has a lease that has not run out and that the scheduler does not hold.
-/

namespace ZeroRuntime
namespace SessionScheduler

open Lib Sessions

variable {F : WorkerDigest} {files : Files} {s s' : SchedulerState} {w w' : WorkerState}
  {l : SessionLease} {now clock later : Instant} {c : Call} {d : Disk}

/-! ## Sound saves -/

structure SameWorker (w w' : WorkerState) : Prop where
  contract : w'.contract = w.contract
  workerId : w'.workerId = w.workerId
  workerName : w'.workerName = w.workerName
  schedulerId : w'.schedulerId = w.schedulerId
  path : w'.schedulerStatePath = w.schedulerStatePath

theorem SameWorker.refl (w : WorkerState) : SameWorker w w := ⟨rfl, rfl, rfl, rfl, rfl⟩

theorem SameWorker.trans {w'' : WorkerState} (h : SameWorker w w') (h' : SameWorker w' w'') :
    SameWorker w w'' :=
  ⟨h'.contract.trans h.contract, h'.workerId.trans h.workerId, h'.workerName.trans h.workerName,
    h'.schedulerId.trans h.schedulerId, h'.path.trans h.path⟩

variable (F) in
/-- The lease of the worker was handed out to it. -/
def OwnLease (w : WorkerState) : Prop :=
  ∀ l ∈ w.currentLease, ∃ i : LeaseIdentity, i.owner = w.workerId ∧
    l.leaseId = leaseIdOf F.toQueueDigest i

theorem OwnLease.of_none (h : w.currentLease = none) : OwnLease F w := by
  intro l hl
  rw [h] at hl
  cases hl

theorem OwnLease.congr (h : OwnLease F w) (hid : w'.workerId = w.workerId)
    (hlease : w'.currentLease = w.currentLease) : OwnLease F w' := by
  unfold OwnLease
  rw [hid, hlease]
  exact h

variable (F) in
/-- A save by the worker `w₀`, of the scheduler with an id. -/
def Sound (w₀ : WorkerState) (schedulerId : String) (now : Instant) : Write → Prop
  | .worker w => SameWorker w₀ w ∧ OwnLease F w ∧ w = sealWorker F w
  | .scheduler s => Recorded F.toQueueDigest now s ∧ s.schedulerId = schedulerId ∧
      validateSchedulerState F.toQueueDigest s = []
  | .session _ => True

variable (F) in
/-- All saves are sound. -/
def AllSound (w₀ : WorkerState) (schedulerId : String) (now : Instant) (writes : List Write) : Prop :=
  ∀ x ∈ writes, Sound F w₀ schedulerId now x

variable {schedulerId : String}

theorem AllSound.append {xs ys : List Write} (h : AllSound F w schedulerId now xs)
    (h' : AllSound F w schedulerId now ys) : AllSound F w schedulerId now (xs ++ ys) := by
  intro x hx
  rcases List.mem_append.mp hx with hxs | hys
  · exact h x hxs
  · exact h' x hys

theorem allSound_nil : AllSound F w schedulerId now [] :=
  fun x hx => by cases hx

theorem allSound_raising {e : Raised} :
    AllSound F w schedulerId now (Outcome.raising e).writes := allSound_nil

/-- The worker that is called, as one whose saves are sound. -/
theorem SameWorker.allSound {xs : List Write} (h : SameWorker w w')
    (hsound : AllSound F w' schedulerId now xs) : AllSound F w schedulerId now xs := by
  intro x hx
  have hs := hsound x hx
  cases x with
  | worker w'' => exact ⟨h.trans hs.1, hs.2⟩
  | scheduler s => exact hs
  | session write => exact hs

theorem sound_scheduler (h : Recorded F.toQueueDigest now s) :
    Sound F w s.schedulerId now (.scheduler (sealSchedulerState F.toQueueDigest s)) :=
  ⟨recorded_keeps (le_refl now) h (keeps_seal s), rfl, h.shaped.valid⟩

theorem sound_saveBoth (h : Recorded F.toQueueDigest now s) (hsame : SameWorker w w')
    (hown : OwnLease F w') : AllSound F w s.schedulerId now (saveBoth F s w').writes := by
  intro x hx
  rcases List.mem_cons.mp hx with rfl | hmem
  · exact sound_scheduler h
  · cases List.mem_singleton.mp hmem
    exact ⟨hsame.trans ⟨rfl, rfl, rfl, rfl, rfl⟩, hown.congr rfl rfl, rfl⟩

theorem recorded_giveBack (h : Recorded F.toQueueDigest clock s) :
    Recorded F.toQueueDigest clock (giveBack F s w l now) := by
  unfold giveBack
  cases hs : releaseSessionLease F.toQueueDigest s l.leaseId w.workerId l.sessionId now with
  | error e => exact h
  | ok s' => exact recorded_release h hs

theorem release_scheduler {leaseId owner sessionId : String}
    (hs : releaseSessionLease F.toQueueDigest s leaseId owner sessionId now = .ok s') :
    s'.schedulerId = s.schedulerId := by
  obtain ⟨e, -, -, -, -, rfl⟩ := release_ok hs
  rfl

theorem giveBack_scheduler : (giveBack F s w l now).schedulerId = s.schedulerId := by
  unfold giveBack
  cases hs : releaseSessionLease F.toQueueDigest s l.leaseId w.workerId l.sessionId now with
  | error e => rfl
  | ok s' => exact release_scheduler hs

theorem sound_giveBackHeld (h : Recorded F.toQueueDigest now s) (hsame : SameWorker w w')
    (hnone : OwnLease F w') :
    AllSound F w s.schedulerId now (saveBoth F (giveBackHeld F s w now) w').writes := by
  unfold giveBackHeld
  cases w.currentLease with
  | none => exact sound_saveBoth h hsame hnone
  | some l =>
    have hback := @giveBack_scheduler F s w l now
    exact hback ▸ sound_saveBoth (recorded_giveBack h) hsame hnone

theorem sound_finish (h : Recorded F.toQueueDigest now s) :
    AllSound F w s.schedulerId now (finishDispatch F s w now).writes :=
  sound_saveBoth h ⟨rfl, rfl, rfl, rfl, rfl⟩ (.of_none rfl)

theorem sameWorker_noteEvent (event : Option String) : SameWorker w (noteEvent w event) := by
  cases event <;> exact ⟨rfl, rfl, rfl, rfl, rfl⟩

theorem sameWorker_noteAnswer (answer : DispatchAnswer) : SameWorker w (noteAnswer w answer) := by
  cases answer <;> exact ⟨rfl, rfl, rfl, rfl, rfl⟩

theorem sameWorker_noteFailure (error : Raised) : SameWorker w (noteFailure w error) :=
  ⟨rfl, rfl, rfl, rfl, rfl⟩

theorem sameWorker_withoutLease : SameWorker w (withoutLease w) := by
  unfold withoutLease
  split <;> exact ⟨rfl, rfl, rfl, rfl, rfl⟩

theorem withoutLease_lease : (withoutLease w).currentLease = none := by
  unfold withoutLease
  split
  · rfl
  · rename_i hnone
    exact Option.not_isSome_iff_eq_none.mp hnone

theorem sound_fail {error : Raised} (h : Recorded F.toQueueDigest c.now s) :
    AllSound F w s.schedulerId c.now (failDispatch F s w l error c).writes := by
  unfold failDispatch
  cases c.failed with
  | error e => exact allSound_raising
  | ok event =>
    have hsame := (sameWorker_noteFailure (w := w) error).trans (sameWorker_noteEvent event)
    have hback : AllSound F (noteEvent (noteFailure w error) event)
        (giveBack F s w l c.now).schedulerId c.now _ := sound_finish (recorded_giveBack h)
    rw [giveBack_scheduler] at hback
    exact hsame.allSound hback

theorem leaseNext_scheduler {owner : String} {lifetime : ℤ} {lease : Option SessionLease}
    (hs : leaseNextSession F.toQueueDigest files s owner lifetime now = .ok (s', lease)) :
    s'.schedulerId = s.schedulerId := by
  obtain ⟨-, -, ⟨-, rfl⟩ | ⟨candidate, live, -, -, -, rfl⟩⟩ := leaseNext_ok hs <;> rfl

theorem dispatch_scheduler {owner : String} {targetRoot workspaceRoot : Root}
    {leaseId dispatchId : Option String} {answer : DispatchAnswer}
    (hs : (dispatchSession F.toQueueDigest files s owner targetRoot workspaceRoot now leaseId
      dispatchId).2 = .ok (s', answer)) : s'.schedulerId = s.schedulerId := by
  have hnew : ∀ s₁ lease, dispatchLease F.toQueueDigest files s owner now leaseId =
      .ok (s₁, lease) → s₁.schedulerId = s.schedulerId := by
    intro s₁ lease hlease
    rcases dispatchLease_ok hlease with rfl | hnew
    · rfl
    · exact leaseNext_scheduler hnew
  rcases dispatch_ok hs with rfl | ⟨s₁, lease, hlease, rfl | ⟨s₂, id, sessionId, hkeeps, hrelease⟩⟩
  · rfl
  · exact hnew _ _ hlease
  · exact (release_scheduler hrelease).trans (hkeeps.scheduler.trans (hnew s₁ _ hlease))

theorem sound_dispatch (hF : Faithful F.toQueueDigest) (h : Recorded F.toQueueDigest c.now s) :
    AllSound F w s.schedulerId c.now (dispatchIteration F files s w l c).writes := by
  unfold dispatchIteration
  refine AllSound.append ?_ ?_
  · intro x hx
    obtain ⟨write, -, rfl⟩ := Option.map_eq_some_iff.mp (Option.mem_toList.mp hx)
    trivial
  · unfold settleDispatch
    split
    · exact sound_fail h
    · rename_i s' answer hanswer
      have hrecorded := recorded_dispatch h hF (le_refl c.now) hanswer
      rw [← dispatch_scheduler hanswer]
      have hnote := sameWorker_noteAnswer (w := w) answer
      split
      · exact hnote.allSound (sound_fail hrecorded)
      · exact (hnote.trans (sameWorker_noteEvent _)).allSound (sound_finish hrecorded)

theorem sound_resume (hF : Faithful F.toQueueDigest) (h : Recorded F.toQueueDigest c.now s)
    (hown : OwnLease F w) :
    AllSound F w s.schedulerId c.now (resumeIteration F files s w l c).writes := by
  have hmismatch : AllSound F w s.schedulerId c.now (mismatchIteration F w c.now).writes := by
    intro x hx
    cases List.mem_singleton.mp hx
    exact ⟨⟨rfl, rfl, rfl, rfl, rfl⟩, hown.congr rfl rfl, rfl⟩
  unfold resumeIteration
  split
  · exact hmismatch
  split
  · exact hmismatch
  split
  · unfold waitingIteration
    split
    · exact allSound_raising
    · rename_i s' hrelease
      rw [← release_scheduler hrelease]
      exact sound_saveBoth (recorded_release h hrelease) ⟨rfl, rfl, rfl, rfl, rfl⟩ (.of_none rfl)
  · exact sound_dispatch hF h

theorem newLease_own {e : QueueEntry} {lifetime : ℕ} :
    ∃ i : LeaseIdentity, i.owner = w.workerId ∧
      (newLease F.toQueueDigest s e w.workerId lifetime now).leaseId =
        leaseIdOf F.toQueueDigest i := ⟨_, rfl, rfl⟩

theorem leaseNext_own {lifetime : ℤ}
    (hs : leaseNextSession F.toQueueDigest files s w.workerId lifetime now = .ok (s', some l)) :
    ∃ i : LeaseIdentity, i.owner = w.workerId ∧ l.leaseId = leaseIdOf F.toQueueDigest i := by
  obtain ⟨-, -, ⟨hnone, -⟩ | ⟨candidate, live, -, -, hlease, -⟩⟩ := leaseNext_ok hs
  · cases hnone
  · cases hlease
    exact newLease_own

theorem noteDelegation_same (d : Delegation) :
    SameWorker w (noteDelegation w d) ∧ (noteDelegation w d).currentLease = w.currentLease := by
  unfold noteDelegation
  cases d.lastEventId <;> exact ⟨⟨rfl, rfl, rfl, rfl, rfl⟩, rfl⟩

theorem sound_lease (hF : Faithful F.toQueueDigest) (h : Recorded F.toQueueDigest c.now s)
    (hnone : w.currentLease = none) :
    AllSound F w s.schedulerId c.now (leaseIteration F files s w c).writes := by
  unfold leaseIteration
  split
  · exact allSound_raising
  · rename_i s' hlease
    have hrecorded := (recorded_leaseNext h hF (le_refl c.now) hlease).1
    rw [← leaseNext_scheduler hlease]
    unfold idleIteration
    split
    · exact allSound_raising
    · rename_i d _
      obtain ⟨hnote, hsame⟩ := noteDelegation_same (w := w) d
      exact hnote.allSound
        (sound_saveBoth hrecorded ⟨rfl, rfl, rfl, rfl, rfl⟩ (.of_none (hsame.trans hnone)))
  · rename_i s' l hlease
    have hrecorded := (recorded_leaseNext h hF (le_refl c.now) hlease).1
    rw [← leaseNext_scheduler hlease]
    have hsame : SameWorker w (leasedWorker F w l c.now) := ⟨rfl, rfl, rfl, rfl, rfl⟩
    refine AllSound.append ?_ (hsame.allSound (sound_dispatch hF hrecorded))
    intro x hx
    rcases List.mem_cons.mp hx with rfl | hmem
    · refine ⟨hsame, ?_, rfl⟩
      rintro l' hl'
      cases hl'
      exact leaseNext_own hlease
    · cases List.mem_singleton.mp hmem
      exact sound_scheduler hrecorded

theorem sound_iterate (hF : Faithful F.toQueueDigest) (h : Recorded F.toQueueDigest c.now s)
    (hown : OwnLease F w) : AllSound F w s.schedulerId c.now (iterate F files s w c).writes := by
  unfold iterate
  split
  · exact sound_giveBackHeld h ⟨rfl, rfl, rfl, rfl, rfl⟩ (.of_none rfl)
  split
  · exact sound_giveBackHeld h (sameWorker_withoutLease.trans ⟨rfl, rfl, rfl, rfl, rfl⟩)
      (.of_none withoutLease_lease)
  split
  · exact sound_resume hF h hown
  · exact sameWorker_withoutLease.allSound (sound_lease hF h withoutLease_lease)

/-- An iteration that gets past its checks. -/
theorem runWorkerIteration_checked (hvalid : validateWorker F d.worker = [])
    (hscheduler : validateSchedulerState F.toQueueDigest d.scheduler = [])
    (hbinding : bindingReasons d.worker d.scheduler c = []) :
    ∃ n, runWorkerIteration F d c =
      iterate F d.files (recovered F.toQueueDigest d.files d.scheduler c.now)
        (countedWorker d.worker n) c := by
  have hrecover : recoverSchedulerState F.toQueueDigest d.files d.scheduler c.now =
      .ok (recovered F.toQueueDigest d.files d.scheduler c.now) := by
    unfold recoverSchedulerState checked
    rw [if_pos hscheduler]
    rfl
  unfold runWorkerIteration
  rw [if_neg (not_not.mpr hvalid), hrecover]
  dsimp only
  rw [if_neg (not_not.mpr hbinding)]
  exact ⟨_, rfl⟩

/-- An iteration that saves anything got past its checks. -/
theorem checked_of_writes (h : (runWorkerIteration F d c).writes ≠ []) :
    validateWorker F d.worker = [] ∧ validateSchedulerState F.toQueueDigest d.scheduler = [] ∧
      bindingReasons d.worker d.scheduler c = [] := by
  unfold runWorkerIteration at h
  split at h
  · exact absurd rfl h
  rename_i hvalid
  split at h
  · exact absurd rfl h
  rename_i s hrecover
  split at h
  · exact absurd rfl h
  rename_i hbinding
  exact ⟨not_not.mp hvalid, (recover_ok hrecover).1, not_not.mp hbinding⟩

theorem iteration_sound (hF : Faithful F.toQueueDigest)
    (h : Recorded F.toQueueDigest clock d.scheduler) (hclock : clock ≤ c.now)
    (hown : OwnLease F d.worker) :
    AllSound F d.worker d.scheduler.schedulerId c.now (runWorkerIteration F d c).writes := by
  by_cases hnone : (runWorkerIteration F d c).writes = []
  · rw [hnone]
    exact allSound_nil
  · obtain ⟨hvalid, hscheduler, hbinding⟩ := checked_of_writes hnone
    obtain ⟨n, hrun⟩ := runWorkerIteration_checked hvalid hscheduler hbinding
    rw [hrun]
    have hrecovered := recorded_keeps hclock h
      (@keeps_recovered F.toQueueDigest d.files c.now d.scheduler)
    have hsame : SameWorker d.worker (countedWorker d.worker n) := ⟨rfl, rfl, rfl, rfl, rfl⟩
    exact hsame.allSound (sound_iterate hF hrecovered (hown.congr rfl rfl))

/-! ## The lease of the worker and the one on the entry -/

/-- The scheduler has the lease on its entry, where it has not run out. -/
def Holds (s : SchedulerState) (l : SessionLease) (later : Instant) : Prop :=
  ∃ e ∈ s.entries, e.sessionId = l.sessionId ∧ e.leaseId = l.leaseId ∧ e.leaseStatus = .active ∧
    overdue later e = false

theorem recordsLease_iff :
    recordsLease (recovered F.toQueueDigest files s now) l = true ↔ Holds s l now := by
  unfold recordsLease Holds
  simp only [List.any_eq_true, Bool.and_eq_true, decide_eq_true_eq]
  constructor
  · rintro ⟨e', he', ⟨hsession, hid⟩, hactive⟩
    obtain ⟨e₁, he₁, rfl⟩ := List.mem_map.mp he'
    obtain ⟨e, he, rfl⟩ := List.mem_map.mp he₁
    have hdue : overdue now e = false := by
      by_contra hdue
      obtain ⟨hexpired, -⟩ := @recover_overdue F.toQueueDigest files now e
        (Bool.eq_true_of_not_eq_false hdue)
      rw [show (recoverEntry F.toQueueDigest files now e).leaseStatus = .active from hactive]
        at hexpired
      cases hexpired
    have hfollows := @follows_recover F.toQueueDigest files now e
    rcases hfollows.lease with hsame | ⟨hdue', -, -⟩
    · exact ⟨e, he, hfollows.session.symm.trans hsession, hsame.lease.symm.trans hid,
        hsame.status.symm.trans hactive, hdue⟩
    · rw [hdue] at hdue'
      cases hdue'
  · rintro ⟨e, he, hsession, hid, hactive, hdue⟩
    have hmem := List.mem_map_of_mem (f := sealEntry F.toQueueDigest)
      (List.mem_map_of_mem (f := recoverEntry F.toQueueDigest files now) he)
    have hfollows := @follows_recover F.toQueueDigest files now e
    rcases hfollows.lease with hsame | ⟨hdue', -, -⟩
    · exact ⟨_, hmem, ⟨hfollows.session.trans hsession, hsame.lease.trans hid⟩,
        hsame.status.trans hactive⟩
    · rw [hdue] at hdue'
      cases hdue'

theorem leaseIdOf_ne (i : LeaseIdentity) : leaseIdOf F.toQueueDigest i ≠ "" := by
  intro h
  have hlength := congrArg String.length h
  unfold leaseIdOf at hlength
  rw [String.length_append] at hlength
  have hprefix : "session-lease-".length = 14 := rfl
  have hempty : "".length = 0 := rfl
  omega

theorem owner_of_id (hF : Faithful F.toQueueDigest) (h : Recorded F.toQueueDigest clock s)
    {e : QueueEntry} (he : e ∈ s.entries) (hactive : e.leaseStatus = .active) {i : LeaseIdentity}
    (hid : e.leaseId = leaseIdOf F.toQueueDigest i) : e.leaseOwner = i.owner := by
  obtain ⟨l', hl', hheld⟩ := h.active e he hactive
  have hsame := (h.identified l' hl').symm.trans (hheld.lease.symm.trans hid)
  have hidentity := hF.lease (String.append_right_inj _ |>.mp hsame)
  rw [hheld.owner]
  exact congrArg LeaseIdentity.owner hidentity

theorem mismatch_iff (hF : Faithful F.toQueueDigest)
    (h : Recorded F.toQueueDigest now (recovered F.toQueueDigest files s now)) (hown : OwnLease F w)
    (hl : w.currentLease = some l) :
    (∃ e, entry? (recovered F.toQueueDigest files s now) l.sessionId = some e ∧
        e.leaseId = l.leaseId ∧ e.leaseOwner = w.workerId) ↔ Holds s l now := by
  obtain ⟨i, howner, hid⟩ := hown l hl
  rw [← @recordsLease_iff F files]
  unfold recordsLease
  simp only [List.any_eq_true, Bool.and_eq_true, decide_eq_true_eq]
  constructor
  · rintro ⟨e, hentry, hlease, -⟩
    obtain ⟨he, hsession⟩ := entry?_some hentry
    refine ⟨e, he, ⟨hsession, hlease⟩, ?_⟩
    by_contra hidle
    exact leaseIdOf_ne i (hid.symm.trans (hlease.symm.trans (h.idle e he hidle)))
  · rintro ⟨e, he, ⟨hsession, hlease⟩, hactive⟩
    refine ⟨e, hsession ▸ h.entry? he, hlease, ?_⟩
    rw [← howner]
    exact owner_of_id hF h he hactive (hlease.trans hid)

/-! ## The mismatch -/

/-- The worker is saved as failed, for a lease that is not the one on the entry. -/
def Marks (o : Outcome) : Prop :=
  ∃ w, .worker w ∈ o.writes ∧ w.workerStatus = .failed ∧ w.failure = some mismatchFailure

/-- No worker is saved as failed. -/
def Quiet (o : Outcome) : Prop := ∀ w, .worker w ∈ o.writes → w.workerStatus ≠ .failed

theorem Quiet.not_marks {o : Outcome} (h : Quiet o) : ¬Marks o := by
  rintro ⟨w, hw, hfailed, -⟩
  exact h w hw hfailed

theorem quiet_raising {e : Raised} : Quiet (.raising e) := fun w hw => by cases hw

theorem quiet_saveBoth (h : w.workerStatus ≠ .failed) : Quiet (saveBoth F s w) := by
  intro w' hw'
  rcases List.mem_cons.mp hw' with heq | hmem
  · cases heq
  · cases List.mem_singleton.mp hmem
    exact h

theorem quiet_fail {error : Raised} : Quiet (failDispatch F s w l error c) := by
  unfold failDispatch
  cases c.failed with
  | error e => exact quiet_raising
  | ok event => exact quiet_saveBoth fun h => by cases h

theorem quiet_following {o : Outcome} {writes : List Write} (h : Quiet o)
    (hwrites : ∀ w, .worker w ∈ writes → w.workerStatus ≠ .failed) : Quiet (o.following writes) := by
  intro w hw
  rcases List.mem_append.mp hw with hbefore | hafter
  · exact hwrites w hbefore
  · exact h w hafter

theorem quiet_dispatch : Quiet (dispatchIteration F files s w l c) := by
  unfold dispatchIteration
  refine quiet_following ?_ ?_
  · unfold settleDispatch
    split
    · exact quiet_fail
    · split
      · exact quiet_fail
      · exact quiet_saveBoth fun h => by cases h
  · intro w' hw'
    obtain ⟨write, -, heq⟩ := Option.map_eq_some_iff.mp (Option.mem_toList.mp hw')
    cases heq

theorem quiet_lease : Quiet (leaseIteration F files s w c) := by
  unfold leaseIteration
  split
  · exact quiet_raising
  · unfold idleIteration
    split
    · exact quiet_raising
    · exact quiet_saveBoth fun h => by cases h
  · refine quiet_following quiet_dispatch ?_
    intro w' hw'
    rcases List.mem_cons.mp hw' with heq | hmem
    · cases heq
      exact fun h => by cases h
    · cases List.mem_singleton.mp hmem

theorem marks_mismatch : Marks (mismatchIteration F w now) :=
  ⟨_, List.mem_singleton.mpr rfl, rfl, rfl⟩

theorem marks_resume :
    Marks (resumeIteration F files s w l c) ↔
      ¬∃ e, entry? s l.sessionId = some e ∧ e.leaseId = l.leaseId ∧ e.leaseOwner = w.workerId := by
  unfold resumeIteration
  cases hentry : entry? s l.sessionId with
  | none =>
    refine ⟨fun _ => ?_, fun _ => marks_mismatch⟩
    rintro ⟨e, he, -⟩
    cases he
  | some e =>
    dsimp only
    split
    · rename_i hne
      refine ⟨fun _ => ?_, fun _ => marks_mismatch⟩
      rintro ⟨e', he', hid, howner⟩
      cases he'
      exact hne.elim (fun h => h hid) fun h => h howner
    · rename_i hsame
      obtain ⟨hid, howner⟩ := not_or.mp hsame
      have hquiet : Quiet (if e.sessionStatus.waiting then waitingIteration F s w l c.now
          else dispatchIteration F files s w l c) := by
        split
        · unfold waitingIteration
          split
          · exact quiet_raising
          · exact quiet_saveBoth fun h => by cases h
        · exact quiet_dispatch
      exact ⟨fun h => absurd h hquiet.not_marks,
        fun h => absurd ⟨e, rfl, not_not.mp hid, not_not.mp howner⟩ h⟩

/-- An iteration finds the files at odds if and only if the worker goes on with a lease that the
scheduler does not hold. -/
theorem marks_iff (hF : Faithful F.toQueueDigest)
    (h : Recorded F.toQueueDigest clock d.scheduler) (hclock : clock ≤ c.now)
    (hown : OwnLease F d.worker) (hvalid : validateWorker F d.worker = [])
    (hscheduler : validateSchedulerState F.toQueueDigest d.scheduler = [])
    (hbinding : bindingReasons d.worker d.scheduler c = []) :
    Marks (runWorkerIteration F d c) ↔
      d.worker.stopRequested = false ∧ d.worker.pauseRequested = false ∧
        ∃ l, d.worker.currentLease = some l ∧ reached c.now l.expiresAt = false ∧
          ¬Holds d.scheduler l c.now := by
  obtain ⟨n, hrun⟩ := runWorkerIteration_checked hvalid hscheduler hbinding
  have hrecovered := recorded_keeps hclock h
    (@keeps_recovered F.toQueueDigest d.files c.now d.scheduler)
  rw [hrun]
  unfold iterate
  rw [show (countedWorker d.worker n).stopRequested = d.worker.stopRequested from rfl,
    show (countedWorker d.worker n).pauseRequested = d.worker.pauseRequested from rfl]
  split
  · rename_i hstop
    refine ⟨fun hmarks => absurd hmarks (quiet_saveBoth fun h => by cases h).not_marks, ?_⟩
    rintro ⟨hgo, -⟩
    rw [hstop] at hgo
    cases hgo
  rename_i hstop
  split
  · rename_i hpause
    refine ⟨fun hmarks => absurd hmarks (quiet_saveBoth fun h => by cases h).not_marks, ?_⟩
    rintro ⟨-, hgo, -⟩
    rw [hpause] at hgo
    cases hgo
  rename_i hpause
  have hcurrent : currentOf (recovered F.toQueueDigest d.files d.scheduler c.now)
      (countedWorker d.worker n) c.now = d.worker.currentLease.filter fun l =>
        recordsLease (recovered F.toQueueDigest d.files d.scheduler c.now) l ||
          !reached c.now l.expiresAt := rfl
  rw [hcurrent]
  cases hlease : d.worker.currentLease with
  | none =>
    refine ⟨fun hmarks => absurd hmarks quiet_lease.not_marks, ?_⟩
    rintro ⟨-, -, l, hl, -⟩
    cases hl
  | some l =>
    rw [Option.filter_some]
    by_cases hkept : (recordsLease (recovered F.toQueueDigest d.files d.scheduler c.now) l ||
        !reached c.now l.expiresAt) = true
    · rw [if_pos hkept]
      dsimp only
      have hcounted : OwnLease F (countedWorker d.worker n) := hown.congr rfl rfl
      rw [marks_resume, mismatch_iff hF hrecovered hcounted hlease]
      rw [Bool.or_eq_true, recordsLease_iff, Bool.not_eq_true'] at hkept
      constructor
      · intro hnot
        exact ⟨Bool.eq_false_of_not_eq_true hstop, Bool.eq_false_of_not_eq_true hpause, l, rfl,
          hkept.resolve_left hnot, hnot⟩
      · rintro ⟨-, -, l', hl', -, hnot⟩
        cases hl'
        exact hnot
    · rw [if_neg hkept]
      refine ⟨fun hmarks => absurd hmarks quiet_lease.not_marks, ?_⟩
      rintro ⟨-, -, l', hl', hunreached, -⟩
      cases hl'
      rw [hunreached, Bool.not_false, Bool.or_true] at hkept
      exact absurd rfl hkept

end SessionScheduler
end ZeroRuntime
