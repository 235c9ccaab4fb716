import ZeroRuntime.MissionScheduler.Valid

/-!
# ZeroRuntime.MissionScheduler.Leases

What the parts of the mission scheduler do to the leases of entries.

* `Tidy`: entries are under their own ids, and those that wait for a lease have none.
* `Keeps s s'`: every lease in `s'` is one that its entry has in `s`.
* `Grants s s' id lease`: the same but for one entry, which is given a lease.
* `startIteration_leases`, `finishIteration_keeps`: the two parts of an iteration.
-/

namespace ZeroRuntime
namespace MissionScheduler

open Lib Sessions

variable {F : SchedulerDigest} {s s₁ s' : SchedulerState} {now : Instant}

/-- An entry that waits for a lease has none. -/
def Free (e : Entry) : Prop :=
  e.entryStatus = .queued ∨ e.entryStatus = .waiting → e.lease = none

structure Tidy (s : SchedulerState) : Prop where
  keyed : ∀ id e, s.entries.get? id = some e → e.entryId = id
  free : ∀ id e, s.entries.get? id = some e → Free e

structure Keeps (s s' : SchedulerState) : Prop where
  scheduler : s'.schedulerId = s.schedulerId
  tidy : Tidy s'
  lease : ∀ id e', s'.entries.get? id = some e' →
    e'.lease = none ∨ ∃ e, s.entries.get? id = some e ∧ e'.lease = e.lease

theorem Tidy.keeps (h : Tidy s) : Keeps s s :=
  ⟨rfl, h, fun _ e he => .inr ⟨e, he, rfl⟩⟩

theorem Keeps.trans (h : Keeps s s₁) (h' : Keeps s₁ s') : Keeps s s' where
  scheduler := h'.scheduler.trans h.scheduler
  tidy := h'.tidy
  lease id e' he' := by
    rcases h'.lease id e' he' with hnone | ⟨e₁, he₁, hsame⟩
    · exact .inl hnone
    · rcases h.lease id e₁ he₁ with hnone | ⟨e, he, hsame₁⟩
      · exact .inl (hsame.trans hnone)
      · exact .inr ⟨e, he, hsame.trans hsame₁⟩

theorem Keeps.congr (h : Keeps s s₁) (hscheduler : s'.schedulerId = s₁.schedulerId)
    (hentries : s'.entries = s₁.entries) : Keeps s s' where
  scheduler := hscheduler.trans h.scheduler
  tidy := by
    refine ⟨?_, ?_⟩
    · rw [hentries]
      exact h.tidy.keyed
    · rw [hentries]
      exact h.tidy.free
  lease := by
    rw [hentries]
    exact h.lease

/-! ## Changes of one entry -/

/-- A change that leaves an entry with its lease or with none. -/
structure Mild (g : Entry → Entry) : Prop where
  keyed : ∀ e, (g e).entryId = e.entryId
  free : ∀ e, Free e → Free (g e)
  lease : ∀ e, (g e).lease = none ∨ (g e).lease = e.lease

theorem mild_requeued (now : Instant) : Mild (requeued now) :=
  ⟨fun _ => rfl, fun _ _ _ => rfl, fun _ => .inl rfl⟩

theorem mild_released (next : EntryStatus) (now : Instant) : Mild (released next now) :=
  ⟨fun _ => rfl, fun _ _ _ => rfl, fun _ => .inl rfl⟩

theorem mild_ended (result : Entries) : Mild (endedEntry result) :=
  ⟨fun _ => rfl, fun _ h => h, fun _ => .inr rfl⟩

theorem mild_failed (error : Raised) : Mild (failedEntry error) :=
  ⟨fun _ => rfl, fun _ h => h, fun _ => .inr rfl⟩

variable {id : String}

theorem Keeps.set {e : Entry} {g : Entry → Entry} (h : Keeps s s₁)
    (he : s₁.entries.get? id = some e) (hg : Mild g) :
    Keeps s { s₁ with entries := s₁.entries.set id (sealEntry F (g e)) } := by
  refine ⟨h.scheduler, ⟨?_, ?_⟩, ?_⟩
  · intro id' e' he'
    rw [Dict.get?_set] at he'
    split at he'
    · rename_i hid
      cases he'
      rw [hid]
      exact (hg.keyed e).trans (h.tidy.keyed id e he)
    · exact h.tidy.keyed id' e' he'
  · intro id' e' he'
    rw [Dict.get?_set] at he'
    split at he'
    · cases he'
      exact hg.free e (h.tidy.free id e he)
    · exact h.tidy.free id' e' he'
  · intro id' e' he'
    rw [Dict.get?_set] at he'
    split at he'
    · rename_i hid
      cases he'
      rw [hid]
      rcases hg.lease e with hnone | hsame
      · exact .inl hnone
      · rcases h.lease id e he with hnone | ⟨e₀, he₀, hsame₀⟩
        · exact .inl (hsame.trans hnone)
        · exact .inr ⟨e₀, he₀, hsame.trans hsame₀⟩
    · exact h.lease id' e' he'

theorem Keeps.modify {id : String} {g : Entry → Entry} (h : Keeps s s₁) (hg : Mild g) :
    Keeps s { s₁ with entries := s₁.entries.modify id fun e => sealEntry F (g e) } := by
  unfold Dict.modify
  cases he : s₁.entries.get? id with
  | none => exact h
  | some e => exact h.set he hg

/-! ## Operations -/

theorem keeps_recoverLoop (ids : List String) {acc : Dict String Entry × ℤ}
    (h : Keeps s { s₁ with entries := acc.1 }) :
    Keeps s { s₁ with entries := (ids.foldl (recoverEntry F now) acc).1 } := by
  induction ids generalizing acc with
  | nil => exact h
  | cons id ids ih =>
    refine ih ?_
    unfold recoverEntry
    cases he : acc.1.get? id with
    | none => exact h
    | some e =>
      dsimp only
      split
      · exact h.set he (mild_requeued now)
      · exact h

theorem keeps_recover (h : Tidy s) :
    Keeps s (recoverExpiredLeases F s now).1 := by
  have hloop := @keeps_recoverLoop F s s now s.entryOrder (s.entries, 0) h.keeps
  exact hloop.congr rfl rfl

/-- A lease that has not run out is not touched by a recovery. -/
theorem recover_unexpired {id : String} {e : Entry}
    (he : s.entries.get? id = some e) (hdue : overdue now e = false) :
    (recoverExpiredLeases F s now).1.entries.get? id = some e := by
  have hloop : ∀ (ids : List String) (acc : Dict String Entry × ℤ), acc.1.get? id = some e →
      (ids.foldl (recoverEntry F now) acc).1.get? id = some e := by
    intro ids
    induction ids with
    | nil => exact fun _ h => h
    | cons id₁ ids ih =>
      intro acc h
      refine ih _ ?_
      unfold recoverEntry
      cases he₁ : acc.1.get? id₁ with
      | none => exact h
      | some e₁ =>
        dsimp only
        split
        · rename_i hdue₁
          refine (Dict.get?_set _ _ _ _).trans ?_
          rw [if_neg ?_]
          · exact h
          · rintro rfl
            rw [h] at he₁
            cases he₁
            rw [hdue] at hdue₁
            cases hdue₁
        · exact h
  exact hloop s.entryOrder (s.entries, 0) he

theorem keeps_request {action : Action} (h : Tidy s) :
    Keeps s (requestAction F s action now) := by
  cases action <;> exact h.keeps.congr rfl rfl

theorem keeps_enqueue {path : String} {mission : Except Raised MissionFile} {priority : ℤ}
    (h : Tidy s) (hs : enqueueMission F s path mission priority now = .ok s') :
    Keeps s s' := by
  unfold enqueueMission at hs
  split at hs
  · cases hs
  obtain ⟨s₁, hload, hs⟩ := bind_eq_ok.mp hs
  obtain ⟨mission, -, hs⟩ := bind_eq_ok.mp hs
  unfold loadState at hload
  split at hload
  case isFalse => cases hload
  cases hload
  dsimp only at hs
  split at hs
  · cases hs
  split at hs
  · split at hs
    · cases hs
    · cases hs
      exact h.keeps
  · cases hs
    refine ⟨rfl, ⟨?_, ?_⟩, ?_⟩
    · intro id e he
      have he' := (Dict.get?_set _ _ _ _).symm.trans he
      split at he'
      · rename_i hid
        cases he'
        exact hid.symm
      · exact h.keyed id e he'
    · intro id e he
      have he' := (Dict.get?_set _ _ _ _).symm.trans he
      split at he'
      · cases he'
        exact fun _ => rfl
      · exact h.free id e he'
    · intro id e he
      have he' := (Dict.get?_set _ _ _ _).symm.trans he
      split at he'
      · cases he'
        exact .inl rfl
      · exact .inr ⟨e, he', rfl⟩

theorem keeps_release {entryId leaseId owner : String} {next : EntryStatus}
    (h : Keeps s s₁) (hs : releaseMissionLease F s₁ entryId leaseId owner next now = .ok s') :
    Keeps s s' := by
  unfold releaseMissionLease at hs
  split at hs
  · cases hs
  rename_i e he
  split at hs
  · cases hs
  cases hs
  exact (h.set he (mild_released next now)).congr rfl rfl

/-! ## The end of an iteration -/

theorem keeps_saving {α : Type} {file : SchedulerState} {next : SchedulerState → Outcome α}
    (hfile : Keeps s file) (h : Keeps s s₁) (hnext : ∀ s₂, Keeps s s₂ → Keeps s (next s₂).1) :
    Keeps s (saving F file s₁ next).1 := by
  unfold saving saveState loadState
  by_cases hvalid : validateState F (sealState F s₁) = []
  · rw [if_pos hvalid]
    exact hnext _ (h.congr rfl rfl)
  · rw [if_neg hvalid]
    exact hfile

theorem keeps_announce {published : Published} (h : Keeps s s₁) :
    Keeps s (announce F s₁ published).1 := by
  unfold announce
  cases published with
  | error e => exact h
  | ok event =>
    cases event with
    | none => exact keeps_saving h h fun _ h => h
    | some eventId => exact keeps_saving h (h.congr rfl rfl) fun _ h => h

variable {d : Dispatch}

theorem keeps_storeResult {result : Entries} (h : Keeps s s₁)
    (hs : storeResult F s₁ d result now = .ok s') : Keeps s s' := by
  unfold storeResult at hs
  obtain ⟨s₂, hload, hrest⟩ := bind_eq_ok.mp hs
  obtain ⟨s₃, hrelease, hsave⟩ := bind_eq_ok.mp hrest
  unfold loadState at hload
  split at hload
  case isFalse => cases hload
  cases hload
  have hreleased : Keeps s s₃ := keeps_release (h.modify (mild_ended result)) hrelease
  unfold saveState loadState at hsave
  split at hsave
  case isFalse => cases hsave
  cases hsave
  unfold bookResult
  cases nextStatus result <;> exact hreleased.congr rfl rfl

variable {published : Published}

theorem keeps_finishFailed {error : Raised} (h : Keeps s s₁) :
    Keeps s (finishFailed F s₁ d error now published).1 := by
  have hnoted : Keeps s (noteFailure F s₁ d error now) := by
    have hnoting : Keeps s (noting F s₁ d.entryId (failedEntry error)) :=
      h.modify (mild_failed error)
    unfold noteFailure
    dsimp only
    split
    · rename_i hrelease
      exact keeps_release hnoting hrelease
    · exact hnoting
  unfold finishFailed
  split
  · exact h
  · rename_i hload
    unfold loadState at hload
    split at hload
    case isFalse => cases hload
    cases hload
    exact keeps_saving h (hnoted.congr rfl rfl) fun _ => keeps_announce

theorem keeps_finish {driver : Except Raised Entries} {ended failed : Published} (h : Tidy s) :
    Keeps s (finishIteration F s d driver ended failed now).1 := by
  unfold finishIteration
  cases driver with
  | error e => exact keeps_finishFailed h.keeps
  | ok result =>
    dsimp only
    cases hstore : storeResult F s d result now with
    | error e => exact keeps_finishFailed h.keeps
    | ok s₂ =>
      have hstored := keeps_storeResult h.keeps hstore
      have hannounced := @keeps_announce F s s₂ ended hstored
      dsimp only
      cases hanswer : announce F s₂ ended with
      | mk file answer =>
        rw [hanswer] at hannounced
        cases answer with
        | error e => exact keeps_finishFailed hannounced
        | ok s₃ => exact hannounced

/-! ## The start of an iteration -/

/-- One entry is given a lease; every other lease in `s'` is one that its entry has in `s`. -/
structure Grants (s s' : SchedulerState) (id : String) (lease : MissionLease) : Prop where
  scheduler : s'.schedulerId = s.schedulerId
  tidy : Tidy s'
  entry : ∃ e, s'.entries.get? id = some e ∧ e.lease = some lease
  other : ∀ id' e', id' ≠ id → s'.entries.get? id' = some e' →
    e'.lease = none ∨ ∃ e, s.entries.get? id' = some e ∧ e'.lease = e.lease

variable {lease : MissionLease}

theorem Grants.congr (h : Grants s s₁ id lease) (hscheduler : s'.schedulerId = s₁.schedulerId)
    (hentries : s'.entries = s₁.entries) : Grants s s' id lease where
  scheduler := hscheduler.trans h.scheduler
  tidy := by
    refine ⟨?_, ?_⟩
    · rw [hentries]
      exact h.tidy.keyed
    · rw [hentries]
      exact h.tidy.free
  entry := by
    rw [hentries]
    exact h.entry
  other := by
    rw [hentries]
    exact h.other

/-- An entry is replaced by one that holds the lease. -/
theorem Keeps.grants {e' : Entry} (h : Keeps s s₁) (hscheduler : s'.schedulerId = s₁.schedulerId)
    (hget : ∀ id', s'.entries.get? id' = if id' = id then some e' else s₁.entries.get? id')
    (hid : e'.entryId = id) (hlease : e'.lease = some lease) (hheld : e'.entryStatus.held = true) :
    Grants s s' id lease where
  scheduler := hscheduler.trans h.scheduler
  tidy := by
    refine ⟨fun id' e he => ?_, fun id' e he => ?_⟩
    · rw [hget] at he
      split at he
      · rename_i hsame
        cases he
        exact hid.trans hsame.symm
      · exact h.tidy.keyed id' e he
    · rw [hget] at he
      split at he
      · cases he
        intro hstatus
        rcases hstatus with hqueued | hwaiting
        · rw [hqueued] at hheld
          cases hheld
        · rw [hwaiting] at hheld
          cases hheld
      · exact h.tidy.free id' e he
  entry := ⟨e', (hget id).trans (if_pos rfl), hlease⟩
  other id' e hne he := by
    rw [hget, if_neg hne] at he
    exact h.lease id' e he

/-- The lease that `lease_next_mission` hands out, and the entry it is on. -/
def leasing (F : SchedulerDigest) (s : SchedulerState) (owner : String) (leaseSeconds : ℤ)
    (now : Instant) : Option (String × MissionLease) :=
  match leaseNextMission F s owner leaseSeconds now with
  | .ok (s, some lease) => some (s.currentEntryId.getD "", lease)
  | _ => none

/-- The lease that the start of an iteration hands out. -/
def starting (F : SchedulerDigest) (s : SchedulerState) (owner : String) (leaseSeconds : ℤ)
    (now : Instant) : Option (String × MissionLease) :=
  if validateState F s = [] ∧ s.stopRequested = false ∧ s.pauseRequested = false then
    leasing F (beginIteration F s now) owner leaseSeconds now
  else none

variable {owner : String} {leaseSeconds : ℤ}

variable (F) in
/-- The lease is new: its entry had none, or one that has run out. -/
structure Fresh (s : SchedulerState) (owner : String) (now : Instant) (id : String)
    (lease : MissionLease) : Prop where
  identified : lease.leaseId = .str (leaseIdOf F
    { schedulerId := s.schedulerId, entryId := id, owner := Text.strip owner
      acquiredAt := timeText now })
  expired : ∀ e old, s.entries.get? id = some e → e.lease = some old →
    isExpired (some old) now = true

theorem leasing_ok (h : Tidy s) :
    (leasing F s owner leaseSeconds now = none ∧
        ∀ s' lease, leaseNextMission F s owner leaseSeconds now = .ok (s', lease) →
          lease = none ∧ Keeps s s') ∨
      ∃ e lease, Keeps s (recoverExpiredLeases F s now).1 ∧
        (recoverExpiredLeases F s now).1.entries.get? e.entryId = some e ∧
        leasing F s owner leaseSeconds now = some (e.entryId, lease) ∧
        lease = newLease F (recoverExpiredLeases F s now).1 e (Text.strip owner)
          leaseSeconds.toNat now ∧
        leaseNextMission F s owner leaseSeconds now =
          .ok (grant F (recoverExpiredLeases F s now).1 e lease, some lease) ∧
        Fresh F s owner now e.entryId lease := by
  have hrecovered : Keeps s (recoverExpiredLeases F s now).1 := keeps_recover h
  unfold leasing
  cases hlease : leaseNextMission F s owner leaseSeconds now with
  | error e =>
    refine .inl ⟨rfl, ?_⟩
    rintro s' lease hs
    cases hs
  | ok answer =>
    obtain ⟨s₁, lease⟩ := answer
    obtain ⟨-, -, hcase⟩ := leaseNext_ok hlease
    rcases hcase with ⟨rfl, rfl, -⟩ | ⟨e, hnext, rfl, rfl⟩
    · refine .inl ⟨rfl, ?_⟩
      rintro s' lease hs
      cases hs
      exact ⟨rfl, hrecovered⟩
    · obtain ⟨he, hstatus⟩ := nextCandidate_get? hrecovered.tidy.keyed hnext
      refine .inr ⟨e, _, hrecovered, he, rfl, rfl, rfl, rfl, fun e₀ old he₀ hold => ?_⟩
      by_contra hexpired
      have hdue : overdue now e₀ = false := by
        unfold overdue
        rw [hold, Bool.eq_false_iff.mpr hexpired, Bool.and_false]
      have hkept := @recover_unexpired F s now e.entryId e₀ he₀ hdue
      rw [he] at hkept
      cases hkept
      have hnone := hrecovered.tidy.free _ _ he hstatus
      rw [hold] at hnone
      cases hnone

theorem grants_grant {e : Entry} (h : Keeps s s₁) : Grants s (grant F s₁ e lease) e.entryId lease :=
  h.grants rfl grant_get? rfl rfl rfl

theorem grants_dispatch {e : Entry} {lease : MissionLease} (h : Keeps s s₁) :
    Grants s (markRunning F (grant F s₁ e lease) e.entryId now) e.entryId lease :=
  h.grants rfl dispatch_get? rfl rfl rfl

theorem keeps_begin (h : Tidy s) : Keeps s (beginIteration F s now) :=
  (keeps_recover h).congr rfl rfl

theorem Fresh.of_begin (h : Fresh F (beginIteration F s now) owner now id lease) :
    Fresh F s owner now id lease where
  identified := h.identified
  expired e old he hold := by
    by_contra hexpired
    have hdue : overdue now e = false := by
      unfold overdue
      rw [hold, Bool.eq_false_iff.mpr hexpired, Bool.and_false]
    exact hexpired (h.expired e old (recover_unexpired he hdue) hold)

/-- Where nothing is leased, the iteration only saves and publishes. -/
theorem keeps_quiet (hfile : Keeps s s) (h : Keeps s s₁) :
    Keeps s (endQuietly F s s₁ published).1 ∧
      ∀ d, (endQuietly F s s₁ published).2 ≠ .ok (some d) := by
  unfold endQuietly
  refine ⟨keeps_saving hfile h fun s₂ h₂ => keeps_announce h₂, ?_⟩
  intro d hd
  unfold saving at hd
  cases hsave : saveState F s₁ with
  | error e => rw [hsave] at hd; cases hd
  | ok s₂ =>
    rw [hsave] at hd
    dsimp only at hd
    cases hanswer : (announce F s₂ published).2 with
    | error e => rw [hanswer] at hd; cases hd
    | ok s₃ => rw [hanswer] at hd; cases hd

/-- The start of an iteration leaves all leases alone, or hands out one that is fresh. -/
theorem startIteration_leases {started : Published} (h : Tidy s) :
    (starting F s owner leaseSeconds now = none ∧
        Keeps s (startIteration F s owner leaseSeconds now started).1 ∧
        ∀ d, (startIteration F s owner leaseSeconds now started).2 ≠ .ok (some d)) ∨
      ∃ id lease, starting F s owner leaseSeconds now = some (id, lease) ∧
        Grants s (startIteration F s owner leaseSeconds now started).1 id lease ∧
        Fresh F s owner now id lease ∧
        ∀ d, (startIteration F s owner leaseSeconds now started).2 = .ok (some d) →
          d.entryId = id ∧ lease.leaseId = .str d.leaseId := by
  unfold startIteration starting loadState
  by_cases hvalid : validateState F s = []
  case neg =>
    rw [if_neg hvalid, if_neg fun hall => hvalid hall.1]
    exact .inl ⟨rfl, h.keeps, fun d hd => by cases hd⟩
  obtain ⟨-, hwhole⟩ := validateState_eq_nil.mp hvalid
  have hbegin : Whole F (beginIteration F s now) := (whole_recover hwhole).congr rfl rfl rfl rfl
  have hkeeps : Keeps s (beginIteration F s now) := keeps_begin h
  have hstop : (beginIteration F s now).stopRequested = s.stopRequested := rfl
  have hpause : (beginIteration F s now).pauseRequested = s.pauseRequested := rfl
  rw [if_pos hvalid]
  dsimp only
  rw [hstop, hpause]
  cases hstop' : s.stopRequested with
  | true =>
    rw [if_neg fun hall => by cases hall.2.1]
    exact .inl ⟨rfl, keeps_quiet h.keeps (hkeeps.congr rfl rfl)⟩
  | false =>
    rw [if_neg Bool.false_ne_true]
    cases hpause' : s.pauseRequested with
    | true =>
      rw [if_neg fun hall => by cases hall.2.2]
      exact .inl ⟨rfl, keeps_quiet h.keeps (hkeeps.congr rfl rfl)⟩
    | false =>
      rw [if_neg Bool.false_ne_true, if_pos ⟨hvalid, rfl, rfl⟩]
      rcases @leasing_ok F (beginIteration F s now) now owner leaseSeconds hkeeps.tidy with
        ⟨hnone, hleases⟩ | ⟨e, lease, hrecovered, he, hleasing, hlease, hgrant, hfresh⟩
      · refine .inl ⟨hnone, ?_⟩
        cases hnext : leaseNextMission F (beginIteration F s now) owner leaseSeconds now with
        | error e => exact ⟨h.keeps, fun d hd => by cases hd⟩
        | ok answer =>
          obtain ⟨s', lease⟩ := answer
          obtain ⟨rfl, hs'⟩ := hleases s' lease hnext
          exact keeps_quiet h.keeps ((hkeeps.trans hs').congr rfl rfl)
      · refine .inr ⟨e.entryId, lease, hleasing, ?_⟩
        obtain ⟨howner, -, -⟩ := leaseNext_ok hgrant
        have hmarked := @whole_dispatch F _ owner leaseSeconds now e (whole_recover hbegin) he howner
        rw [← hlease] at hmarked
        rw [hgrant]
        dsimp only
        have hgrants := @grants_dispatch F s _ now e lease (hkeeps.trans hrecovered)
        have hcurrent : (grant F (recoverExpiredLeases F (beginIteration F s now) now).1 e
            lease).currentEntryId.getD "" = e.entryId := rfl
        rw [hcurrent, saving_ok hmarked]
        have htext : lease.leaseId = .str lease.leaseId.toText := by
          rw [hlease]
          rfl
        cases started with
        | error e' => exact ⟨hgrants.congr rfl rfl, hfresh.of_begin, fun d hd => by cases hd⟩
        | ok event =>
          cases event with
          | none =>
            refine ⟨hgrants.congr rfl rfl, hfresh.of_begin, fun d hd => ?_⟩
            cases hd
            exact ⟨rfl, htext⟩
          | some eventId =>
            have hsaved : Whole F { sealState F (markRunning F (grant F (recoverExpiredLeases F
                (beginIteration F s now) now).1 e lease) e.entryId now) with
                lastEventId := some eventId } := hmarked.congr rfl rfl rfl rfl
            dsimp only
            rw [saving_ok hsaved]
            refine ⟨hgrants.congr rfl rfl, hfresh.of_begin, fun d hd => ?_⟩
            cases hd
            exact ⟨rfl, htext⟩

end MissionScheduler
end ZeroRuntime
