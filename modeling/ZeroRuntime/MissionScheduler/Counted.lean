import ZeroRuntime.MissionScheduler.Valid

/-!
# ZeroRuntime.MissionScheduler.Counted

What one iteration adds to the counters of the mission scheduler.

* `Accounted`: leases that were recovered are counted once each, and at most one counter of missions
  goes up, by one, namely that of the status the dispatched entry was stored with.
* `Careful` is the condition: no lease has run out, and where a mission is dispatched, its driver
  returns and the event about its end is published.
* `started_ok`, `stored_ok`, `failed_ok` say what the parts of an iteration write.
* `accounted_iff_careful`: an iteration on a valid state is accounted for exactly then.
-/

namespace ZeroRuntime
namespace MissionScheduler

open Lib Sessions

/-! ## Counters -/

/-- The counters of missions by how they ended. -/
structure Counters where
  completed : ℤ
  waiting : ℤ
  blocked : ℤ
  failed : ℤ
deriving DecidableEq, Repr

def SchedulerState.counters (s : SchedulerState) : Counters where
  completed := s.completedMissions
  waiting := s.waitingMissions
  blocked := s.blockedMissions
  failed := s.failedMissions

/-- The counter of a status goes up by one, if it has one. -/
def Counters.bump (c : Counters) : EntryStatus → Counters
  | .completed => { c with completed := c.completed + 1 }
  | .waiting => { c with waiting := c.waiting + 1 }
  | .blocked => { c with blocked := c.blocked + 1 }
  | .failed => { c with failed := c.failed + 1 }
  | _ => c

/-- How many leases that had run out the second state no longer holds. -/
def turnedBack (s s' : SchedulerState) (now : Instant) : ℕ :=
  s.entries.entries.countP fun p =>
    overdue now p.2 && !(s'.entries.get? p.1).any (overdue now)

/-- Between the two states the entry was dispatched: one more attempt was made. -/
def Dispatched (s s' : SchedulerState) (id : String) (e : Entry) : Prop :=
  s'.entries.get? id = some e ∧
    ∃ e₀, s.entries.get? id = some e₀ ∧ e.attemptCount = e₀.attemptCount + 1

/-- The last result says that the mission of the entry was not dispatched. -/
def ReportsFailure (s : SchedulerState) (id : String) : Prop :=
  Val.getIn "dispatched" s.lastResult.entries = .bool false ∧
    Val.getIn "entry_id" s.lastResult.entries = .str id

/-- What an iteration from `s` to `s'` owes. -/
structure Accounted (s s' : SchedulerState) (now : Instant) : Prop where
  recovered : s'.recoveredLeases = s.recoveredLeases + turnedBack s s' now
  counted : s'.counters = s.counters ∨
    ∃ id e, Dispatched s s' id e ∧ s'.counters = s.counters.bump e.entryStatus
  completed : ∀ id e, Dispatched s s' id e → e.entryStatus = .completed →
    s'.counters.failed = s.counters.failed ∧ ¬ReportsFailure s' id

variable {F : SchedulerDigest} {s s' : SchedulerState}

/-! ## Leases that have run out -/

theorem requeued_overdue (now : Instant) (e : Entry) :
    overdue now (sealEntry F (requeued now e)) = false := rfl

/-- Every turn of the loop that counts takes one overdue entry away. -/
theorem recoverEntry_count {now : Instant} (acc : Dict String Entry × ℤ) (id : String) :
    (recoverEntry F now acc id).2 + (recoverEntry F now acc id).1.count (overdue now) =
      acc.2 + acc.1.count (overdue now) := by
  unfold recoverEntry
  cases he : acc.1.get? id with
  | none => rfl
  | some e =>
    dsimp only
    split
    · rename_i hdue
      have hcount := Dict.count_set acc.1 id (sealEntry F (requeued now e)) (overdue now)
      rw [he, Option.any_some, hdue, requeued_overdue] at hcount
      simp only [Bool.toNat_true, Bool.toNat_false] at hcount
      dsimp only
      omega
    · rfl

variable {id : String}

variable {acc : Dict String Entry × ℤ}

/-- What a turn of the loop leaves of an entry. -/
theorem recoverEntry_get? {now : Instant} {id' : String} {e' : Entry}
    (he : (recoverEntry F now acc id).1.get? id' = some e') :
    (overdue now e' = false ∧ id' = id) ∨ (id' ≠ id ∧ acc.1.get? id' = some e') := by
  unfold recoverEntry at he
  cases hget : acc.1.get? id with
  | none =>
    rw [hget] at he
    refine .inr ⟨?_, he⟩
    rintro rfl
    rw [hget] at he
    cases he
  | some e =>
    rw [hget] at he
    dsimp only at he
    split at he
    · rw [Dict.get?_set] at he
      split at he
      · rename_i hid
        cases he
        exact .inl ⟨requeued_overdue now e, hid⟩
      · rename_i hid
        exact .inr ⟨hid, he⟩
    · rename_i hdue
      by_cases hid : id' = id
      · rw [hid, hget] at he
        cases he
        exact .inl ⟨Bool.eq_false_iff.mpr hdue, hid⟩
      · exact .inr ⟨hid, he⟩

theorem recoverLoop_count {now : Instant} (ids : List String) (acc : Dict String Entry × ℤ) :
    (ids.foldl (recoverEntry F now) acc).2 +
        (ids.foldl (recoverEntry F now) acc).1.count (overdue now) =
      acc.2 + acc.1.count (overdue now) := by
  induction ids generalizing acc with
  | nil => rfl
  | cons id ids ih => exact (ih _).trans (recoverEntry_count acc id)

theorem recoverLoop_get? {now : Instant} (ids : List String) {e : Entry}
    (he : (ids.foldl (recoverEntry F now) acc).1.get? id = some e) :
    overdue now e = false ∨ (id ∉ ids ∧ acc.1.get? id = some e) := by
  induction ids generalizing acc with
  | nil => exact .inr ⟨List.not_mem_nil, he⟩
  | cons id₁ ids ih =>
    rcases ih he with hdue | ⟨hmem, hbefore⟩
    · exact .inl hdue
    · rcases recoverEntry_get? hbefore with ⟨hdue, -⟩ | ⟨hne, hfirst⟩
      · exact .inl hdue
      · exact .inr ⟨fun hm => (List.mem_cons.mp hm).elim hne hmem, hfirst⟩

/-- How many attempts were made at an entry. -/
def attempts (entries : Dict String Entry) (id : String) : Option ℤ :=
  (entries.get? id).map Entry.attemptCount

theorem attempts_set {d : Dict String Entry} {id : String} {e e' : Entry} (he : d.get? id = some e)
    (hattempts : e'.attemptCount = e.attemptCount) (id' : String) :
    attempts (d.set id e') id' = attempts d id' := by
  unfold attempts
  rw [Dict.get?_set]
  split
  · rename_i hid
    rw [hid, he, Option.map_some, Option.map_some, hattempts]
  · rfl

theorem recoverLoop_attempts {now : Instant} (ids : List String) (acc : Dict String Entry × ℤ)
    (id' : String) :
    attempts (ids.foldl (recoverEntry F now) acc).1 id' = attempts acc.1 id' := by
  induction ids generalizing acc with
  | nil => rfl
  | cons id ids ih =>
    refine (ih _).trans ?_
    unfold recoverEntry
    cases he : acc.1.get? id with
    | none => rfl
    | some e =>
      dsimp only
      split
      · exact @attempts_set acc.1 id e (sealEntry F (requeued now e)) he rfl id'
      · rfl

/-- The counters of missions and the attempts at every entry are the same. -/
structure SameBooks (s s' : SchedulerState) : Prop where
  counters : s'.counters = s.counters
  attempts : ∀ id, attempts s'.entries id = attempts s.entries id

variable {s₁ : SchedulerState}

theorem SameBooks.trans {s₂ s₃ : SchedulerState} (h : SameBooks s₁ s₂) (h' : SameBooks s₂ s₃) :
    SameBooks s₁ s₃ :=
  ⟨h'.counters.trans h.counters, fun id => (h'.attempts id).trans (h.attempts id)⟩

/-- Nothing is overdue once expired leases were recovered, and each of them was counted. -/
theorem recover_count {now : Instant} (h : Whole F s) :
    (recoverExpiredLeases F s now).2 = s.entries.count (overdue now) ∧
      (recoverExpiredLeases F s now).1.recoveredLeases =
        s.recoveredLeases + s.entries.count (overdue now) ∧
      (recoverExpiredLeases F s now).1.entries.count (overdue now) = 0 ∧
      SameBooks s (recoverExpiredLeases F s now).1 := by
  have hnone : (s.entryOrder.foldl (recoverEntry F now) (s.entries, 0)).1.count (overdue now) = 0 := by
    refine Dict.count_eq_zero.mpr fun id e he => ?_
    refine (recoverLoop_get? s.entryOrder he).resolve_right ?_
    rintro ⟨hmem, hget⟩
    exact hmem ((h.order id).mpr (Dict.contains_iff.mpr ⟨e, hget⟩))
  have hcount := @recoverLoop_count F now s.entryOrder (s.entries, 0)
  rw [hnone] at hcount
  dsimp only at hcount
  have hrecovered : (recoverExpiredLeases F s now).2 = s.entries.count (overdue now) := by
    unfold recoverExpiredLeases
    dsimp only
    omega
  refine ⟨hrecovered, ?_, hnone, rfl, recoverLoop_attempts s.entryOrder (s.entries, 0)⟩
  rw [← hrecovered]
  rfl

/-- The start of an iteration counts what it recovers twice. -/
theorem begin_count {now : Instant} (h : Whole F s) :
    (beginIteration F s now).recoveredLeases =
        s.recoveredLeases + 2 * s.entries.count (overdue now) ∧
      (beginIteration F s now).entries.count (overdue now) = 0 ∧
      SameBooks s (beginIteration F s now) ∧ Whole F (beginIteration F s now) := by
  obtain ⟨hrecovered, hleases, hnone, hbooks⟩ := @recover_count F s now h
  refine ⟨?_, hnone, ⟨hbooks.counters, hbooks.attempts⟩, ?_⟩
  · unfold beginIteration
    dsimp only
    rw [hleases, hrecovered]
    omega
  · exact (whole_recover h).congr rfl rfl rfl rfl

theorem recover_of_none {now : Instant} (h : s.entries.count (overdue now) = 0) :
    (recoverExpiredLeases F s now).1.entries = s.entries := by
  have hnone := Dict.count_eq_zero.mp h
  have hloop : ∀ ids : List String,
      ids.foldl (recoverEntry F now) (s.entries, (0 : ℤ)) = (s.entries, 0) := by
    intro ids
    induction ids with
    | nil => rfl
    | cons id ids ih =>
      have hfirst : recoverEntry F now (s.entries, 0) id = (s.entries, 0) := by
        unfold recoverEntry
        cases he : s.entries.get? id with
        | none => rfl
        | some e =>
          dsimp only
          rw [hnone id e he]
          rfl
      rw [List.foldl_cons, hfirst]
      exact ih
  unfold recoverExpiredLeases
  rw [hloop]
  rfl

/-! ## Saving and publishing -/

/-- The parts of the state that publishing does not touch. -/
structure SameRecord (s f : SchedulerState) : Prop where
  entries : f.entries = s.entries
  counters : f.counters = s.counters
  recovered : f.recoveredLeases = s.recoveredLeases
  result : f.lastResult = s.lastResult

/-- The file after a state was published, and whether that went through. -/
theorem announce_ok {published : Published} (hvalid : validateState F s = []) :
    SameRecord s (announce F s published).1 ∧ validateState F (announce F s published).1 = [] ∧
      ((∃ s', (announce F s published).2 = .ok s') ↔ ∃ event, published = .ok event) := by
  obtain ⟨-, h⟩ := validateState_eq_nil.mp hvalid
  unfold announce
  cases published with
  | error e =>
    refine ⟨⟨rfl, rfl, rfl, rfl⟩, hvalid, ?_⟩
    constructor
    · rintro ⟨s', hs'⟩
      cases hs'
    · rintro ⟨event, hevent⟩
      cases hevent
  | ok event =>
    cases event with
    | none =>
      dsimp only
      rw [saving_ok h]
      exact ⟨⟨rfl, rfl, rfl, rfl⟩, valid_seal.mpr h, fun _ => ⟨none, rfl⟩, fun _ => ⟨_, rfl⟩⟩
    | some eventId =>
      have h' : Whole F { s with lastEventId := some eventId } := h.congr rfl rfl rfl rfl
      dsimp only
      rw [saving_ok h']
      refine ⟨⟨rfl, rfl, rfl, rfl⟩, valid_seal.mpr h', ?_, ?_⟩
      · exact fun _ => ⟨some eventId, rfl⟩
      · exact fun _ => ⟨_, rfl⟩

/-! ## The start of an iteration -/

/-- The iteration gets as far as its first save. -/
def Proceeds (s : SchedulerState) (owner : String) (leaseSeconds : ℤ) : Prop :=
  s.stopRequested = true ∨ s.pauseRequested = true ∨ (Text.strip owner ≠ "" ∧ 1 ≤ leaseSeconds)

/-- A mission is dispatched, and its driver runs. -/
def Runs (s : SchedulerState) (owner : String) (leaseSeconds : ℤ) (started : Published) : Prop :=
  s.stopRequested = false ∧ s.pauseRequested = false ∧ Text.strip owner ≠ "" ∧ 1 ≤ leaseSeconds ∧
    (∃ id e, s.entries.get? id = some e ∧
      (e.entryStatus = .queued ∨ e.entryStatus = .waiting)) ∧
    ∃ event, started = .ok event

variable (F) in
/-- The file once the entry of a dispatch is running. -/
structure Ran (s s₁ : SchedulerState) (owner : String) (d : Dispatch) : Prop where
  valid : validateState F s₁ = []
  counters : s₁.counters = s.counters
  others : ∀ id, id ≠ d.entryId → attempts s₁.entries id = attempts s.entries id
  holder : d.owner = owner
  entry : ∃ e₀ e l, s.entries.get? d.entryId = some e₀ ∧ s₁.entries.get? d.entryId = some e ∧
    e.attemptCount = e₀.attemptCount + 1 ∧ e.entryStatus = .running ∧ e.lease = some l ∧
    l.leaseId = .str d.leaseId ∧ l.owner = .str (Text.strip owner)

variable (F) in
/-- How the start of an iteration ends. -/
inductive Started (s : SchedulerState) (owner : String) (leaseSeconds : ℤ) (now : Instant)
    (started : Published) : Outcome (Option Dispatch) → Prop
  | refused (e : Raised) (hproceeds : ¬Proceeds s owner leaseSeconds) :
    Started s owner leaseSeconds now started (s, .error e)
  | quiet {s₁ : SchedulerState} {answer : Except Raised (Option Dispatch)}
    (hproceeds : Proceeds s owner leaseSeconds)
    (hrecovered : s₁.recoveredLeases = s.recoveredLeases + 2 * s.entries.count (overdue now))
    (hbooks : SameBooks s s₁) (hanswer : ∀ d, answer ≠ .ok (some d))
    (hruns : s.entries.count (overdue now) = 0 → ¬Runs s owner leaseSeconds started) :
    Started s owner leaseSeconds now started (s₁, answer)
  | raised {s₁ : SchedulerState} {e : Raised} {d : Dispatch}
    (hproceeds : Proceeds s owner leaseSeconds)
    (hrecovered : s₁.recoveredLeases = s.recoveredLeases + 2 * s.entries.count (overdue now))
    (hran : Ran F s s₁ owner d) (hruns : ¬Runs s owner leaseSeconds started) :
    Started s owner leaseSeconds now started (s₁, .error e)
  | dispatched {s₁ : SchedulerState} {d : Dispatch} (hproceeds : Proceeds s owner leaseSeconds)
    (hrecovered : s₁.recoveredLeases = s.recoveredLeases + 2 * s.entries.count (overdue now))
    (hran : Ran F s s₁ owner d)
    (hruns : s.entries.count (overdue now) = 0 → Runs s owner leaseSeconds started) :
    Started s owner leaseSeconds now started (s₁, .ok (some d))

variable {owner : String} {leaseSeconds : ℤ} {now : Instant} {started : Published}

theorem started_quiet {b : SchedulerState} (hproceeds : Proceeds s owner leaseSeconds)
    (hrecovered : b.recoveredLeases = s.recoveredLeases + 2 * s.entries.count (overdue now))
    (hbooks : SameBooks s b) (h : Whole F b)
    (hruns : s.entries.count (overdue now) = 0 → ¬Runs s owner leaseSeconds started) :
    Started F s owner leaseSeconds now started (endQuietly F s b started) := by
  unfold endQuietly
  rw [saving_ok h]
  obtain ⟨hsame, -, -⟩ := @announce_ok F _ started (valid_seal.mpr h)
  refine .quiet hproceeds (hsame.recovered.trans hrecovered) (hbooks.trans ?_) ?_ hruns
  · refine ⟨hsame.counters, fun id => ?_⟩
    rw [hsame.entries]
    rfl
  · intro d hd
    cases hanswer : (announce F (sealState F b) started).2 with
    | error e => rw [hanswer] at hd; cases hd
    | ok s' => rw [hanswer] at hd; cases hd

/-- The dispatched entry, once it was leased and marked as running. -/
theorem ran_grant {r : SchedulerState} {e : Entry} {lease : MissionLease} (hbooks : SameBooks s r)
    (h : Whole F r) (he : r.entries.get? e.entryId = some e) (howner : Text.strip owner ≠ "")
    (hlease : lease = newLease F r e (Text.strip owner) leaseSeconds.toNat now) :
    Whole F (markRunning F (grant F r e lease) e.entryId now) ∧
      Ran F s (sealState F (markRunning F (grant F r e lease) e.entryId now)) owner
        { entryId := e.entryId, missionId := e.missionId, leaseId := lease.leaseId.toText
          owner } := by
  have hwhole : Whole F (markRunning F (grant F r e lease) e.entryId now) := by
    rw [hlease]
    exact whole_dispatch h he howner
  have hget := @dispatch_get? F r now e lease
  have hattempts := hbooks.attempts e.entryId
  unfold attempts at hattempts
  rw [he, Option.map_some] at hattempts
  obtain ⟨e₀, he₀, hbefore⟩ := Option.map_eq_some_iff.mp hattempts.symm
  refine ⟨hwhole, valid_seal.mpr hwhole, hbooks.counters, fun id hid => ?_, rfl, e₀,
    sealEntry F (startedEntry now (sealEntry F (leasedEntry lease e))), lease, he₀, ?_, ?_, rfl, rfl,
    ?_, ?_⟩
  · refine Eq.trans ?_ (hbooks.attempts id)
    unfold attempts
    refine congrArg _ ((hget id).trans (if_neg hid))
  · exact (hget e.entryId).trans (if_pos rfl)
  · rw [hbefore]
    rfl
  · rw [hlease]
    rfl
  · rw [hlease]
    rfl

/-- Once nothing is overdue, there is a candidate if and only if an entry waits for a lease. -/
theorem nextCandidate_none (h : s.entries.count (overdue now) = 0)
    (hnext : nextCandidate (recoverExpiredLeases F s now).1 = none) {e : Entry}
    (he : s.entries.get? id = some e) : ¬(e.entryStatus = .queued ∨ e.entryStatus = .waiting) := by
  intro hstatus
  have hempty := firstBest_eq_none.mp hnext
  have hmem : e ∈ (recoverExpiredLeases F s now).1.entries.values := by
    rw [recover_of_none h]
    exact Dict.mem_values.mpr ⟨id, he⟩
  have hcandidate : e ∈ (recoverExpiredLeases F s now).1.entries.values.filter
      fun e => e.entryStatus = .queued ∨ e.entryStatus = .waiting :=
    List.mem_filter.mpr ⟨hmem, decide_eq_true hstatus⟩
  rw [hempty] at hcandidate
  cases hcandidate

theorem startIteration_started (hvalid : validateState F s = []) :
    Started F s owner leaseSeconds now started
      (startIteration F s owner leaseSeconds now started) := by
  obtain ⟨-, hwhole⟩ := validateState_eq_nil.mp hvalid
  obtain ⟨hrecovered, hnone, hbooks, hbegin⟩ := @begin_count F s now hwhole
  unfold startIteration loadState
  rw [if_pos hvalid]
  dsimp only
  have hstop : (beginIteration F s now).stopRequested = s.stopRequested := rfl
  have hpause : (beginIteration F s now).pauseRequested = s.pauseRequested := rfl
  rw [hstop, hpause]
  split
  · rename_i hrequested
    refine started_quiet (.inl hrequested) hrecovered ?_ (hbegin.congr rfl rfl rfl rfl) ?_
    · exact ⟨hbooks.counters, hbooks.attempts⟩
    · rintro - ⟨hno, -⟩
      rw [hrequested] at hno
      cases hno
  rename_i hstop'
  split
  · rename_i hrequested
    refine started_quiet (.inr (.inl hrequested)) hrecovered ?_ (hbegin.congr rfl rfl rfl rfl) ?_
    · exact ⟨hbooks.counters, hbooks.attempts⟩
    · rintro - ⟨-, hno, -⟩
      rw [hrequested] at hno
      cases hno
  rename_i hpause'
  cases hlease : leaseNextMission F (beginIteration F s now) owner leaseSeconds now with
  | error e =>
    refine .refused e ?_
    rintro (hrequested | hrequested | ⟨howner, hseconds⟩)
    · exact hstop' hrequested
    · exact hpause' hrequested
    · unfold leaseNextMission at hlease
      dsimp only at hlease
      rw [if_neg howner, if_neg (by omega)] at hlease
      split at hlease <;> cases hlease
  | ok answer =>
    obtain ⟨s₁, lease⟩ := answer
    obtain ⟨howner, hseconds, hcase⟩ := leaseNext_ok hlease
    have hproceeds : Proceeds s owner leaseSeconds := .inr (.inr ⟨howner, hseconds⟩)
    obtain ⟨-, hagain, -, hbooks'⟩ := @recover_count F (beginIteration F s now) now hbegin
    rw [hnone] at hagain
    have hrecovered' : (recoverExpiredLeases F (beginIteration F s now) now).1.recoveredLeases =
        s.recoveredLeases + 2 * s.entries.count (overdue now) := by
      rw [hagain, hrecovered]
      omega
    have hsame : s.entries.count (overdue now) = 0 → (beginIteration F s now).entries = s.entries :=
      fun hzero => recover_of_none hzero
    have hwhole' : Whole F (recoverExpiredLeases F (beginIteration F s now) now).1 :=
      whole_recover hbegin
    rcases hcase with ⟨rfl, rfl, hnext⟩ | ⟨e, hnext, rfl, rfl⟩
    · refine started_quiet hproceeds hrecovered' ?_ (hwhole'.congr rfl rfl rfl rfl) ?_
      · have hboth := hbooks.trans hbooks'
        exact ⟨hboth.counters, hboth.attempts⟩
      · rintro hzero ⟨-, -, -, -, ⟨id, e, he, hstatus⟩, -⟩
        rw [← hsame hzero] at he
        exact nextCandidate_none hnone hnext he hstatus
    · obtain ⟨he, hstatus⟩ := nextCandidate_ok hwhole' hnext
      obtain ⟨hmarked, hran⟩ := @ran_grant F s owner leaseSeconds now _ e _
        (hbooks.trans hbooks') hwhole' he howner rfl
      generalize newLease F (recoverExpiredLeases F (beginIteration F s now) now).1 e
        (Text.strip owner) leaseSeconds.toNat now = lease at hmarked hran ⊢
      generalize hmark : grant F (recoverExpiredLeases F (beginIteration F s now) now).1 e lease = g
        at hmarked hran ⊢
      have hcurrent : g.currentEntryId.getD "" = e.entryId := by
        rw [← hmark]
        rfl
      have hmission : g.currentMissionId.getD "" = e.missionId := by
        rw [← hmark]
        rfl
      have hleases : g.recoveredLeases =
          s.recoveredLeases + 2 * s.entries.count (overdue now) := by
        rw [← hmark]
        exact hrecovered'
      dsimp only
      rw [hcurrent, hmission, saving_ok hmarked]
      have hwaits : s.entries.count (overdue now) = 0 → ∃ id e, s.entries.get? id = some e ∧
          (e.entryStatus = .queued ∨ e.entryStatus = .waiting) := by
        intro hzero
        rw [recover_of_none hnone, hsame hzero] at he
        exact ⟨e.entryId, e, he, hstatus⟩
      have hfree : s.stopRequested = false ∧ s.pauseRequested = false :=
        ⟨Bool.eq_false_iff.mpr hstop', Bool.eq_false_iff.mpr hpause'⟩
      cases started with
      | error e' =>
        refine .raised hproceeds hleases hran ?_
        rintro ⟨-, -, -, -, -, event, hevent⟩
        cases hevent
      | ok event =>
        have hruns : s.entries.count (overdue now) = 0 → Runs s owner leaseSeconds (.ok event) :=
          fun hzero => ⟨hfree.1, hfree.2, howner, hseconds, hwaits hzero, event, rfl⟩
        cases event with
        | none => exact .dispatched hproceeds hleases hran hruns
        | some eventId =>
          have hsaved : Whole F
              { sealState F (markRunning F g e.entryId now) with lastEventId := some eventId } :=
            hmarked.congr rfl rfl rfl rfl
          dsimp only
          rw [saving_ok hsaved]
          refine .dispatched hproceeds hleases ?_ hruns
          exact
            { valid := valid_seal.mpr hsaved
              counters := hran.counters
              others := hran.others
              holder := rfl
              entry := hran.entry }

/-! ## The end of an iteration -/

theorem held_nextStatus (result : Entries) : (nextStatus result).held = false := by
  have htext := held_ofText (finalStatus result)
  unfold nextStatus
  cases hstatus : EntryStatus.ofText (finalStatus result) with
  | none =>
    dsimp only
    split <;> rfl
  | some status =>
    rw [hstatus] at htext
    exact htext

theorem bookResult_ok (s : SchedulerState) (d : Dispatch) (result : Entries) (now : Instant) :
    (bookResult s d result now).counters = s.counters.bump (nextStatus result) ∧
      (bookResult s d result now).recoveredLeases = s.recoveredLeases ∧
      (bookResult s d result now).lastResult = dispatchedResult d result ∧
      (bookResult s d result now).entries = s.entries ∧
      (Whole F s → Whole F (bookResult s d result now)) := by
  unfold bookResult
  cases nextStatus result <;>
    exact ⟨rfl, rfl, rfl, rfl, fun h => h.congr rfl rfl rfl rfl⟩

variable {d : Dispatch} {e : Entry}

theorem releaseMissionLease_ok {next : EntryStatus} (he : s.entries.get? d.entryId = some e)
    (hlease : leaseError e.lease d.leaseId d.owner = none) :
    releaseMissionLease F s d.entryId d.leaseId d.owner next now =
      .ok (sealState F
        { s with
          entries := s.entries.set d.entryId (sealEntry F (released next now e))
          currentEntryId := none
          currentMissionId := none
          updatedAt := timeText now }) := by
  unfold releaseMissionLease
  rw [he]
  dsimp only
  rw [hlease]

theorem releaseMissionLease_refused {next : EntryStatus} {message : String}
    (he : s.entries.get? d.entryId = some e)
    (hlease : leaseError e.lease d.leaseId d.owner = some message) :
    releaseMissionLease F s d.entryId d.leaseId d.owner next now = .error (valueError message) := by
  unfold releaseMissionLease
  rw [he]
  dsimp only
  rw [hlease]

theorem endedEntry_sound (result : Entries) (h : EntrySound F id e) :
    EntrySound F id (sealEntry F (endedEntry result e)) :=
  entrySound_seal h rfl rfl rfl rfl rfl h.leased

theorem failedEntry_sound (error : Raised) (h : EntrySound F id e) :
    EntrySound F id (sealEntry F (failedEntry error e)) :=
  entrySound_seal h rfl rfl rfl rfl rfl h.leased

/-- An entry that is known is changed, and nothing else. -/
theorem noting_ok {g : Entry → Entry} (h : Whole F s) (he : s.entries.get? id = some e)
    (hsound : EntrySound F id (sealEntry F (g e))) :
    Whole F (noting F s id g) ∧ ∀ id', (noting F s id g).entries.get? id' =
      if id' = id then some (sealEntry F (g e)) else s.entries.get? id' := by
  have hentries := Dict.modify_of_get? (fun e => sealEntry F (g e)) he
  unfold noting
  rw [hentries]
  exact ⟨h.set he hsound, fun id' => Dict.get?_set _ _ _ _⟩

/-- A result is stored while the lease is still the entry's. -/
theorem storeResult_ok {result : Entries} (hvalid : validateState F s = [])
    (he : s.entries.get? d.entryId = some e)
    (hlease : leaseError e.lease d.leaseId d.owner = none) :
    ∃ s₂, storeResult F s d result now = .ok s₂ ∧ validateState F s₂ = [] ∧
      s₂.counters = s.counters.bump (nextStatus result) ∧
      s₂.recoveredLeases = s.recoveredLeases ∧ s₂.lastResult = dispatchedResult d result ∧
      ∀ id, s₂.entries.get? id = if id = d.entryId then
        some (sealEntry F (released (nextStatus result) now (sealEntry F (endedEntry result e))))
        else s.entries.get? id := by
  obtain ⟨-, hwhole⟩ := validateState_eq_nil.mp hvalid
  obtain ⟨hnoted, hget⟩ := noting_ok hwhole he
    (endedEntry_sound result (hwhole.entry _ e he))
  have he' : (noting F s d.entryId (endedEntry result)).entries.get? d.entryId =
      some (sealEntry F (endedEntry result e)) := by
    rw [hget, if_pos rfl]
  have hreleased := hnoted.set he' ((@released_sound F _ _ _ now (hnoted.entry _ _ he')).mpr
    (held_nextStatus result))
  have hrelease := @releaseMissionLease_ok F _ now d _ (nextStatus result) he' hlease
  unfold storeResult loadState
  rw [if_pos hvalid]
  change ∃ s₂, (releaseMissionLease F (noting F s d.entryId (endedEntry result)) d.entryId
    d.leaseId d.owner (nextStatus result) now >>= _) = .ok s₂ ∧ _
  rw [hrelease]
  generalize hfree : sealState F
    { noting F s d.entryId (endedEntry result) with
      entries := (noting F s d.entryId (endedEntry result)).entries.set d.entryId
        (sealEntry F (released (nextStatus result) now (sealEntry F (endedEntry result e))))
      currentEntryId := none
      currentMissionId := none
      updatedAt := timeText now } = free
  have hfree' : Whole F free := by
    rw [← hfree]
    exact hreleased.congr rfl rfl rfl rfl
  obtain ⟨hcounters, hrecovered, hresult, hentries, hbooked⟩ :=
    @bookResult_ok F free d result now
  refine ⟨sealState F (bookResult free d result now), saveState_ok (hbooked hfree'),
    valid_seal.mpr (hbooked hfree'), hcounters.trans ?_, hrecovered.trans ?_, hresult, fun id => ?_⟩
  · rw [← hfree]
    rfl
  · rw [← hfree]
    rfl
  · change (bookResult free d result now).entries.get? id = _
    rw [hentries, ← hfree]
    refine (Dict.get?_set _ _ _ _).trans ?_
    by_cases hid : id = d.entryId
    · rw [if_pos hid, if_pos hid]
    · rw [if_neg hid, if_neg hid, hget, if_neg hid]

theorem storeResult_refused {result : Entries} {message : String}
    (hvalid : validateState F s = []) (he : s.entries.get? d.entryId = some e)
    (hlease : leaseError e.lease d.leaseId d.owner = some message) :
    storeResult F s d result now = .error (valueError message) := by
  obtain ⟨-, hwhole⟩ := validateState_eq_nil.mp hvalid
  obtain ⟨-, hget⟩ := noting_ok hwhole he
    (endedEntry_sound result (hwhole.entry _ e he))
  have he' : (noting F s d.entryId (endedEntry result)).entries.get? d.entryId =
      some (sealEntry F (endedEntry result e)) := by
    rw [hget, if_pos rfl]
  have hrelease := @releaseMissionLease_refused F _ now d _ (nextStatus result) message he' hlease
  unfold storeResult loadState
  rw [if_pos hvalid]
  change (releaseMissionLease F (noting F s d.entryId (endedEntry result)) d.entryId
    d.leaseId d.owner (nextStatus result) now >>= _) = _
  rw [hrelease]
  rfl

/-- What the exception branch writes: the failure is counted, and the entry is queued again if the
lease is still its. -/
theorem finishFailed_ok {error : Raised} {published : Published} (hvalid : validateState F s = [])
    (he : s.entries.get? d.entryId = some e) :
    ∃ e', (finishFailed F s d error now published).1.counters = s.counters.bump .failed ∧
      (finishFailed F s d error now published).1.recoveredLeases = s.recoveredLeases ∧
      (finishFailed F s d error now published).1.lastResult = failedResult d error ∧
      e'.attemptCount = e.attemptCount ∧
      e'.entryStatus =
        (if leaseError e.lease d.leaseId d.owner = none then .queued else e.entryStatus) ∧
      ∀ id, (finishFailed F s d error now published).1.entries.get? id =
        if id = d.entryId then some e' else s.entries.get? id := by
  obtain ⟨-, hwhole⟩ := validateState_eq_nil.mp hvalid
  obtain ⟨hnoted, hget⟩ := noting_ok hwhole he
    (failedEntry_sound error (hwhole.entry _ e he))
  have he' : (noting F s d.entryId (failedEntry error)).entries.get? d.entryId =
      some (sealEntry F (failedEntry error e)) := by
    rw [hget, if_pos rfl]
  have hnote : ∃ e', Whole F (noteFailure F s d error now) ∧
      (noteFailure F s d error now).counters = s.counters ∧
      (noteFailure F s d error now).recoveredLeases = s.recoveredLeases ∧
      e'.attemptCount = e.attemptCount ∧
      e'.entryStatus =
        (if leaseError e.lease d.leaseId d.owner = none then .queued else e.entryStatus) ∧
      ∀ id, (noteFailure F s d error now).entries.get? id =
        if id = d.entryId then some e' else s.entries.get? id := by
    unfold noteFailure
    dsimp only
    cases hlease : leaseError e.lease d.leaseId d.owner with
    | none =>
      rw [@releaseMissionLease_ok F _ now d _ .queued he' hlease]
      refine ⟨sealEntry F (released .queued now (sealEntry F (failedEntry error e))), ?_, rfl, rfl,
        rfl, rfl, fun id => ?_⟩
      · refine (hnoted.set he' ?_).congr rfl rfl rfl rfl
        exact (released_sound (hnoted.entry _ _ he')).mpr rfl
      · refine (Dict.get?_set _ _ _ _).trans ?_
        by_cases hid : id = d.entryId
        · rw [if_pos hid, if_pos hid]
        · rw [if_neg hid, if_neg hid, hget, if_neg hid]
    | some message =>
      rw [@releaseMissionLease_refused F _ now d _ .queued message he' hlease]
      exact ⟨sealEntry F (failedEntry error e), hnoted, rfl, rfl, rfl, rfl, hget⟩
  obtain ⟨e', hwhole', hcounters, hrecovered, hattempts, hstatus, hentries⟩ := hnote
  have hbooked : Whole F (bookFailure (noteFailure F s d error now) d error now) :=
    hwhole'.congr rfl rfl rfl rfl
  unfold finishFailed loadState
  rw [if_pos hvalid]
  dsimp only
  rw [saving_ok hbooked]
  obtain ⟨hsame, -, -⟩ := @announce_ok F _ published (valid_seal.mpr hbooked)
  refine ⟨e', hsame.counters.trans ?_, hsame.recovered.trans hrecovered, hsame.result, hattempts,
    hstatus, fun id => ?_⟩
  · rw [← hcounters]
    rfl
  · rw [hsame.entries]
    exact hentries id

/-- The end of a mission goes through: its driver returns, the owner is written as the lease has it,
and the event is published. -/
def EndsWell (owner : String) (a : Answers) : Prop :=
  Text.strip owner = owner ∧ ∃ result event, a.driver = .ok result ∧ a.ended = .ok event

theorem leaseError_eq_none {l : MissionLease} {leaseId owner owner' : String}
    (hid : l.leaseId = .str leaseId) (howner : l.owner = .str owner') :
    leaseError (some l) leaseId owner = none ↔ owner' = owner := by
  have heqId : l.leaseId.eq (.str leaseId) = true := by
    rw [hid]
    exact beq_self_eq_true leaseId
  unfold leaseError
  dsimp only
  rw [heqId, howner, if_neg (by decide)]
  change (if (owner' == owner) = false then some _ else none) = none ↔ _
  by_cases hsame : owner' = owner
  · rw [hsame, beq_self_eq_true]
    exact ⟨fun _ => rfl, fun _ => rfl⟩
  · rw [beq_eq_false_iff_ne.mpr hsame, if_pos rfl]
    exact ⟨(fun h => by cases h), fun h => absurd h hsame⟩

/-- The entry was dispatched, and no attempt was made at another one. -/
structure DispatchedOnly (s f : SchedulerState) (id : String) (e : Entry) : Prop where
  dispatched : Dispatched s f id e
  others : ∀ id', id' ≠ id → attempts f.entries id' = attempts s.entries id'

theorem DispatchedOnly.unique {f : SchedulerState} {id' : String} {e e' : Entry}
    (h : DispatchedOnly s f id e) (h' : Dispatched s f id' e') : id' = id ∧ e' = e := by
  have hid : id' = id := by
    by_contra hne
    obtain ⟨he', e₀, he₀, hattempts⟩ := h'
    have hsame := h.others id' hne
    unfold attempts at hsame
    rw [he', he₀, Option.map_some, Option.map_some, hattempts, Option.some.injEq] at hsame
    omega
  subst hid
  exact ⟨rfl, Option.some.inj (h'.1.symm.trans h.dispatched.1)⟩

/-- The exception branch over a file in which the entry was dispatched: one failure is counted on
top of what the status it leaves the entry with is counted as. -/
theorem finishFailed_books {s₂ : SchedulerState} {error : Raised} {published : Published}
    (hvalid : validateState F s₂ = []) (h : DispatchedOnly s s₂ d.entryId e)
    (hcounters : s₂.counters = s.counters.bump
      (if leaseError e.lease d.leaseId d.owner = none then .queued else e.entryStatus)) :
    (finishFailed F s₂ d error now published).1.recoveredLeases = s₂.recoveredLeases ∧
      ∃ e', DispatchedOnly s (finishFailed F s₂ d error now published).1 d.entryId e' ∧
        (finishFailed F s₂ d error now published).1.counters =
          (s.counters.bump e'.entryStatus).bump .failed := by
  obtain ⟨he, e₀, he₀, hbefore⟩ := h.dispatched
  obtain ⟨e', hcounters', hrecovered, -, hattempts, hstatus, hentries⟩ :=
    @finishFailed_ok F s₂ now d e error published hvalid he
  refine ⟨hrecovered, e', ⟨⟨?_, e₀, he₀, hattempts.trans hbefore⟩, fun id hid => ?_⟩, ?_⟩
  · rw [hentries, if_pos rfl]
  · refine Eq.trans ?_ (h.others id hid)
    unfold attempts
    rw [hentries, if_neg hid]
  · rw [hcounters', hcounters, hstatus]

theorem Ran.only (h : Ran F s s₁ owner d) :
    ∃ e l, DispatchedOnly s s₁ d.entryId e ∧ e.entryStatus = .running ∧ e.lease = some l ∧
      l.leaseId = .str d.leaseId ∧ l.owner = .str (Text.strip owner) := by
  obtain ⟨e₀, e, l, he₀, he, hattempts, hstatus, hlease, hleaseId, hleaseOwner⟩ := h.entry
  exact ⟨e, l, ⟨⟨he, e₀, he₀, hattempts⟩, h.others⟩, hstatus, hlease, hleaseId, hleaseOwner⟩

/-- What the end of an iteration writes, by whether it goes through. -/
theorem finishIteration_books {s₁ : SchedulerState} {a : Answers} (hran : Ran F s s₁ owner d) :
    (finishIteration F s₁ d a.driver a.ended a.failed now).1.recoveredLeases = s₁.recoveredLeases ∧
      ∃ e', DispatchedOnly s (finishIteration F s₁ d a.driver a.ended a.failed now).1 d.entryId e' ∧
        (EndsWell owner a →
          (finishIteration F s₁ d a.driver a.ended a.failed now).1.counters =
              s.counters.bump e'.entryStatus ∧
            ∃ result, (finishIteration F s₁ d a.driver a.ended a.failed now).1.lastResult =
              dispatchedResult d result) ∧
        (¬EndsWell owner a →
          (finishIteration F s₁ d a.driver a.ended a.failed now).1.counters =
            (s.counters.bump e'.entryStatus).bump .failed) := by
  obtain ⟨e, l, honly, hstatus, hlease, hleaseId, hleaseOwner⟩ := hran.only
  obtain ⟨he, e₀, he₀, hbefore⟩ := honly.dispatched
  have herror : leaseError e.lease d.leaseId d.owner = none ↔ Text.strip owner = owner := by
    rw [hlease, hran.holder]
    exact leaseError_eq_none hleaseId hleaseOwner
  have hstill : s₁.counters = s.counters.bump
      (if leaseError e.lease d.leaseId d.owner = none then .queued else e.entryStatus) := by
    rw [hran.counters, hstatus]
    split <;> rfl
  unfold finishIteration
  cases hdriver : a.driver with
  | error error =>
    have hbad : ¬EndsWell owner a := by
      rintro ⟨-, result, event, hresult, -⟩
      rw [hdriver] at hresult
      cases hresult
    obtain ⟨hrecovered, e', honly', hcounters⟩ :=
      @finishFailed_books F s now d e s₁ error a.failed hran.valid honly hstill
    exact ⟨hrecovered, e', honly', fun hgood => absurd hgood hbad, fun _ => hcounters⟩
  | ok result =>
    dsimp only
    by_cases howner : Text.strip owner = owner
    · obtain ⟨s₂, hstore, hvalid₂, hcounters₂, hrecovered₂, hresult₂, hentries₂⟩ :=
        @storeResult_ok F s₁ now d e result hran.valid he (herror.mpr howner)
      rw [hstore]
      dsimp only
      generalize hended : sealEntry F
        (released (nextStatus result) now (sealEntry F (endedEntry result e))) = e₂ at hentries₂
      have honly₂ : DispatchedOnly s s₂ d.entryId e₂ := by
        refine ⟨⟨?_, e₀, he₀, ?_⟩, fun id hid => ?_⟩
        · rw [hentries₂, if_pos rfl]
        · rw [← hended]
          exact hbefore
        · refine Eq.trans ?_ (honly.others id hid)
          unfold attempts
          rw [hentries₂, if_neg hid]
      have hnext : e₂.entryStatus = nextStatus result := by
        rw [← hended]
        rfl
      rw [hran.counters, ← hnext] at hcounters₂
      obtain ⟨hsame, hvalid, hpublished⟩ := @announce_ok F s₂ a.ended hvalid₂
      cases hanswer : announce F s₂ a.ended with
      | mk f answer =>
        rw [hanswer] at hsame hvalid hpublished
        have honly' : DispatchedOnly s f d.entryId e₂ := by
          refine ⟨⟨?_, honly₂.dispatched.2⟩, fun id hid => ?_⟩
          · rw [hsame.entries]
            exact honly₂.dispatched.1
          · rw [hsame.entries]
            exact honly₂.others id hid
        cases answer with
        | ok f' =>
          obtain ⟨event, hevent⟩ := hpublished.mp ⟨f', rfl⟩
          refine ⟨hsame.recovered.trans hrecovered₂, e₂, honly', fun _ => ?_, fun hbad => ?_⟩
          · exact ⟨hsame.counters.trans hcounters₂, result, hsame.result.trans hresult₂⟩
          · exact absurd ⟨howner, result, event, hdriver, hevent⟩ hbad
        | error error =>
          have hbad : ¬EndsWell owner a := by
            rintro ⟨-, -, event, -, hevent⟩
            obtain ⟨f', hf'⟩ := hpublished.mpr ⟨event, hevent⟩
            cases hf'
          have hgone : ¬leaseError e₂.lease d.leaseId d.owner = none := by
            rw [← hended]
            exact fun h => by cases h
          obtain ⟨hrecovered, e', honly'', hcounters⟩ :=
            @finishFailed_books F s now d e₂ f error a.failed hvalid honly'
              (by rw [if_neg hgone]; exact hsame.counters.trans hcounters₂)
          exact ⟨hrecovered.trans (hsame.recovered.trans hrecovered₂), e', honly'',
            fun hgood => absurd hgood hbad, fun _ => hcounters⟩
    · obtain ⟨message, hmessage⟩ : ∃ message,
          leaseError e.lease d.leaseId d.owner = some message :=
        Option.ne_none_iff_exists'.mp fun hnone => howner (herror.mp hnone)
      rw [@storeResult_refused F s₁ now d e result message hran.valid he hmessage]
      dsimp only
      have hbad : ¬EndsWell owner a := fun hgood => howner hgood.1
      obtain ⟨hrecovered, e', honly', hcounters⟩ :=
        @finishFailed_books F s now d e s₁ (valueError message) a.failed hran.valid honly hstill
      exact ⟨hrecovered, e', honly', fun hgood => absurd hgood hbad, fun _ => hcounters⟩

/-! ## The whole iteration -/

/-- No lease has run out, and a mission that is dispatched ends well. -/
def Careful (s : SchedulerState) (owner : String) (leaseSeconds : ℤ) (now : Instant)
    (a : Answers) : Prop :=
  (Proceeds s owner leaseSeconds → ∀ id e, s.entries.get? id = some e → overdue now e = false) ∧
    (Runs s owner leaseSeconds a.started → EndsWell owner a)

theorem turnedBack_le (s s' : SchedulerState) (now : Instant) :
    turnedBack s s' now ≤ s.entries.count (overdue now) := by
  unfold turnedBack Dict.count
  refine List.countP_mono_left fun p _ hp => ?_
  exact (Bool.and_eq_true_iff.mp hp).1

theorem turnedBack_self (s : SchedulerState) (now : Instant) : turnedBack s s now = 0 := by
  unfold turnedBack
  refine List.countP_eq_zero.mpr fun p hp hback => ?_
  obtain ⟨hdue, hgone⟩ := Bool.and_eq_true_iff.mp hback
  rw [Dict.mem_entries.mp hp, Option.any_some, hdue] at hgone
  cases hgone

/-- What was counted twice is right only if it was nothing. -/
theorem recovered_iff
    (h : s'.recoveredLeases = s.recoveredLeases + 2 * s.entries.count (overdue now)) :
    s'.recoveredLeases = s.recoveredLeases + turnedBack s s' now ↔
      ∀ id e, s.entries.get? id = some e → overdue now e = false := by
  have hle := turnedBack_le s s' now
  rw [← Dict.count_eq_zero, h]
  omega

theorem bump_failed_ne (c : Counters) (status : EntryStatus) :
    (c.bump status).bump .failed ≠ c ∧ (c.bump status).bump .failed ≠ c.bump status := by
  have hgrows : c.failed ≤ (c.bump status).failed := by
    cases status <;> unfold Counters.bump <;> dsimp only <;> omega
  constructor
  · intro h
    have hfailed : (c.bump status).failed + 1 = c.failed := congrArg Counters.failed h
    omega
  · intro h
    have hfailed : (c.bump status).failed + 1 = (c.bump status).failed := congrArg Counters.failed h
    omega

theorem not_dispatched (hattempts : ∀ id, attempts s'.entries id = attempts s.entries id)
    {e : Entry} : ¬Dispatched s s' id e := by
  rintro ⟨he, e₀, he₀, hmore⟩
  have hsame := hattempts id
  unfold attempts at hsame
  rw [he, he₀, Option.map_some, Option.map_some, hmore, Option.some.injEq] at hsame
  omega

theorem Runs.proceeds (h : Runs s owner leaseSeconds started) : Proceeds s owner leaseSeconds :=
  .inr (.inr ⟨h.2.2.1, h.2.2.2.1⟩)

/-- A file in which no mission was dispatched. -/
theorem accounted_quiet {f : SchedulerState} {a : Answers} (hproceeds : Proceeds s owner leaseSeconds)
    (hrecovered : f.recoveredLeases = s.recoveredLeases + 2 * s.entries.count (overdue now))
    (hcounters : f.counters = s.counters)
    (hcompleted : ∀ id e, Dispatched s f id e → e.entryStatus ≠ .completed)
    (hruns : s.entries.count (overdue now) = 0 → ¬Runs s owner leaseSeconds a.started) :
    Accounted s f now ↔ Careful s owner leaseSeconds now a := by
  constructor
  · intro h
    have hnone := (recovered_iff hrecovered).mp h.recovered
    exact ⟨fun _ => hnone, fun hrun => absurd hrun (hruns (Dict.count_eq_zero.mpr hnone))⟩
  · rintro ⟨hnone, -⟩
    exact
      { recovered := (recovered_iff hrecovered).mpr (hnone hproceeds)
        counted := .inl hcounters
        completed := fun id e hd hstatus => absurd hstatus (hcompleted id e hd) }

/-- A file after the end of a mission. -/
theorem accounted_ended {a : Answers} (hproceeds : Proceeds s owner leaseSeconds)
    (hrecovered : s₁.recoveredLeases = s.recoveredLeases + 2 * s.entries.count (overdue now))
    (hran : Ran F s s₁ owner d)
    (hruns : s.entries.count (overdue now) = 0 → Runs s owner leaseSeconds a.started) :
    Accounted s (finishIteration F s₁ d a.driver a.ended a.failed now).1 now ↔
      Careful s owner leaseSeconds now a := by
  obtain ⟨hsame, e', honly, hgood, hbad⟩ := @finishIteration_books F s owner now d s₁ a hran
  generalize (finishIteration F s₁ d a.driver a.ended a.failed now).1 = f at hsame honly hgood hbad ⊢
  have hrecovered' := hsame.trans hrecovered
  constructor
  · intro h
    have hnone := (recovered_iff hrecovered').mp h.recovered
    refine ⟨fun _ => hnone, fun _ => ?_⟩
    by_contra hends
    have hcounters := hbad hends
    rcases h.counted with hkept | ⟨id, e, hdispatched, hbumped⟩
    · exact (bump_failed_ne s.counters e'.entryStatus).1 (hcounters.symm.trans hkept)
    · obtain ⟨-, rfl⟩ := honly.unique hdispatched
      exact (bump_failed_ne s.counters e.entryStatus).2 (hcounters.symm.trans hbumped)
  · rintro ⟨hnone, hends⟩
    have hzero := Dict.count_eq_zero.mpr (hnone hproceeds)
    obtain ⟨hcounters, result, hresult⟩ := hgood (hends (hruns hzero))
    refine
      { recovered := (recovered_iff hrecovered').mpr (hnone hproceeds)
        counted := .inr ⟨d.entryId, e', honly.dispatched, hcounters⟩
        completed := ?_ }
    intro id e hdispatched hstatus
    obtain ⟨-, rfl⟩ := honly.unique hdispatched
    rw [hcounters, hstatus]
    refine ⟨rfl, ?_⟩
    rintro ⟨hreported, -⟩
    rw [hresult] at hreported
    cases hreported

/-- An iteration on a valid state is accounted for if and only if it is careful. -/
theorem accounted_iff_careful {a : Answers} (hvalid : validateState F s = []) :
    Accounted s (runIteration F s owner leaseSeconds now a).1 now ↔
      Careful s owner leaseSeconds now a := by
  have hstart := @startIteration_started F s owner leaseSeconds now a.started hvalid
  unfold runIteration
  generalize startIteration F s owner leaseSeconds now a.started = r at hstart ⊢
  cases hstart with
  | refused e hproceeds =>
    refine ⟨fun _ => ⟨fun h => absurd h hproceeds, fun h => absurd h.proceeds hproceeds⟩, fun _ => ?_⟩
    refine
      { recovered := ?_
        counted := .inl rfl
        completed := fun id e hd => absurd hd (not_dispatched fun _ => rfl) }
    dsimp only
    rw [turnedBack_self]
    omega
  | @quiet s₁ answer hproceeds hrecovered hbooks hanswer hruns =>
    have hquiet : Accounted s s₁ now ↔ Careful s owner leaseSeconds now a :=
      accounted_quiet hproceeds hrecovered hbooks.counters
        (fun id e hd => absurd hd (not_dispatched hbooks.attempts)) hruns
    cases answer with
    | error e => exact hquiet
    | ok answer =>
      cases answer with
      | none => exact hquiet
      | some d => exact absurd rfl (hanswer d)
  | @raised s₁ e d hproceeds hrecovered hran hruns =>
    refine accounted_quiet hproceeds hrecovered hran.counters ?_ fun _ => hruns
    intro id e hdispatched hstatus
    obtain ⟨e₁, -, honly, hrunning, -⟩ := hran.only
    obtain ⟨-, rfl⟩ := honly.unique hdispatched
    rw [hrunning] at hstatus
    cases hstatus
  | @dispatched s₁ d hproceeds hrecovered hran hruns =>
    exact accounted_ended hproceeds hrecovered hran hruns

/-- The driver completes the mission, but the event about it cannot be published. -/
def sampleAnswers : Answers where
  started := .ok none
  driver := .ok [("mission_status", .str "completed")]
  ended := .error ⟨"OSError", "event bus state is not there"⟩
  failed := .ok none

/-- A scheduler with one mission. -/
def queuedScheduler : SchedulerState :=
  match enqueueSample.perform blindDigest emptyScheduler with
  | .ok s => s
  | .error _ => emptyScheduler

/-- The mission is counted as completed and as failed. -/
theorem completed_and_failed :
    validateState blindDigest queuedScheduler = [] ∧
      (runIteration blindDigest queuedScheduler "mission-runtime" 120 0 sampleAnswers).1.counters =
        ⟨1, 0, 0, 1⟩ ∧
      ¬Accounted queuedScheduler
        (runIteration blindDigest queuedScheduler "mission-runtime" 120 0 sampleAnswers).1 0 := by
  have hcounters : (runIteration blindDigest queuedScheduler "mission-runtime" 120 0
      sampleAnswers).1.counters = ⟨1, 0, 0, 1⟩ := by
    decide +kernel
  have hbefore : queuedScheduler.counters = ⟨0, 0, 0, 0⟩ := by
    decide +kernel
  refine ⟨by decide +kernel, hcounters, fun h => ?_⟩
  have hcounted := h.counted
  rw [hcounters, hbefore] at hcounted
  rcases hcounted with hkept | ⟨id, e, -, hbumped⟩
  · cases hkept
  · cases hstatus : e.entryStatus <;> rw [hstatus] at hbumped <;> cases hbumped

/-- The same mission, where the event goes through. -/
theorem accounted_iff_careful_sample :
    Accounted queuedScheduler (runIteration blindDigest queuedScheduler "mission-runtime" 120 0
        { sampleAnswers with ended := .ok none }).1 0 ↔
      Careful queuedScheduler "mission-runtime" 120 0 { sampleAnswers with ended := .ok none } :=
  accounted_iff_careful (by decide +kernel)

end MissionScheduler
end ZeroRuntime
