import ZeroRuntime.MissionScheduler.Model

/-!
# ZeroRuntime.MissionScheduler.Valid

Which operations keep the state of the mission scheduler valid.

* `Whole`: what the validator asks for, but for the fingerprint of the state.
* `Whole.set`, `whole_recover`, `whole_grant`, `whole_release`: what each part of an operation does
  to a whole state.
* `mission_state_valid_iff`: an operation that does not raise on a valid state keeps it valid, unless it
  releases a lease into a status that needs one.
-/

namespace ZeroRuntime
namespace MissionScheduler

open Lib Sessions

variable {F : SchedulerDigest} {s s' : SchedulerState} {owner : String} {leaseSeconds : ℤ}
  {now : Instant}

/-! ## What the validator asks for -/

theorem blank_str (s : String) : blank (.str s) = decide (Text.strip s = "") := by
  unfold blank
  rw [Val.text_str]

theorem blank_stripped {s : String} (h : Text.strip s ≠ "") : blank (.str (Text.strip s)) = false := by
  rw [blank_str, Text.strip_strip]
  exact decide_eq_false h

variable (F) in
structure EntrySound (id : String) (e : Entry) : Prop where
  keyed : e.entryId = id
  contract : e.contract = entryContract
  signed : e.entryFingerprint = F.entry (unsignedEntry e)
  identified : blank (.str e.entryId) = false
  mission : blank (.str e.missionId) = false
  path : blank (.str e.missionPath) = false
  priority : -100 ≤ e.priority ∧ e.priority ≤ 100
  leased : e.entryStatus.held = true → leaseReasons e.lease = []

variable (F) in
def Signed (s : SchedulerState) : Prop := s.schedulerFingerprint = F.state (unsignedState s)

variable (F) in
structure Whole (s : SchedulerState) : Prop where
  contract : s.contract = schedulerContract
  identified : blank (.str s.schedulerId) = false
  order : ∀ id, id ∈ s.entryOrder ↔ s.entries.contains id = true
  entry : ∀ id e, s.entries.get? id = some e → EntrySound F id e

variable {e : Entry} {id : String}

theorem validateEntry_eq_nil : e.entryId = id ∧ validateEntry F e = [] ↔ EntrySound F id e := by
  have hleased : (if e.entryStatus.held then leaseReasons e.lease else []) = [] ↔
      (e.entryStatus.held = true → leaseReasons e.lease = []) := by
    by_cases hheld : e.entryStatus.held = true
    · rw [if_pos hheld]
      exact ⟨fun h _ => h, fun h => h hheld⟩
    · rw [if_neg hheld]
      exact ⟨fun _ h => absurd h hheld, fun _ => rfl⟩
  unfold validateEntry
  simp only [List.append_eq_nil_iff, missing_eq_nil, found_eq_nil, Bool.not_eq_true, and_assoc,
    hleased]
  constructor
  · rintro ⟨hid, hcontract, hsigned, hidentified, hmission, hpath, hlow, hhigh, hlease⟩
    exact ⟨hid, hcontract, hsigned, hidentified, hmission, hpath, ⟨hlow, hhigh⟩, hlease⟩
  · intro h
    exact ⟨h.keyed, h.contract, h.signed, h.identified, h.mission, h.path, h.priority.1,
      h.priority.2, h.leased⟩

theorem validateState_eq_nil : validateState F s = [] ↔ Signed F s ∧ Whole F s := by
  unfold validateState
  simp only [List.append_eq_nil_iff, missing_eq_nil, found_eq_nil, Bool.not_eq_true, and_assoc,
    sameKeys_iff]
  constructor
  · rintro ⟨hcontract, hsigned, hid, horder, hentries⟩
    refine ⟨hsigned, hcontract, hid, horder, fun id e he => ?_⟩
    exact validateEntry_eq_nil.mp ((registry_eq_nil horder).mp hentries id e he)
  · rintro ⟨hsigned, h⟩
    refine ⟨h.contract, hsigned, h.identified, h.order, ?_⟩
    exact (registry_eq_nil h.order).mpr fun id e he => validateEntry_eq_nil.mpr (h.entry id e he)

theorem valid_seal : validateState F (sealState F s) = [] ↔ Whole F s := by
  rw [validateState_eq_nil]
  constructor
  · rintro ⟨-, h⟩
    exact ⟨h.contract, h.identified, h.order, h.entry⟩
  · intro h
    exact ⟨rfl, h.contract, h.identified, h.order, h.entry⟩

/-! ## What keeps a state whole -/

theorem entrySound_seal {e' : Entry} (h : EntrySound F id e) (hid : e'.entryId = e.entryId)
    (hcontract : e'.contract = e.contract) (hmission : e'.missionId = e.missionId)
    (hpath : e'.missionPath = e.missionPath) (hpriority : e'.priority = e.priority)
    (hleased : e'.entryStatus.held = true → leaseReasons e'.lease = []) :
    EntrySound F id (sealEntry F e') where
  keyed := hid.trans h.keyed
  contract := hcontract.trans h.contract
  signed := rfl
  identified := (congrArg (fun x => blank (.str x)) hid).trans h.identified
  mission := (congrArg (fun x => blank (.str x)) hmission).trans h.mission
  path := (congrArg (fun x => blank (.str x)) hpath).trans h.path
  priority := by
    change -100 ≤ e'.priority ∧ e'.priority ≤ 100
    rw [hpriority]
    exact h.priority
  leased := hleased

theorem Whole.congr (h : Whole F s) (hcontract : s'.contract = s.contract)
    (hid : s'.schedulerId = s.schedulerId) (horder : s'.entryOrder = s.entryOrder)
    (hentries : s'.entries = s.entries) : Whole F s' where
  contract := hcontract.trans h.contract
  identified := (congrArg (fun x => blank (.str x)) hid).trans h.identified
  order := by
    rw [horder, hentries]
    exact h.order
  entry := by
    rw [hentries]
    exact h.entry

/-- An entry that is known is replaced. -/
theorem Whole.set {e' : Entry} (h : Whole F s) (he : s.entries.get? id = some e)
    (he' : EntrySound F id e') : Whole F { s with entries := s.entries.set id e' } where
  contract := h.contract
  identified := h.identified
  order id' := by
    rw [Dict.contains_set, h.order]
    refine (or_iff_right_of_imp ?_).symm
    rintro rfl
    exact Dict.contains_iff.mpr ⟨e, he⟩
  entry id' e₁ he₁ := by
    rw [Dict.get?_set] at he₁
    split at he₁
    · rename_i hid
      cases he₁
      rw [hid]
      exact he'
    · exact h.entry id' e₁ he₁

theorem requeued_sound {now : Instant} (h : EntrySound F id e) :
    EntrySound F id (sealEntry F (requeued now e)) :=
  entrySound_seal h rfl rfl rfl rfl rfl fun hheld => by cases hheld

/-- The induction is on the entries still to be looked at. -/
theorem whole_recoverLoop {now : Instant} (ids : List String) {acc : Dict String Entry × ℤ}
    (h : Whole F { s with entries := acc.1 }) :
    Whole F { s with entries := (ids.foldl (recoverEntry F now) acc).1 } := by
  induction ids generalizing acc with
  | nil => exact h
  | cons id ids ih =>
    refine ih ?_
    unfold recoverEntry
    cases he : acc.1.get? id with
    | none => exact h
    | some e =>
      dsimp only
      split
      · exact h.set he (requeued_sound (h.entry id e he))
      · exact h

theorem whole_recover {now : Instant} (h : Whole F s) : Whole F (recoverExpiredLeases F s now).1 := by
  have hloop := @whole_recoverLoop F s now s.entryOrder (s.entries, 0) h
  exact hloop.congr rfl rfl rfl rfl

theorem nextCandidate_ok (h : Whole F s) (he : nextCandidate s = some e) :
    s.entries.get? e.entryId = some e ∧ (e.entryStatus = .queued ∨ e.entryStatus = .waiting) :=
  nextCandidate_get? (fun id e he => (h.entry id e he).keyed) he

theorem blank_leaseId (i : LeaseIdentity) : blank (.str (leaseIdOf F i)) = false := by
  rw [blank_str, decide_eq_false_iff_not]
  refine Text.strip_ne_empty (c := 'm') ?_ (by decide)
  unfold leaseIdOf
  rw [String.toList_append]
  exact List.mem_append_left _ (by decide)

theorem blank_entryId (missionId path : String) : blank (.str (entryIdOf F missionId path)) = false := by
  rw [blank_str, decide_eq_false_iff_not]
  refine Text.strip_ne_empty (c := 'm') ?_ (by decide)
  unfold entryIdOf
  rw [String.toList_append]
  exact List.mem_append_left _ (by decide)

theorem newLease_reasons {owner : String} {seconds : ℕ} {now : Instant}
    (howner : blank (.str owner) = false) :
    leaseReasons (some (newLease F s e owner seconds now)) = [] := by
  have hid : blank (newLease F s e owner seconds now).leaseId = false := blank_leaseId _
  have howner' : blank (newLease F s e owner seconds now).owner = false := howner
  unfold leaseReasons
  dsimp only
  rw [hid, howner']
  rfl

theorem whole_grant {e : Entry} {owner : String} {seconds : ℕ} {now : Instant} (h : Whole F s)
    (he : s.entries.get? e.entryId = some e) (howner : blank (.str owner) = false) :
    Whole F (grant F s e (newLease F s e owner seconds now)) := by
  have hsound : EntrySound F e.entryId
      (sealEntry F (leasedEntry (newLease F s e owner seconds now) e)) :=
    entrySound_seal (h.entry _ e he) rfl rfl rfl rfl rfl fun _ => newLease_reasons howner
  exact (h.set he hsound).congr rfl rfl rfl rfl

variable {lease : Option MissionLease}

theorem whole_leaseNext {owner : String} {seconds : ℤ} {now : Instant} (h : Whole F s)
    (hs : leaseNextMission F s owner seconds now = .ok (s', lease)) : Signed F s' ∧ Whole F s' := by
  unfold leaseNextMission at hs
  dsimp only at hs
  split at hs
  · cases hs
  rename_i howner
  split at hs
  · cases hs
  have hrecovered : Whole F (recoverExpiredLeases F s now).1 := whole_recover h
  split at hs
  · cases hs
    exact ⟨rfl, hrecovered⟩
  · rename_i e he
    cases hs
    exact ⟨rfl, whole_grant hrecovered (nextCandidate_ok hrecovered he).1 (blank_stripped howner)⟩

/-- What leasing adds: it recovers again, and gives the next candidate a lease. -/
theorem leaseNext_ok (hs : leaseNextMission F s owner leaseSeconds now = .ok (s', lease)) :
    Text.strip owner ≠ "" ∧ 1 ≤ leaseSeconds ∧
      (lease = none ∧ s' = (recoverExpiredLeases F s now).1 ∧
          nextCandidate (recoverExpiredLeases F s now).1 = none ∨
        ∃ e, nextCandidate (recoverExpiredLeases F s now).1 = some e ∧
          lease = some (newLease F (recoverExpiredLeases F s now).1 e (Text.strip owner)
            leaseSeconds.toNat now) ∧
          s' = grant F (recoverExpiredLeases F s now).1 e (newLease F
            (recoverExpiredLeases F s now).1 e (Text.strip owner) leaseSeconds.toNat now)) := by
  unfold leaseNextMission at hs
  dsimp only at hs
  split at hs
  · cases hs
  rename_i howner
  split at hs
  · cases hs
  rename_i hseconds
  refine ⟨howner, by omega, ?_⟩
  cases hnext : nextCandidate (recoverExpiredLeases F s now).1 with
  | none =>
    rw [hnext] at hs
    cases hs
    exact .inl ⟨rfl, rfl, rfl⟩
  | some e =>
    rw [hnext] at hs
    cases hs
    exact .inr ⟨e, rfl, rfl, rfl⟩

theorem grant_get? {lease : MissionLease} (id : String) :
    (grant F s e lease).entries.get? id =
      if id = e.entryId then some (sealEntry F (leasedEntry lease e)) else s.entries.get? id :=
  Dict.get?_set _ _ _ _

theorem markRunning_entries (he : s.entries.get? id = some e) :
    (markRunning F s id now).entries = s.entries.set id (sealEntry F (startedEntry now e)) :=
  Dict.modify_of_get? _ he

theorem dispatch_get? {e : Entry} {lease : MissionLease} (id : String) :
    (markRunning F (grant F s e lease) e.entryId now).entries.get? id =
      if id = e.entryId then some (sealEntry F (startedEntry now (sealEntry F (leasedEntry lease e))))
      else s.entries.get? id := by
  have hleased : (grant F s e lease).entries.get? e.entryId =
      some (sealEntry F (leasedEntry lease e)) := by
    rw [grant_get?, if_pos rfl]
  rw [markRunning_entries hleased, Dict.get?_set, grant_get?]
  by_cases hid : id = e.entryId
  · rw [if_pos hid, if_pos hid]
  · rw [if_neg hid, if_neg hid, if_neg hid]

theorem whole_dispatch {e : Entry} (h : Whole F s) (he : s.entries.get? e.entryId = some e)
    (howner : Text.strip owner ≠ "") :
    Whole F (markRunning F
      (grant F s e (newLease F s e (Text.strip owner) leaseSeconds.toNat now)) e.entryId now) := by
  have hblank := blank_stripped howner
  have hgrant := @whole_grant F s e (Text.strip owner) leaseSeconds.toNat now h he hblank
  generalize hlease : newLease F s e (Text.strip owner) leaseSeconds.toNat now = lease at hgrant ⊢
  have hleased : (grant F s e lease).entries.get? e.entryId =
      some (sealEntry F (leasedEntry lease e)) := by
    rw [grant_get?, if_pos rfl]
  refine (hgrant.set hleased ?_).congr rfl rfl rfl (markRunning_entries hleased)
  refine entrySound_seal (hgrant.entry _ _ hleased) rfl rfl rfl rfl rfl fun _ => ?_
  change leaseReasons (some lease) = []
  rw [← hlease]
  exact newLease_reasons hblank

theorem saveState_ok (h : Whole F s) : saveState F s = .ok (sealState F s) := by
  unfold saveState loadState
  rw [if_pos (valid_seal.mpr h)]

theorem saving_ok {α : Type} {file : SchedulerState} {next : SchedulerState → Outcome α}
    (h : Whole F s) : saving F file s next = next (sealState F s) := by
  unfold saving
  rw [saveState_ok h]

theorem released_sound {id : String} {e : Entry} {next : EntryStatus} {now : Instant}
    (h : EntrySound F id e) :
    EntrySound F id (sealEntry F (released next now e)) ↔ next.held = false := by
  constructor
  · intro hsound
    cases hheld : next.held with
    | false => rfl
    | true =>
      have hleased := hsound.leased hheld
      cases hleased
  · intro hheld
    refine entrySound_seal h rfl rfl rfl rfl rfl fun hheld' => ?_
    rw [show (released next now e).entryStatus.held = next.held from rfl, hheld] at hheld'
    cases hheld'

theorem release_valid {entryId leaseId owner : String} {next : EntryStatus} {now : Instant}
    (h : Whole F s) (hs : releaseMissionLease F s entryId leaseId owner next now = .ok s') :
    validateState F s' = [] ↔ next.held = false := by
  unfold releaseMissionLease at hs
  split at hs
  · cases hs
  rename_i e he
  split at hs
  · cases hs
  cases hs
  rw [valid_seal, ← @released_sound F entryId e next now (h.entry entryId e he)]
  constructor
  · intro hwhole
    refine hwhole.entry entryId _ ?_
    rw [Dict.get?_set, if_pos rfl]
  · exact fun hsound => (h.set he hsound).congr rfl rfl rfl rfl

theorem held_ofText (text : String) : ((EntryStatus.ofText text).getD .queued).held = false := by
  have hterminals : ∀ p ∈ EntryStatus.terminals, p.2.held = false := by decide
  unfold EntryStatus.ofText
  cases hfind : EntryStatus.terminals.find? (·.1 = text) with
  | none => rfl
  | some p => exact hterminals p (List.mem_of_find?_eq_some hfind)

theorem Whole.add (h : Whole F s) (id : String) (he : EntrySound F id e) :
    Whole F { s with entries := s.entries.set id e, entryOrder := s.entryOrder ++ [id] } where
  contract := h.contract
  identified := h.identified
  order id' := by
    rw [Dict.contains_set, List.mem_append, List.mem_singleton, h.order, or_comm]
  entry id' e' he' := by
    rw [Dict.get?_set] at he'
    split at he'
    · rename_i hid
      cases he'
      rw [hid]
      exact he
    · exact h.entry id' e' he'

theorem enqueue_valid {path : String} {mission : Except Raised MissionFile} {priority : ℤ}
    {now : Instant} (hpath : blank (.str path) = false)
    (hs : enqueueMission F s path mission priority now = .ok s') : validateState F s' = [] := by
  unfold enqueueMission at hs
  split at hs
  · cases hs
  rename_i hpriority
  obtain ⟨s₁, hload, hs⟩ := bind_eq_ok.mp hs
  obtain ⟨mission, -, hs⟩ := bind_eq_ok.mp hs
  unfold loadState at hload
  split at hload
  case isFalse => cases hload
  rename_i hvalid
  cases hload
  dsimp only at hs
  split at hs
  · cases hs
  rename_i hmission
  split at hs
  · split at hs
    · cases hs
    · cases hs
      exact hvalid
  rename_i hnew
  cases hs
  obtain ⟨-, h⟩ := validateState_eq_nil.mp hvalid
  have hmission' : blank (.str mission.missionId.text) = false := by
    rw [blank_str, Val.strip_text]
    exact decide_eq_false hmission
  have hstatus := held_ofText mission.missionStatus.text
  generalize (EntryStatus.ofText mission.missionStatus.text).getD .queued = status at hstatus ⊢
  rw [valid_seal]
  refine (h.add (entryIdOf F mission.missionId.text path) ?_).congr rfl rfl rfl rfl
  refine
    { keyed := rfl, contract := rfl, signed := rfl, identified := blank_entryId _ _
      mission := hmission', path := hpath, priority := ?_, leased := fun hheld => ?_ }
  · change -100 ≤ priority ∧ priority ≤ 100
    omega
  · change status.held = true at hheld
    rw [hstatus] at hheld
    cases hheld

/-! ## Every operation -/

/-- The operations on a state in memory. -/
inductive Call where
  | enqueue (path : String) (mission : Except Raised MissionFile) (priority : ℤ) (now : Instant)
  | lease (owner : String) (leaseSeconds : ℤ) (now : Instant)
  | release (entryId leaseId owner : String) (next : EntryStatus) (now : Instant)
  | request (action : Action) (now : Instant)

variable (F) in
def Call.perform (s : SchedulerState) : Call → Except Raised SchedulerState
  | .enqueue path mission priority now => enqueueMission F s path mission priority now
  | .lease owner leaseSeconds now => (leaseNextMission F s owner leaseSeconds now).map Prod.fst
  | .release entryId leaseId owner next now => releaseMissionLease F s entryId leaseId owner next now
  | .request action now => .ok (requestAction F s action now)

def Call.Resolved : Call → Prop
  | .enqueue path _ _ _ => blank (.str path) = false
  | _ => True

/-- A lease is not released into a status that needs one. -/
def Call.Careful : Call → Prop
  | .release _ _ _ next _ => next.held = false
  | _ => True

theorem action_valid {action : Action} {now : Instant} (h : Whole F s) :
    validateState F (requestAction F s action now) = [] := by
  cases action <;> exact valid_seal.mpr (h.congr rfl rfl rfl rfl)

/-- An operation that does not raise keeps a valid state valid exactly when it is careful. -/
theorem mission_state_valid_iff {c : Call} (hvalid : validateState F s = []) (hpath : c.Resolved)
    (hs : c.perform F s = .ok s') : validateState F s' = [] ↔ c.Careful := by
  obtain ⟨-, h⟩ := validateState_eq_nil.mp hvalid
  cases c with
  | enqueue path mission priority now =>
    exact ⟨fun _ => trivial, fun _ => enqueue_valid hpath hs⟩
  | lease owner leaseSeconds now =>
    change (leaseNextMission F s owner leaseSeconds now).map Prod.fst = .ok s' at hs
    cases hlease : leaseNextMission F s owner leaseSeconds now with
    | error e => rw [hlease] at hs; cases hs
    | ok answer =>
      rw [hlease] at hs
      cases hs
      exact ⟨fun _ => trivial, fun _ => validateState_eq_nil.mpr (whole_leaseNext h hlease)⟩
  | release entryId leaseId owner next now => exact release_valid h hs
  | request action now =>
    cases hs
    exact ⟨fun _ => trivial, fun _ => action_valid h⟩

/-- A digest that tells nothing apart. -/
def blindDigest : SchedulerDigest := ⟨fun _ => "", fun _ => "", fun _ _ => "", fun _ => ""⟩

def enqueueSample : Call :=
  .enqueue "/missions/one.json" (.ok ⟨.str "mission", .str "created"⟩) 0 0

/-- A mission is enqueued and leased, and its lease released with the entry still `leased`: what is
found in the state before and after the release. -/
def releasedAsLeased : Except Raised (List String × List String) := do
  let s ← createState blindDigest "scheduler" "default" 0
  let s ← enqueueSample.perform blindDigest s
  let (s, _) ← leaseNextMission blindDigest s "mission-runtime" 120 0
  let s' ← releaseMissionLease blindDigest s "mission-scheduler-entry-" "mission-scheduler-lease-"
    "mission-runtime" .leased 0
  .ok (validateState blindDigest s, validateState blindDigest s')

theorem released_as_leased_refused :
    releasedAsLeased =
      .ok ([], ["mission-scheduler-entry-:mission_scheduler_active_lease_required"]) := by
  decide +kernel

def emptyScheduler : SchedulerState :=
  sealState blindDigest
    { contract := schedulerContract, schedulerId := "scheduler", schedulerName := "default"
      schedulerStatus := .created, entries := Dict.empty, entryOrder := [], createdAt := 0
      updatedAt := 0, schedulerFingerprint := "" }

theorem mission_state_valid_sample :
    ∃ s, enqueueSample.perform blindDigest emptyScheduler = .ok s ∧
      (validateState blindDigest s = [] ↔ enqueueSample.Careful) :=
  ⟨_, rfl, @mission_state_valid_iff blindDigest emptyScheduler _ enqueueSample (by decide)
    (show blank (.str "/missions/one.json") = false by decide) rfl⟩

end MissionScheduler
end ZeroRuntime
