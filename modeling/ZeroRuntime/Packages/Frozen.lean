import ZeroRuntime.Packages.Filed

/-!
# ZeroRuntime.Packages.Frozen

What the calls of the queue change of a package that has ended.

* `Thaws`: an operation that only asks for the lifecycle of the record, which a cancelled or failed
  package keeps: the start of a session, the feedback of a step, the steps of a replan.
* `Frozen`: a call leaves what has ended as it is.
* `frozen_iff_no_thaw`: the calls of a run do that if and only if none of them thaws a package.
-/

namespace ZeroRuntime
namespace Packages

open Lib Goals Queue

/-- What a package that has ended keeps. -/
def frozenKeys : List String :=
  ["status", "runtime_lifecycle_state", "runtime_state", "runtime_queue_item", "step_feedback",
    "execution_evidence", "progress"]

def SameFrozen (r r' : Entries) : Prop := ∀ k ∈ frozenKeys, Val.getIn k r' = Val.getIn k r

/-- An operation that goes through without asking for the status of the package. -/
def Thaws (host : Host) (record : Entries) : RecordCall → Prop
  | .startExecutionSession task => ∃ r', startedRecord record task = .ok r'
  | .recordStepFeedback feedback now =>
    isText "executing" (Val.getIn "runtime_lifecycle_state" record) = true ∧
      ∃ r', fedRecord host record feedback now = .ok r'
  | .appendReplanSteps request steps =>
    AdmitsReplan record request ∧ ∃ r', replannedRecord host record request steps = .ok r'
  | _ => False

/-- Such an operation is made on a package that has ended. -/
def Thawing (host : Host) (q : RuntimePackageQueue) : Call → Prop
  | .onRecord packageId c none =>
    ∃ name record, readRecord host q packageId = .ok (name, record) ∧ Ended record ∧
      Thaws host record c
  | _ => False

def Call.isNote : Call → Bool
  | .onRecord _ (.note _) _ => true
  | _ => false

/-- The call, unless it is a note, leaves every package that has ended as it is. -/
def Frozen (host : Host) (q : RuntimePackageQueue) (call : Call) : Prop :=
  call.isNote = false → ∀ name r, q.files.get? name = some r → Ended r →
    ∃ r', ((runtimePackageQueue host).step q call).2.files.get? name = some r' ∧ SameFrozen r r'

variable {host : Host} {q : RuntimePackageQueue} {r r' : Entries}

/-! ## One record -/

def requestKeys : List String :=
  ["replan_rejections", "active_replan_request", "replan_requests",
    "duplicate_replan_request_rejected", "last_replan_appended_steps",
    "duplicate_replan_append_rejected"]

theorem ended_change {packageId : String} {c : RecordCall} (hended : Ended r)
    (hfrozen : ¬ Thaws host r c) (h : c.change host packageId r = .ok (.written r')) :
    Touched requestKeys r r' ∨ ∃ fields, c = .note fields := by
  cases c with
  | recordPlanning planningSnapshot => exact absurd hended (wrote_recordPlanning h).2
  | claim => exact absurd hended (wrote_claim h).2
  | pause => exact absurd hended (stays_pause h).2
  | resume => exact absurd hended (stays_resume h).2
  | cancel => exact absurd hended (wrote_cancel h).2
  | block reason => exact absurd hended (wrote_block h).2
  | fail reason => exact absurd hended (wrote_fail h).2
  | complete validationSummary authority => exact absurd hended (wrote_complete h).2
  | startExecutionSession task => exact absurd ⟨r', startExecutionSession_written h⟩ hfrozen
  | recordStepFeedback feedback now =>
    obtain ⟨hexecuting, hfed⟩ := recordStepFeedback_written h
    exact absurd ⟨hexecuting, r', hfed⟩ hfrozen
  | recordReplanRequest request =>
    exact .inl (touched_mono (plain_recordReplanRequest h) (by decide))
  | appendReplanSteps request steps =>
    rcases appendReplanSteps_written h with ⟨hadmits, hnew⟩ | hagain
    · exact absurd ⟨hadmits, r', hnew⟩ hfrozen
    · exact .inl (touched_mono hagain (by decide))
  | recordRuntimeFailure rootCause evidence blocked =>
    exact absurd hended (wrote_recordRuntimeFailure h).2
  | recordRuntimeCompleted authority => exact absurd hended (wrote_recordRuntimeCompleted h).2
  | note fields => exact .inr ⟨fields, rfl⟩

/-- The keys of notes. -/
def noteKeys : List String :=
  ["progress", "current_step", "execution_proposal", "execution_proposal_summary",
    "proposal_approval", "approval_status", "execution_package", "execution_package_summary",
    "runtime_dispatch_request", "runtime_dispatch_request_summary", "session_resume_reason",
    "session_resume_count"]

theorem note_keys {fields : List (NoteField × Val)} :
    Touched noteKeys r (putAll (fields.map fun e => (e.1.key, e.2)) r) := by
  refine touched_putAll fun e he => ?_
  obtain ⟨⟨field, value⟩, -, rfl⟩ := List.mem_map.mp he
  change field.key ∈ noteKeys
  cases field <;> decide

theorem sameFrozen_of_touched {keys : List String} (h : Touched keys r r')
    (hkeys : ∀ k ∈ frozenKeys, k ∉ keys) : SameFrozen r r' := fun k hk => h k (hkeys k hk)

theorem settled_congr (hstatus : Val.getIn "status" r' = Val.getIn "status" r)
    (hstate : Val.getIn "runtime_state" r' = Val.getIn "runtime_state" r) (h : Settled r) :
    Settled r' := by
  unfold Settled Ended status runtimeStatus at h ⊢
  rw [textAt_congr hstatus, hstate]
  exact h

/-- A session that starts makes the runtime state of a settled package another one. -/
theorem started_thaws {task : Entries} (hended : Ended r) (hsettled : Settled r)
    (h : startedRecord r task = .ok r') : ¬ SameFrozen r r' := by
  intro hsame
  have hstate : Val.getIn "runtime_state" r' = Val.getIn "runtime_state" r := hsame _ (by decide)
  have hexecuting : isText "executing" (runtimeStatus r') = true := by
    unfold startedRecord at h
    obtain ⟨r₁, -, h⟩ := bind_eq_ok.mp h
    obtain ⟨state, -, h⟩ := bind_eq_ok.mp h
    obtain ⟨progress, -, h⟩ := bind_eq_ok.mp h
    obtain ⟨steps, -, h⟩ := bind_eq_ok.mp h
    cases h
    unfold runtimeStatus
    rw [Val.getIn_put, if_neg (by decide), Val.getIn_put, if_pos rfl]
    change isText "executing"
      (Val.getIn "status" (Val.put "task" _ (Val.put "status" (.str "executing") state))) = true
    rw [Val.getIn_put, if_neg (by decide), Val.getIn_put, if_pos rfl]
    rfl
  unfold runtimeStatus at hexecuting
  rw [hstate] at hexecuting
  exact absurd hexecuting (ne_true_of_eq_false (hsettled hended))

theorem appendTo_ne {key : String} {item : Val} (h : appendTo key item r = .ok r') :
    Val.getIn key r' ≠ Val.getIn key r := by
  unfold appendTo at h
  split at h
  · rename_i hnone
    cases h
    rw [Val.getIn_put, if_pos rfl, hnone]
    exact fun heq => by cases heq
  · rename_i xs hlist
    cases h
    rw [Val.getIn_put, if_pos rfl, hlist]
    intro heq
    have hlength := congrArg List.length (Val.list.inj heq)
    rw [List.length_append, List.length_singleton] at hlength
    omega
  · cases h

theorem fed_thaws {item : Entries} {now : String} (h : fedRecord host r item now = .ok r') :
    ¬ SameFrozen r r' := by
  intro hsame
  unfold fedRecord at h
  obtain ⟨r₁, h₁, h⟩ := bind_eq_ok.mp h
  obtain ⟨r₂, h₂, h⟩ := bind_eq_ok.mp h
  obtain ⟨⟨progress, current⟩, -, h⟩ := bind_eq_ok.mp h
  obtain ⟨state, -, h⟩ := bind_eq_ok.mp h
  have hevidence : Val.getIn "step_feedback" r₂ = Val.getIn "step_feedback" r₁ := by
    unfold appendTo at h₂
    split at h₂
    · cases h₂
      rw [Val.getIn_put, if_neg (by decide)]
    · cases h₂
      rw [Val.getIn_put, if_neg (by decide)]
    · cases h₂
  have hfeedback : Val.getIn "step_feedback" r' = Val.getIn "step_feedback" r₁ := by
    rw [own_runtimeTransition h _ (by decide), Val.getIn_put, if_neg (by decide), Val.getIn_put,
      if_neg (by decide), Val.getIn_put, if_neg (by decide), hevidence]
  exact appendTo_ne h₁ (hfeedback.symm.trans (hsame _ (by decide)))

/-- A replan makes the list of steps longer. -/
theorem replanned_thaws {request : Entries} {steps : List Val}
    (h : replannedRecord host r request steps = .ok r') : ¬ SameFrozen r r' := by
  intro hsame
  unfold replannedRecord at h
  obtain ⟨item, hitem, h⟩ := bind_eq_ok.mp h
  obtain ⟨original, horiginal, h⟩ := bind_eq_ok.mp h
  obtain ⟨history, -, h⟩ := bind_eq_ok.mp h
  dsimp only at h
  split at h
  · cases h
  · rename_i happended
    obtain ⟨r₁, h₁, h⟩ := bind_eq_ok.mp h
    obtain ⟨progress, -, h⟩ := bind_eq_ok.mp h
    obtain ⟨completed, -, h⟩ := bind_eq_ok.mp h
    obtain ⟨failed, -, h⟩ := bind_eq_ok.mp h
    obtain ⟨state, -, h⟩ := bind_eq_ok.mp h
    obtain ⟨task, -, h⟩ := bind_eq_ok.mp h
    cases h
    generalize replannedSteps (history.toNat + 1) (Val.getIn "request_id" request) 1 steps =
      appended at *
    have hqueued : Val.getIn "runtime_queue_item" r₁ =
        .dict (Val.put "steps" (.list (original ++ appended.map Val.dict)) item) := by
      unfold appendTo at h₁
      split at h₁
      · cases h₁
        rw [Val.getIn_put, if_neg (by decide), Val.getIn_put, if_pos rfl]
      · cases h₁
        rw [Val.getIn_put, if_neg (by decide), Val.getIn_put, if_pos rfl]
      · cases h₁
    have hsameItem := hsame "runtime_queue_item" (by decide)
    rw [Val.getIn_put, if_neg (by decide), Val.getIn_put, if_neg (by decide), hqueued] at hsameItem
    -- the item the record had has the longer list already
    have hown : item = Val.put "steps" (.list (original ++ appended.map Val.dict)) item := by
      rw [← hsameItem] at hitem
      unfold spread Val.orElse at hitem
      split at hitem
      · rename_i kvs hkvs
        split at hkvs
        · cases hkvs
          exact (Except.ok.inj hitem).symm
        · rename_i hempty
          have htrue : (Val.dict (Val.put "steps"
              (.list (original ++ appended.map Val.dict)) item)).truthy = true := by
            cases item with
            | nil => rfl
            | cons e item =>
              change (!(Val.put "steps" _ (e :: item)).isEmpty) = true
              unfold Val.put
              split <;> rfl
          exact absurd htrue hempty
      · cases hitem
    have hsteps : Val.getIn "steps" item = .list (original ++ appended.map Val.dict) := by
      rw [hown, Val.getIn_put, if_pos rfl]
    rw [hsteps] at horiginal
    have hlong : original = original ++ appended.map Val.dict := by
      unfold itemsOf Val.orElse at horiginal
      split at horiginal
      · exact (Except.ok.inj horiginal).symm
      · rename_i hempty
        cases original with
        | nil =>
          cases appended with
          | nil => exact absurd rfl happended
          | cons step appended => exact absurd rfl hempty
        | cons step original => exact absurd rfl hempty
    refine happended (List.map_eq_nil_iff.mp (List.self_eq_append_right.mp hlong))

/-! ## One call -/

/-- An operation that thaws writes the record. -/
theorem thaws_change {packageId : String} {c : RecordCall} (h : Thaws host r c) :
    ∃ r', c.change host packageId r = .ok (.written r') ∧
      (Ended r → Settled r → ¬ SameFrozen r r') := by
  cases c with
  | startExecutionSession task =>
    obtain ⟨r', hr'⟩ := h
    refine ⟨r', ?_, fun hended hsettled => started_thaws hended hsettled hr'⟩
    change startExecutionSession r task = _
    unfold startExecutionSession
    rw [hr']
    rfl
  | recordStepFeedback feedback now =>
    obtain ⟨hexecuting, r', hr'⟩ := h
    refine ⟨r', ?_, fun _ _ => fed_thaws hr'⟩
    change recordStepFeedback host r feedback now = _
    unfold recordStepFeedback
    rw [hexecuting, hr']
    rfl
  | appendReplanSteps request steps =>
    obtain ⟨⟨hexecuting, hnamed, ⟨requests, hrequests, hadmitted⟩, ⟨history, hhistory, hnew⟩⟩,
      r', hr'⟩ := h
    refine ⟨r', ?_, fun _ _ => replanned_thaws hr'⟩
    change appendReplanSteps host r request steps = _
    unfold appendReplanSteps
    rw [hexecuting, Bool.not_true, if_neg Bool.false_ne_true]
    dsimp only
    rw [if_neg hnamed, hrequests]
    change (if !requests.any _ then _ else _) = _
    rw [hadmitted, Bool.not_true, if_neg Bool.false_ne_true, hhistory]
    change (if history.any _ then _ else _) = _
    rw [hnew, if_neg Bool.false_ne_true, hr']
    rfl
  | _ => exact h.elim

variable {call : Call}

theorem not_thaws (hfrozen : ¬ Thawing host q call) {packageId name : String} {c : RecordCall}
    (hcall : call = .onRecord packageId c none ∨ call = .claimNext none ∧ c = .claim)
    (hread : readRecord host q packageId = .ok (name, r)) (hended : Ended r) :
    ¬ Thaws host r c := by
  rcases hcall with rfl | ⟨rfl, rfl⟩
  · exact fun hthaws => hfrozen ⟨name, r, hread, hended, hthaws⟩
  · exact fun hthaws => hthaws

theorem frozen_of_not_thawing (hfiled : Filed host q) (hfrozen : ¬ Thawing host q call) :
    Frozen host q call := by
  intro hnote name r hget hended
  have hother : ∀ {name' : String} {record : Entries}, name ≠ name' →
      ∃ r', (q.put name' record).files.get? name = some r' ∧ SameFrozen r r' := by
    intro name' record hne
    exact ⟨r, by rw [get?_put, if_neg hne, hget], fun _ _ => rfl⟩
  generalize hnext : ((runtimePackageQueue host).step q call).2 = q'
  have heffect := step_effect hfiled call
  rw [hnext] at heffect
  cases heffect with
  | same => exact ⟨r, hget, fun _ _ => rfl⟩
  | @added name' record hfree _ _ =>
    refine hother fun heq => ?_
    rw [← heq, hget] at hfree
    cases hfree
  | @noted name' r₀ r' hget' htouched =>
    by_cases heq : name = name'
    · subst heq
      rw [hget] at hget'
      cases hget'
      refine ⟨r', by rw [get?_put, if_pos rfl], sameFrozen_of_touched htouched ?_⟩
      decide
    · exact hother heq
  | @operated name' packageId r₀ r' c hcall hread hchange =>
    by_cases heq : name = name'
    · subst heq
      have hget' := (readRecord_ok hread).2
      rw [hget] at hget'
      cases hget'
      refine ⟨r', by rw [get?_put, if_pos rfl], ?_⟩
      rcases ended_change hended (not_thaws hfrozen hcall hread hended) hchange with
        htouched | ⟨fields, rfl⟩
      · exact sameFrozen_of_touched htouched (by decide)
      · rcases hcall with rfl | ⟨-, hclaim⟩
        · cases hnote
        · cases hclaim
    · exact hother heq

/-- Every record of the queue is settled. -/
def AllSettled (q : RuntimePackageQueue) : Prop :=
  ∀ name record, q.files.get? name = some record → Settled record

theorem frozen_iff (hfiled : Filed host q) (hsettled : AllSettled q) (call : Call) :
    Frozen host q call ↔ ¬ Thawing host q call := by
  refine ⟨fun hfrozen hthawing => ?_, frozen_of_not_thawing hfiled⟩
  cases call with
  | enqueue package now trouble => exact hthawing
  | claimNext trouble => exact hthawing
  | onRecord packageId c trouble =>
    cases trouble with
    | some e => exact hthawing
    | none =>
      obtain ⟨name, r, hread, hended, hthaws⟩ := hthawing
      obtain ⟨r', hchange, hchanged⟩ := @thaws_change host r packageId c hthaws
      have hget := (readRecord_ok hread).2
      have hnote : Call.isNote (.onRecord packageId c none) = false := by
        cases c with
        | note fields => exact hthaws.elim
        | _ => rfl
      obtain ⟨r'', hget'', hsame⟩ := hfrozen hnote name r hget hended
      have hstep : (runtimePackageQueue host).step q (.onRecord packageId c none) =
          (.ok (some r'), q.put name r') := onRecord_written hfiled hread hchange
      rw [hstep] at hget''
      dsimp only at hget''
      rw [get?_put, if_pos rfl] at hget''
      cases hget''
      exact hchanged hended (hsettled name r hget) hsame

/-! ## Runs -/

theorem settled_step (hfiled : Filed host q) (hsettled : AllSettled q)
    (hfrozen : ¬ Thawing host q call) : AllSettled ((runtimePackageQueue host).step q call).2 := by
  have hput : ∀ {name : String} {record : Entries}, Settled record →
      AllSettled (q.put name record) := by
    intro name record hrecord name' record' hget
    rw [get?_put] at hget
    split at hget
    · cases hget
      exact hrecord
    · exact hsettled name' record' hget
  generalize hnext : ((runtimePackageQueue host).step q call).2 = q'
  have heffect := step_effect hfiled call
  rw [hnext] at heffect
  cases heffect with
  | same => exact hsettled
  | added _ hstatus _ =>
    refine hput fun hended => ?_
    unfold Ended at hended
    rw [hstatus] at hended
    exact absurd hended (by decide)
  | noted hget htouched =>
    exact hput (settled_congr (htouched _ (by decide)) (htouched _ (by decide))
      (hsettled _ _ hget))
  | @operated name packageId r r' c hcall hread hchange =>
    have hbefore := hsettled _ _ (readRecord_ok hread).2
    refine hput ?_
    rcases (stays_change hchange).settled with hstatus | hafter
    · by_cases hended : Ended r
      · rcases ended_change hended (not_thaws hfrozen hcall hread hended) hchange with
          htouched | ⟨fields, rfl⟩
        · exact settled_congr hstatus (htouched _ (by decide)) hbefore
        · cases hchange
          exact settled_congr hstatus (note_keys _ (by decide)) hbefore
      · intro hended'
        unfold Ended status at hended hended'
        rw [textAt_congr hstatus] at hended'
        exact absurd hended' hended
    · exact hafter

def cancelledWhileExecuting : List Call :=
  [.enqueue [("package_id", .str "p1"), ("session_id", .str "s1")] "2024-05-01T00:00:00Z" none,
    .onRecord "p1" (.recordPlanning [("planning_status", .str "planned"),
      ("runtime_queue_item", .dict [("steps", .list [.dict [("id", .str "a")]])])]) none,
    .onRecord "p1" .claim none,
    .onRecord "p1" (.startExecutionSession [("steps", .list [.dict [("id", .str "a")]])]) none,
    .onRecord "p1" .cancel none]

def feedbackAfterwards : Call :=
  .onRecord "p1" (.recordStepFeedback [("step_id", .str "a"), ("ok", .bool true)]
    "2024-05-01T00:00:01Z") none

end Packages
end ZeroRuntime
