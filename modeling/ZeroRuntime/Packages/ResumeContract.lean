import ZeroRuntime.Packages.Claims
import ZeroRuntime.Packages.Frozen
import ZeroRuntime.Packages.Session

/-!
# ZeroRuntime.Packages.ResumeContract

Whether the resume contract counts the steps it names.

* The counts are those of the progress, the ids those of the feedback. `Aligned`: they agree.
* A contract tells the truth if and only if the record it is made of is aligned
  (`tellsTruth_checkpointed`).
* `contract_tellsTruth_iff`: over the calls of a session it does, as long as no session is started
  on a record that has feedback.
-/

namespace ZeroRuntime
namespace Packages

open Lib Goals Queue

/-! ## Records -/

def Executing (record : Entries) : Prop :=
  isText "executing" (Val.getIn "runtime_lifecycle_state" record) = true

instance decidableExecuting (record : Entries) : Decidable (Executing record) :=
  inferInstanceAs (Decidable (_ = true))

/-- Where the progress counts the steps that are done, or failed. -/
def countKey (ok : Bool) : String := if ok then "completed_steps" else "failed_steps"

/-- The contract counts the steps it names. -/
def TellsTruth (record : Entries) : Prop :=
  ∀ ok, ∃ ids : List String,
    Val.getIn (countKey ok) (mappingAt "session_resume_contract" record) =
      countedSteps ids.length ids

/-- The progress counts the steps that were fed back. -/
def Aligned (host : Host) (record : Entries) : Prop :=
  ∀ ok, countAt host (countKey ok) (mappingAt "progress" record) =
    .ok (stepIds ok (feedbackOf record)).length

/-- An item of the feedback says which step it is about. -/
def CarriesId : Val → Prop
  | .dict item => textAt "step_id" item ≠ ""
  | _ => False

instance decidableCarriesId : (v : Val) → Decidable (CarriesId v)
  | .dict item => inferInstanceAs (Decidable (textAt "step_id" item ≠ ""))
  | .none | .bool _ | .int _ | .str _ | .list _ | .other _ _ _ => .isFalse id

def CarriesIds (record : Entries) : Prop := ∀ v ∈ feedbackOf record, CarriesId v

def SessionCall.Carries : SessionCall → Prop
  | .recordStepFeedback feedback => textAt "step_id" feedback ≠ ""
  | _ => True

instance decidableCarriesIds (record : Entries) : Decidable (CarriesIds record) :=
  inferInstanceAs (Decidable (∀ v ∈ feedbackOf record, CarriesId v))

instance decidableCarries : (call : SessionCall) → Decidable call.Carries
  | .recordStepFeedback feedback => inferInstanceAs (Decidable (textAt "step_id" feedback ≠ ""))
  | .claim | .pause | .resume | .startExecutionSession _ | .replan _ | .captureSessionResume _
  | .markSessionResumed => .isTrue trivial

/-- A session is started on a record that has feedback already. -/
def Restarts (host : Host) (record : Entries) (c : Timed SessionCall) : Prop :=
  feedbackOf record ≠ [] ∧ (∃ task, c.call = .startExecutionSession task) ∧
    ∃ r, ((session host).step record c).1 = .ok r

variable {host : Host} {r r' : Entries}

/-! ## The contract -/

variable {now : String}

theorem getIn_contract {contract : Entries} (h : sessionResumeContract host now r = .ok contract)
    (ok : Bool) :
    ∃ n, countAt host (countKey ok) (mappingAt "progress" r) = .ok n ∧
      Val.getIn (countKey ok) contract = countedSteps n (stepIds ok (feedbackOf r)) := by
  unfold sessionResumeContract at h
  dsimp only at h
  obtain ⟨lineage, -, h⟩ := bind_eq_ok.mp h
  obtain ⟨cursor, -, h⟩ := bind_eq_ok.mp h
  obtain ⟨completed, hcompleted, h⟩ := bind_eq_ok.mp h
  obtain ⟨failed, hfailed, h⟩ := bind_eq_ok.mp h
  obtain ⟨evidence, -, h⟩ := bind_eq_ok.mp h
  obtain ⟨replans, -, h⟩ := bind_eq_ok.mp h
  cases h
  cases ok with
  | true => exact ⟨completed, hcompleted, by simp [putAll, countKey]⟩
  | false => exact ⟨failed, hfailed, by simp [putAll, countKey]⟩

theorem countedSteps_inj {n m : ℤ} {ids ids' : List String}
    (h : countedSteps n ids = countedSteps m ids') : n = m ∧ ids = ids' := by
  unfold countedSteps at h
  simp only [Val.dict.injEq, List.cons.injEq, Prod.mk.injEq, Val.int.injEq, Val.list.injEq,
    true_and, and_true] at h
  exact ⟨h.1, List.map_injective_iff.mpr (fun _ _ => Val.str.inj) h.2⟩

theorem touched_checkpointed (h : checkpointed host now r = .ok r') :
    Touched ["session_resume_contract"] r r' := by
  obtain ⟨contract, -, rfl⟩ := map_eq_ok.mp h
  exact (Touched.refl _ r).put (by decide) _

/-- A contract tells the truth if and only if the record is aligned. -/
theorem tellsTruth_checkpointed (h : checkpointed host now r = .ok r') :
    TellsTruth r' ↔ Aligned host r := by
  unfold checkpointed at h
  cases hcontract : sessionResumeContract host now r with
  | error e =>
    rw [hcontract] at h
    cases h
  | ok contract =>
    rw [hcontract] at h
    cases h
    have hmapping : mappingAt "session_resume_contract"
        (Val.put "session_resume_contract" (.dict contract) r) = contract := by
      rw [mappingAt, Val.getIn_put, if_pos rfl]
      rfl
    refine forall_congr' fun ok => ?_
    obtain ⟨n, hcount, hget⟩ := getIn_contract hcontract ok
    rw [hmapping, hget, hcount]
    constructor
    · rintro ⟨ids, hids⟩
      obtain ⟨hn, hsame⟩ := countedSteps_inj hids
      rw [hn, hsame]
    · intro hn
      exact ⟨_, congrArg (countedSteps · _) (Except.ok.inj hn)⟩

/-! ## What keeps a record aligned -/

variable {key : String}

variable {progress : Entries}

theorem countAt_congr {progress' : Entries} (h : Val.getIn key progress' = Val.getIn key progress) :
    countAt host key progress' = countAt host key progress := by
  unfold countAt
  rw [h]

theorem mappingAt_congr (h : Val.getIn key r' = Val.getIn key r) :
    mappingAt key r' = mappingAt key r := by
  unfold mappingAt
  rw [h]

theorem feedbackOf_congr (h : Val.getIn "step_feedback" r' = Val.getIn "step_feedback" r) :
    feedbackOf r' = feedbackOf r := by
  unfold feedbackOf
  rw [h]

theorem Aligned.congr (h : Aligned host r)
    (hprogress : Val.getIn "progress" r' = Val.getIn "progress" r)
    (hfeedback : Val.getIn "step_feedback" r' = Val.getIn "step_feedback" r) :
    Aligned host r' := by
  intro ok
  rw [mappingAt_congr hprogress, feedbackOf_congr hfeedback]
  exact h ok

theorem spread_eq {v : Val} {kvs : Entries} (h : spread v = .ok kvs) : kvs = v.entries := by
  unfold spread Val.orElse at h
  by_cases htrue : v.truthy = true
  · rw [if_pos htrue] at h
    cases v with
    | dict entries =>
      cases h
      rfl
    | _ => cases h
  · rw [if_neg htrue] at h
    cases h
    cases v with
    | dict entries =>
      cases entries with
      | nil => rfl
      | cons e entries => exact absurd rfl htrue
    | _ => rfl

theorem lifecycle_of_executing (h : Executing r) : lifecycle r = "executing" := by
  unfold Executing isText at h
  split at h
  · rename_i text htext
    exact (textAt_of_str htext).trans (of_decide_eq_true h)
  · cases h

/-- An executing record is aligned, and its contract tells the truth. -/
def Sound (host : Host) (record : Entries) : Prop :=
  Executing record → Aligned host record ∧ TellsTruth record

theorem Sound.of_lifecycle {state : String} (h : lifecycle r = state)
    (hstate : state ≠ "executing") : Sound host r := by
  intro hexecuting
  exact absurd (h.symm.trans (lifecycle_of_executing hexecuting)) hstate

def soundKeys : List String :=
  ["runtime_lifecycle_state", "progress", "step_feedback", "session_resume_contract"]

theorem Sound.congr (h : Sound host r) (hsame : ∀ key ∈ soundKeys,
    Val.getIn key r' = Val.getIn key r) : Sound host r' := by
  intro hexecuting
  have hwas : Executing r := by
    unfold Executing at hexecuting ⊢
    rw [← hsame "runtime_lifecycle_state" (by decide)]
    exact hexecuting
  obtain ⟨haligned, htruth⟩ := h hwas
  refine ⟨haligned.congr (hsame _ (by decide)) (hsame _ (by decide)), fun ok => ?_⟩
  rw [mappingAt_congr (hsame "session_resume_contract" (by decide))]
  exact htruth ok

theorem Sound.of_checkpointed (h : checkpointed host now r = .ok r') (haligned : Aligned host r) :
    Sound host r' := fun _ =>
  ⟨haligned.congr (touched_checkpointed h _ (by decide)) (touched_checkpointed h _ (by decide)),
    (tellsTruth_checkpointed h).mpr haligned⟩

/-! ## One operation -/

theorem sound_claim (h : claim r = .ok (.written r')) : Sound host r' :=
  .of_lifecycle (claim_written h).2.2.2.2.2 (by decide)

theorem sound_pause (h : pause r = .ok (.written r')) : Sound host r' := by
  unfold pause at h
  split at h
  · cases h
  · obtain ⟨r₁, h₁, h⟩ := bind_eq_ok.mp h
    obtain ⟨r₂, h₂, h⟩ := bind_eq_ok.mp h
    cases h
    have hlifecycle : lifecycle r' = lifecycle r₁ := textAt_congr (own_transition h₂ _ (by decide))
    split at h₁
    · exact .of_lifecycle (hlifecycle.trans (lifecycle_runtimeTransition h₁).1) (by decide)
    · rename_i hnot
      cases h₁
      refine .of_lifecycle hlifecycle fun hexecuting => hnot ?_
      rw [hexecuting]
      decide

theorem sound_resume (hsound : Sound host r) (h : resume r = .ok (.written r')) :
    Sound host r' := by
  unfold resume at h
  split at h
  · cases h
  split at h
  · cases h
  split at h
  · cases h
    exact hsound.congr fun key hkey => (Touched.refl ["queue_resume_result"] r).put
      (List.mem_singleton_self _) _ key (by revert hkey key; decide)
  · obtain ⟨r₁, h₁, h⟩ := bind_eq_ok.mp h
    obtain ⟨r₂, h₂, h⟩ := bind_eq_ok.mp h
    cases h
    have htouched := own_transition h₂
    split at h₁
    · exact .of_lifecycle ((textAt_congr (htouched _ (by decide))).trans
        (lifecycle_runtimeTransition h₁).1) (by decide)
    · cases h₁
      exact hsound.congr fun key hkey => htouched key (by revert hkey key; decide)

/-- A session that starts counts nothing, and names what was fed back before. -/
theorem aligned_startedRecord {task : Entries} (h : startedRecord r task = .ok r') :
    Executing r' ∧ feedbackOf r' = feedbackOf r ∧
      ∀ ok, countAt host (countKey ok) (mappingAt "progress" r') = .ok 0 := by
  unfold startedRecord at h
  obtain ⟨r₁, h₁, h⟩ := bind_eq_ok.mp h
  obtain ⟨state, -, h⟩ := bind_eq_ok.mp h
  obtain ⟨progress, -, h⟩ := bind_eq_ok.mp h
  obtain ⟨steps, -, h⟩ := bind_eq_ok.mp h
  cases h
  refine ⟨?_, ?_, fun ok => ?_⟩
  · unfold runtimeTransition at h₁
    split at h₁
    · cases h₁
      simp [Executing, isText]
    · cases h₁
  · refine feedbackOf_congr ?_
    rw [Val.getIn_put, if_neg (by decide), Val.getIn_put, if_neg (by decide),
      own_runtimeTransition h₁ _ (by decide)]
  · rw [mappingAt, Val.getIn_put, if_pos rfl]
    cases ok <;> simp [countAt, countKey, putAll, Val.entries, Val.orElse, Journal.intOf]

variable {item : Entries}

theorem stepIds_append (ok : Bool) (feedback : List Val) (hid : textAt "step_id" item ≠ "") :
    (stepIds ok (feedback ++ [.dict item])).length = (stepIds ok feedback).length +
      if (Val.getIn "ok" item).truthy = ok then 1 else 0 := by
  unfold stepIds
  rw [List.filterMap_append, List.length_append]
  by_cases hok : (Val.getIn "ok" item).truthy = ok
  · simp [hok, hid]
  · simp [hok]

theorem listItems_appendTo {item : Val} (h : appendTo key item r = .ok r') :
    listItems (Val.getIn key r') = listItems (Val.getIn key r) ++ [item] := by
  unfold appendTo at h
  split at h
  · rename_i hnone
    cases h
    rw [Val.getIn_put, if_pos rfl, hnone]
    rfl
  · rename_i xs hlist
    cases h
    rw [Val.getIn_put, if_pos rfl, hlist]
    rfl
  · cases h

theorem touched_appendTo {item : Val} (h : appendTo key item r = .ok r') : Touched [key] r r' := by
  unfold appendTo at h
  split at h
  · cases h
    exact (Touched.refl _ r).put (List.mem_singleton_self key) _
  · cases h
    exact (Touched.refl _ r).put (List.mem_singleton_self key) _
  · cases h

theorem countAt_int {n : ℤ} (h : Val.getIn key progress = .int n) :
    countAt host key progress = .ok n := by
  unfold countAt
  rw [h]
  by_cases hn : n = 0
  · rw [hn]
    rfl
  · have htrue : (Val.int n).truthy = true := decide_eq_true hn
    unfold Val.orElse
    rw [if_pos htrue]
    rfl

/-- A step that was fed back is counted once more, where it belongs. -/
theorem countAt_stepProgress {current : ℤ} (h : stepProgress host r item = .ok (progress, current))
    (ok : Bool) {n : ℤ} (hcount : countAt host (countKey ok) (mappingAt "progress" r) = .ok n) :
    countAt host (countKey ok) progress =
      .ok (n + if (Val.getIn "ok" item).truthy = ok then 1 else 0) := by
  unfold stepProgress at h
  obtain ⟨before, hbefore, h⟩ := bind_eq_ok.mp h
  obtain ⟨total, -, h⟩ := bind_eq_ok.mp h
  dsimp only at h
  obtain ⟨completed, hcompleted, h⟩ := bind_eq_ok.mp h
  obtain ⟨failed, hfailed, h⟩ := bind_eq_ok.mp h
  obtain ⟨reached, -, h⟩ := bind_eq_ok.mp h
  obtain ⟨step, -, h⟩ := bind_eq_ok.mp h
  cases h
  have hsame : before = mappingAt "progress" r := spread_eq hbefore
  rw [hsame] at hcompleted hfailed
  cases ok with
  | true =>
    obtain rfl := Except.ok.inj (hcompleted.symm.trans hcount)
    exact countAt_int (by simp [putAll, countKey])
  | false =>
    obtain rfl := Except.ok.inj (hfailed.symm.trans hcount)
    refine countAt_int ?_
    cases (Val.getIn "ok" item).truthy with
    | true => simp [putAll, countKey]
    | false => simp [putAll, countKey]

theorem fedRecord_parts (h : fedRecord host r item now = .ok r') :
    feedbackOf r' = feedbackOf r ++ [.dict item] ∧
      ∃ r₂ progress current, mappingAt "progress" r₂ = mappingAt "progress" r ∧
        stepProgress host r₂ item = .ok (progress, current) ∧
        mappingAt "progress" r' = progress := by
  unfold fedRecord at h
  obtain ⟨r₁, h₁, h⟩ := bind_eq_ok.mp h
  obtain ⟨r₂, h₂, h⟩ := bind_eq_ok.mp h
  obtain ⟨⟨progress, current⟩, hprogress, h⟩ := bind_eq_ok.mp h
  obtain ⟨state, -, h⟩ := bind_eq_ok.mp h
  have hmoved := own_runtimeTransition h
  refine ⟨?_, r₂, progress, current, ?_, hprogress, ?_⟩
  · refine Eq.trans (feedbackOf_congr ?_) (listItems_appendTo h₁)
    rw [hmoved _ (by decide), Val.getIn_put, if_neg (by decide), Val.getIn_put,
      if_neg (by decide), Val.getIn_put, if_neg (by decide), touched_appendTo h₂ _ (by decide)]
  · exact mappingAt_congr
      ((touched_appendTo h₂ _ (by decide)).trans (touched_appendTo h₁ _ (by decide)))
  · unfold mappingAt
    rw [hmoved _ (by decide), Val.getIn_put, if_neg (by decide), Val.getIn_put,
      if_neg (by decide), Val.getIn_put, if_pos rfl]
    rfl

theorem aligned_fedRecord (haligned : Aligned host r) (hid : textAt "step_id" item ≠ "")
    (h : fedRecord host r item now = .ok r') : Aligned host r' := by
  obtain ⟨hfeedback, r₂, progress, current, hbefore, hprogress, hafter⟩ := fedRecord_parts h
  intro ok
  have hcount := haligned ok
  rw [← hbefore] at hcount
  rw [hafter, countAt_stepProgress hprogress ok hcount, hfeedback, stepIds_append ok _ hid]
  split <;> rfl

variable {request : Entries}

variable {steps : List Val}

/-- A replan lengthens the list of steps and leaves the counts of those that are done. -/
theorem replannedRecord_counts (h : replannedRecord host r request steps = .ok r') :
    Val.getIn "step_feedback" r' = Val.getIn "step_feedback" r ∧
      ∀ ok, Val.getIn (countKey ok) (mappingAt "progress" r') =
        Val.getIn (countKey ok) (mappingAt "progress" r) := by
  unfold replannedRecord at h
  obtain ⟨item, -, h⟩ := bind_eq_ok.mp h
  obtain ⟨original, -, h⟩ := bind_eq_ok.mp h
  obtain ⟨history, -, h⟩ := bind_eq_ok.mp h
  dsimp only at h
  split at h
  · cases h
  · obtain ⟨r₁, h₁, h⟩ := bind_eq_ok.mp h
    obtain ⟨progress, hprogress, h⟩ := bind_eq_ok.mp h
    obtain ⟨completed, -, h⟩ := bind_eq_ok.mp h
    obtain ⟨failed, -, h⟩ := bind_eq_ok.mp h
    obtain ⟨state, -, h⟩ := bind_eq_ok.mp h
    obtain ⟨task, -, h⟩ := bind_eq_ok.mp h
    cases h
    have htouched := touched_appendTo h₁
    have hsame : progress = mappingAt "progress" r := by
      rw [spread_eq hprogress, htouched _ (by decide), Val.getIn_put, if_neg (by decide)]
      rfl
    constructor
    · rw [Val.getIn_put, if_neg (by decide), Val.getIn_put, if_neg (by decide),
        htouched _ (by decide), Val.getIn_put, if_neg (by decide)]
    · intro ok
      rw [mappingAt, Val.getIn_put, if_neg (by decide), Val.getIn_put, if_pos rfl, ← hsame]
      cases ok <;> simp [putAll, countKey, Val.entries]

theorem Aligned.of_counts (h : Aligned host r)
    (hfeedback : Val.getIn "step_feedback" r' = Val.getIn "step_feedback" r)
    (hcounts : ∀ ok, Val.getIn (countKey ok) (mappingAt "progress" r') =
      Val.getIn (countKey ok) (mappingAt "progress" r)) : Aligned host r' := by
  intro ok
  rw [countAt_congr (hcounts ok), feedbackOf_congr hfeedback]
  exact h ok

/-- The graph has keys of its own. -/
theorem touched_graphedRecord (h : graphedRecord r = .ok r') :
    Touched ["task_graph", "task_graph_summary"] r r' := by
  unfold graphedRecord at h
  obtain ⟨items, -, h⟩ := bind_eq_ok.mp h
  obtain ⟨steps, -, h⟩ := bind_eq_ok.mp h
  obtain ⟨summary, -, h⟩ := bind_eq_ok.mp h
  cases h
  exact ((Touched.refl _ r).put (by decide) _).put (by decide) _

variable {call : ReplanCall}

theorem executing_of_replan (h : call.written host r = .ok (.written r')) : Executing r := by
  by_contra hnot
  have hguard : (!isText "executing" (Val.getIn "runtime_lifecycle_state" r)) = true := by
    rw [Bool.not_eq_true', ← Bool.not_eq_true]
    exact hnot
  cases call with
  | recordReplanRequest request =>
    unfold ReplanCall.written recordReplanRequest at h
    dsimp only at h
    rw [if_pos hguard] at h
    cases h
  | appendReplanSteps request steps =>
    unfold ReplanCall.written appendReplanSteps at h
    dsimp only at h
    rw [if_pos hguard] at h
    cases h

theorem appendedBefore_eq {again : Bool} (h : appendedBefore r request = .ok again) :
    ∃ history, itemsOf (Val.getIn "replan_history" r) = .ok history ∧
      history.any (namesRequest (Val.getIn "request_id" request).text) = again := by
  obtain ⟨history, hhistory, h⟩ := bind_eq_ok.mp h
  exact ⟨history, hhistory, Except.ok.inj h⟩

theorem appended_anew (hnew : appendedBefore r request = .ok false)
    (h : appendReplanSteps host r request steps = .ok (.written r')) :
    AdmitsReplan r request ∧ replannedRecord host r request steps = .ok r' := by
  obtain ⟨history, hhistory, hany⟩ := appendedBefore_eq hnew
  unfold appendReplanSteps at h
  split at h
  · cases h
  · rename_i hexecuting
    rw [Bool.not_eq_true, Bool.not_eq_false'] at hexecuting
    dsimp only at h
    split at h
    · cases h
    · rename_i hnamed
      obtain ⟨admitted, hadmitted, h⟩ := bind_eq_ok.mp h
      split at h
      · cases h
      · rename_i hrequest
        rw [Bool.not_eq_true, Bool.not_eq_false'] at hrequest
        rw [hhistory] at h
        obtain ⟨history', hsame, h⟩ := bind_eq_ok.mp h
        cases hsame
        rw [hany, if_neg Bool.false_ne_true] at h
        obtain ⟨r₁, h₁, h⟩ := bind_eq_ok.mp h
        cases h
        exact ⟨⟨hexecuting, hnamed, ⟨admitted, hadmitted, hrequest⟩, ⟨history, hhistory, hany⟩⟩,
          h₁⟩

/-- A request that was appended before only leaves a note. -/
theorem appended_again (hagain : appendedBefore r request = .ok true)
    (h : appendReplanSteps host r request steps = .ok (.written r')) :
    Touched ["last_replan_appended_steps", "duplicate_replan_append_rejected"] r r' := by
  rcases appendReplanSteps_written h with ⟨hadmits, -⟩ | htouched
  · obtain ⟨history, hhistory, hany⟩ := appendedBefore_eq hagain
    obtain ⟨history', hhistory', hnone⟩ := hadmits.new
    obtain rfl := Except.ok.inj (hhistory.symm.trans hhistory')
    rw [hany] at hnone
    cases hnone
  · exact htouched

/-- Steps are appended: the record gets them, and then their graph. -/
structure Appends (host : Host) (record request : Entries) (steps : List Val) (result : Entries) :
    Prop where
  admits : AdmitsReplan record request
  new : appendedBefore record request = .ok false
  drawn : ∃ r₁, replannedRecord host record request steps = .ok r₁ ∧ graphedRecord r₁ = .ok result

/-- What a call on replans writes is a note, or the record with more steps and their graph. -/
theorem replan_written (h : call.written host r = .ok (.written r')) :
    Touched requestKeys r r' ∨
      ∃ request steps, call = .appendReplanSteps request steps ∧
        Appends host r request steps r' := by
  cases call with
  | recordReplanRequest request =>
    exact .inl (touched_mono (plain_recordReplanRequest h) (by decide))
  | appendReplanSteps request steps =>
    obtain ⟨outcome, houtcome, h⟩ := bind_eq_ok.mp h
    cases outcome with
    | kept r₁ => cases h
    | written r₁ =>
      obtain ⟨again, hagain, h⟩ := bind_eq_ok.mp h
      cases again with
      | true =>
        rw [if_pos rfl] at h
        cases h
        exact .inl (touched_mono (appended_again hagain houtcome) (by decide))
      | false =>
        rw [if_neg Bool.false_ne_true] at h
        obtain ⟨r₂, h₂, hr₂⟩ := map_eq_ok.mp h
        cases hr₂
        obtain ⟨hadmits, hreplanned⟩ := appended_anew hagain houtcome
        exact .inr ⟨request, steps, rfl, hadmits, hagain, r₁, hreplanned, h₂⟩

theorem aligned_replan (haligned : Aligned host r) (h : call.written host r = .ok (.written r')) :
    Aligned host r' := by
  rcases replan_written h with htouched | ⟨request, steps, -, happends⟩
  · exact haligned.congr (htouched _ (by decide)) (htouched _ (by decide))
  · obtain ⟨r₁, hreplanned, hgraphed⟩ := happends.drawn
    obtain ⟨hfeedback, hcounts⟩ := replannedRecord_counts hreplanned
    have htouched := touched_graphedRecord hgraphed
    exact (haligned.of_counts hfeedback hcounts).congr (htouched _ (by decide))
      (htouched _ (by decide))

theorem captured_written {reason : Val}
    (h : captureSessionResume host r reason = .ok (.written r')) :
    Executing r ∧ ∃ count, r' = putAll
      [("session_resume_reason", .str (reasonOr reason "runtime_interrupted")),
        ("session_resume_count", .int count)] r := by
  unfold captureSessionResume at h
  split at h
  · cases h
  · rename_i hexecuting
    rw [Bool.not_eq_true, Bool.not_eq_false'] at hexecuting
    obtain ⟨count, -, h⟩ := bind_eq_ok.mp h
    cases h
    exact ⟨hexecuting, count, rfl⟩

theorem resumed_written (h : markSessionResumed host now r = .ok (.written r')) :
    Executing r ∧ ∃ count, r' = putAll
      [("session_resume_count", .int count), ("last_session_resumed_at", .str now)] r := by
  unfold markSessionResumed at h
  split at h
  · cases h
  · rename_i hguard
    rw [Bool.or_eq_true, not_or, Bool.not_eq_true, Bool.not_eq_false'] at hguard
    obtain ⟨count, -, h⟩ := bind_eq_ok.mp h
    cases h
    exact ⟨hguard.1, count + 1, rfl⟩

def resumeKeys : List String :=
  ["session_resume_reason", "session_resume_count", "last_session_resumed_at"]

theorem touched_captured {reason : Val}
    (h : captureSessionResume host r reason = .ok (.written r')) :
    Executing r ∧ Touched resumeKeys r r' := by
  obtain ⟨hexecuting, count, rfl⟩ := captured_written h
  exact ⟨hexecuting, touched_putAll (by simp [resumeKeys])⟩

theorem touched_resumed (h : markSessionResumed host now r = .ok (.written r')) :
    Executing r ∧ Touched resumeKeys r r' := by
  obtain ⟨hexecuting, count, rfl⟩ := resumed_written h
  exact ⟨hexecuting, touched_putAll (by simp [resumeKeys])⟩

/-! ## One call -/

/-- A checkpoint is made of what the operation wrote. -/
theorem checkpointed_written {outcome : Except Err Outcome}
    (h : outcome.bind (Outcome.checkpointed host now) = .ok (.written r')) :
    ∃ r₁, outcome = .ok (.written r₁) ∧ checkpointed host now r₁ = .ok r' := by
  obtain ⟨o, ho, h⟩ := bind_eq_ok.mp h
  cases o with
  | kept r₁ => cases h
  | written r₁ =>
    obtain ⟨r₂, h₂, hr₂⟩ := map_eq_ok.mp h
    cases hr₂
    exact ⟨r₁, ho, h₂⟩

theorem sound_change {call : SessionCall} (hsound : Sound host r) (hcarries : call.Carries)
    (hstart : ∀ task, call = .startExecutionSession task → feedbackOf r = [])
    (h : call.change host now r = .ok (.written r')) : Sound host r' := by
  cases call with
  | claim => exact sound_claim h
  | pause => exact sound_pause h
  | resume => exact sound_resume hsound h
  | startExecutionSession task =>
    obtain ⟨r₁, hr₁, hcheck⟩ := checkpointed_written h
    obtain ⟨-, hfeedback, hcount⟩ :=
      @aligned_startedRecord host r r₁ task (startExecutionSession_written hr₁)
    refine .of_checkpointed hcheck fun ok => ?_
    rw [hcount ok, hfeedback, hstart task rfl]
    rfl
  | recordStepFeedback feedback =>
    obtain ⟨r₁, hr₁, hcheck⟩ := checkpointed_written h
    obtain ⟨hexecuting, hfed⟩ := recordStepFeedback_written hr₁
    exact .of_checkpointed hcheck (aligned_fedRecord (hsound hexecuting).1 hcarries hfed)
  | replan call =>
    obtain ⟨r₁, hr₁, hcheck⟩ := checkpointed_written h
    exact .of_checkpointed hcheck (aligned_replan (hsound (executing_of_replan hr₁)).1 hr₁)
  | captureSessionResume reason =>
    obtain ⟨r₁, hr₁, hcheck⟩ := checkpointed_written h
    obtain ⟨hexecuting, htouched⟩ := touched_captured hr₁
    exact .of_checkpointed hcheck ((hsound hexecuting).1.congr (htouched _ (by decide))
      (htouched _ (by decide)))
  | markSessionResumed =>
    obtain ⟨r₁, hr₁, hcheck⟩ := checkpointed_written h
    obtain ⟨hexecuting, htouched⟩ := touched_resumed hr₁
    exact .of_checkpointed hcheck ((hsound hexecuting).1.congr (htouched _ (by decide))
      (htouched _ (by decide)))

/-- The keys that a claim, a pause or the end of one writes. -/
def transitionKeys : List String :=
  ["runtime_lifecycle_state", "status", "runtime_state", "queue_resume_result"]

theorem touched_transitions {r₁ : Entries} {toStatus : String} {state : Option Entries}
    (h₁ : Touched ["runtime_lifecycle_state"] r r₁)
    (h₂ : transition r₁ toStatus state = .ok r') : Touched transitionKeys r r' :=
  (touched_mono h₁ (by decide)).trans (touched_mono (own_transition h₂) (by decide))

theorem touched_claim (h : claim r = .ok (.written r')) : Touched transitionKeys r r' := by
  unfold claim at h
  split at h
  · cases h
  split at h
  · split at h
    · cases h
    · obtain ⟨r₁, h₁, h⟩ := bind_eq_ok.mp h
      obtain ⟨r₂, h₂, h⟩ := bind_eq_ok.mp h
      cases h
      exact touched_transitions (own_runtimeTransition h₁) h₂
  · cases h

theorem touched_pause (h : pause r = .ok (.written r')) : Touched transitionKeys r r' := by
  unfold pause at h
  split at h
  · cases h
  · obtain ⟨r₁, h₁, h⟩ := bind_eq_ok.mp h
    obtain ⟨r₂, h₂, h⟩ := bind_eq_ok.mp h
    cases h
    refine touched_transitions ?_ h₂
    split at h₁
    · exact own_runtimeTransition h₁
    · cases h₁
      exact Touched.refl _ _

theorem touched_resume (h : resume r = .ok (.written r')) : Touched transitionKeys r r' := by
  unfold resume at h
  split at h
  · cases h
  split at h
  · cases h
  split at h
  · cases h
    exact (Touched.refl _ r).put (by decide) _
  · obtain ⟨r₁, h₁, h⟩ := bind_eq_ok.mp h
    obtain ⟨r₂, h₂, h⟩ := bind_eq_ok.mp h
    cases h
    refine touched_transitions ?_ h₂
    split at h₁
    · exact own_runtimeTransition h₁
    · cases h₁
      exact Touched.refl _ _

theorem feedback_change {call : SessionCall} (h : call.change host now r = .ok (.written r')) :
    feedbackOf r' = feedbackOf r ∨ ∃ item, call = .recordStepFeedback item ∧
      feedbackOf r' = feedbackOf r ++ [.dict item] := by
  have hchecked : ∀ {r₁ : Entries}, checkpointed host now r₁ = .ok r' →
      feedbackOf r' = feedbackOf r₁ := fun hcheck =>
    feedbackOf_congr (touched_checkpointed hcheck _ (by decide))
  cases call with
  | claim => exact .inl (feedbackOf_congr (touched_claim h _ (by decide)))
  | pause => exact .inl (feedbackOf_congr (touched_pause h _ (by decide)))
  | resume => exact .inl (feedbackOf_congr (touched_resume h _ (by decide)))
  | startExecutionSession task =>
    obtain ⟨r₁, hr₁, hcheck⟩ := checkpointed_written h
    exact .inl ((hchecked hcheck).trans
      (@aligned_startedRecord host r r₁ task (startExecutionSession_written hr₁)).2.1)
  | recordStepFeedback feedback =>
    obtain ⟨r₁, hr₁, hcheck⟩ := checkpointed_written h
    obtain ⟨-, hfed⟩ := recordStepFeedback_written hr₁
    exact .inr ⟨feedback, rfl, (hchecked hcheck).trans (fedRecord_parts hfed).1⟩
  | replan call =>
    obtain ⟨r₁, hr₁, hcheck⟩ := checkpointed_written h
    refine .inl ((hchecked hcheck).trans (feedbackOf_congr ?_))
    rcases replan_written hr₁ with htouched | ⟨request, steps, -, happends⟩
    · exact htouched _ (by decide)
    · obtain ⟨r₂, hreplanned, hgraphed⟩ := happends.drawn
      exact (touched_graphedRecord hgraphed _ (by decide)).trans
        (replannedRecord_counts hreplanned).1
  | captureSessionResume reason =>
    obtain ⟨r₁, hr₁, hcheck⟩ := checkpointed_written h
    exact .inl ((hchecked hcheck).trans
      (feedbackOf_congr ((touched_captured hr₁).2 _ (by decide))))
  | markSessionResumed =>
    obtain ⟨r₁, hr₁, hcheck⟩ := checkpointed_written h
    exact .inl ((hchecked hcheck).trans
      (feedbackOf_congr ((touched_resumed hr₁).2 _ (by decide))))

/-! ## Runs -/

/-- A call leaves the record, or writes what its operation made of it and answers with that. -/
theorem answered_cases (r : Entries) (outcome : Except Err Outcome) (trouble : Option Err) :
    (answered r outcome trouble).2 = r ∨
      outcome = .ok (.written (answered r outcome trouble).2) ∧
        (answered r outcome trouble).1 = .ok (answered r outcome trouble).2 := by
  cases outcome with
  | error e => exact .inl rfl
  | ok outcome =>
    cases outcome with
    | kept r₁ => exact .inl rfl
    | written r₁ =>
      cases trouble with
      | some e => exact .inl rfl
      | none => exact .inr ⟨rfl, rfl⟩

theorem session_step (c : Timed SessionCall) :
    ((session host).step r c).2 = r ∨
      c.call.change host c.now r = .ok (.written ((session host).step r c).2) ∧
        ((session host).step r c).1 = .ok ((session host).step r c).2 :=
  answered_cases r (c.call.change host c.now r) c.trouble

variable {c : Timed SessionCall}

theorem carries_step (h : CarriesIds r) (hcarries : c.call.Carries) :
    CarriesIds ((session host).step r c).2 := by
  rcases @session_step host r c with hsame | ⟨hwritten, -⟩
  · rw [hsame]
    exact h
  · intro v hv
    rcases feedback_change hwritten with hsame | ⟨item, hcall, hmore⟩
    · rw [hsame] at hv
      exact h v hv
    · rw [hmore, List.mem_append, List.mem_singleton] at hv
      rcases hv with hv | rfl
      · exact h v hv
      · rw [hcall] at hcarries
        exact hcarries

theorem sound_step (h : Sound host r) (hcarries : c.call.Carries) (hstart : ¬Restarts host r c) :
    Sound host ((session host).step r c).2 := by
  rcases @session_step host r c with hsame | ⟨hwritten, hanswer⟩
  · rw [hsame]
    exact h
  · refine sound_change h hcarries (fun task hcall => ?_) hwritten
    by_contra hne
    exact hstart ⟨hne, ⟨task, hcall⟩, _, hanswer⟩

theorem stepIds_length {feedback : List Val} (h : ∀ v ∈ feedback, CarriesId v) :
    (stepIds true feedback).length + (stepIds false feedback).length = feedback.length := by
  induction feedback with
  | nil => rfl
  | cons v feedback ih =>
    obtain ⟨hv, hfeedback⟩ := List.forall_mem_cons.mp h
    have hrest := ih hfeedback
    cases v with
    | dict item =>
      have hid : textAt "step_id" item ≠ "" := hv
      unfold stepIds at hrest ⊢
      cases hok : (Val.getIn "ok" item).truthy with
      | true =>
        simp [hok, hid] at hrest ⊢
        omega
      | false =>
        simp [hok, hid] at hrest ⊢
        omega
    | _ => exact hv.elim

/-- A session that is started again counts nothing of what its contract names. -/
theorem not_tellsTruth_of_restarts (hcarries : CarriesIds r) (h : Restarts host r c) :
    Executing ((session host).step r c).2 ∧
      ¬TellsTruth ((session host).step r c).2 := by
  obtain ⟨hne, ⟨task, hcall⟩, answer, hanswer⟩ := h
  have hanswered : (session host).step r c =
      answered r (c.call.change host c.now r) c.trouble := rfl
  rw [hanswered] at hanswer ⊢
  rw [hcall] at hanswer ⊢
  cases hchange : (SessionCall.startExecutionSession task).change host c.now r with
  | error e =>
    rw [hchange] at hanswer
    cases hanswer
  | ok outcome =>
    obtain ⟨o, ho, hcheck⟩ := bind_eq_ok.mp hchange
    obtain ⟨r₁, hr₁, hstart⟩ := bind_eq_ok.mp ho
    cases hstart
    obtain ⟨r₂, hr₂, hwritten⟩ := map_eq_ok.mp hcheck
    cases hwritten
    rw [hchange] at hanswer
    cases htrouble : c.trouble with
    | some e =>
      rw [htrouble] at hanswer
      cases hanswer
    | none =>
      obtain ⟨hexecuting, hfeedback, hcount⟩ := @aligned_startedRecord host r r₁ task hr₁
      refine ⟨?_, fun htruth => ?_⟩
      · have hlifecycle :=
          touched_checkpointed hr₂ "runtime_lifecycle_state" (by decide)
        unfold Executing at hexecuting ⊢
        rw [← hlifecycle] at hexecuting
        exact hexecuting
      · have haligned := (tellsTruth_checkpointed hr₂).mp htruth
        have hzero : ∀ ok, (stepIds ok (feedbackOf r)).length = 0 := by
          intro ok
          have hsame := (haligned ok).symm.trans (hcount ok)
          rw [hfeedback] at hsame
          exact Int.ofNat_eq_zero.mp (Except.ok.inj hsame)
        have hlength := stepIds_length hcarries
        rw [hzero, hzero] at hlength
        exact hne (List.length_eq_zero_iff.mp hlength.symm)

/-- The contract of an executing record tells the truth throughout a session if and only if no
session is started on a record that has feedback. -/
theorem contract_tellsTruth_iff (host : Host) (record : Entries) (calls : List (Timed SessionCall))
    (hrecord : ¬Executing record) (hids : CarriesIds record)
    (hcalls : ∀ c ∈ calls, c.call.Carries) :
    (∀ before, before <+: calls → Executing ((session host).run record before) →
      TellsTruth ((session host).run record before)) ↔
      (session host).Guarded (fun r c => ¬Restarts host r c) record calls := by
  have hmem : ∀ before c, before ++ [c] <+: calls → c.call.Carries := fun before c hpre =>
    hcalls c (hpre.subset (List.mem_append_right _ (List.mem_singleton_self c)))
  constructor
  · intro h
    refine Machine.guarded_iff_prefix.mpr fun before c hpre hrestarts => ?_
    have hcarried : (session host).Guarded (fun _ c => c.call.Carries) record before :=
      Machine.guarded_iff_prefix.mpr fun b c' hb =>
        hmem b c' (hb.trans ((List.prefix_append before [c]).trans hpre))
    have hcarries : CarriesIds ((session host).run record before) :=
      hcarried.invariant (fun _ _ hs hc => carries_step hs hc) hids
    obtain ⟨hexecuting, hfalse⟩ := not_tellsTruth_of_restarts hcarries hrestarts
    have htruth := h (before ++ [c]) hpre
    rw [Machine.run_snoc] at htruth
    exact hfalse (htruth hexecuting)
  · intro h before hpre hexecuting
    have hcareful : (session host).Guarded
        (fun r c => c.call.Carries ∧ ¬Restarts host r c) record before :=
      Machine.guarded_iff_prefix.mpr fun b c hb =>
        ⟨hmem b c (hb.trans hpre), Machine.guarded_iff_prefix.mp h b c (hb.trans hpre)⟩
    have hsound : Sound host ((session host).run record before) :=
      hcareful.invariant (fun _ _ hs hc => sound_step hs hc.1 hc.2)
        (fun hexecuting => absurd hexecuting hrecord)
    exact (hsound hexecuting).2

/-! ## A package of two steps -/

def plannedPackage : Entries :=
  [("package_id", .str "p"), ("status", .str "queued"), ("planning_status", .str "planned"),
    ("runtime_lifecycle_state", .str "planned"),
    ("runtime_queue_item", .dict [("steps", .list [.dict [("id", .str "a")],
      .dict [("id", .str "b")]])])]

def timed (call : SessionCall) : Timed SessionCall := { call := call, now := "t" }

def firstStep : List (Timed SessionCall) :=
  [timed .claim, timed (.startExecutionSession []),
    timed (.recordStepFeedback [("step_id", .str "a"), ("ok", .bool true)])]

def pausedOnce : List (Timed SessionCall) :=
  firstStep ++ [timed .pause, timed .resume, timed .claim]

theorem carries_pausedOnce : ∀ c ∈ pausedOnce ++ [timed (.startExecutionSession [])],
    c.call.Carries := by decide

theorem notExecuting_plannedPackage : ¬Executing plannedPackage := by decide

theorem carriesIds_plannedPackage : CarriesIds plannedPackage := nofun

theorem not_restarts (h : ∀ task, c.call ≠ .startExecutionSession task) : ¬Restarts host r c := by
  rintro ⟨-, ⟨task, hcall⟩, -⟩
  exact h task hcall

theorem contract_tellsTruth_iff_firstStep :
    TellsTruth ((session plainHost).run plannedPackage firstStep) :=
  (contract_tellsTruth_iff plainHost plannedPackage firstStep notExecuting_plannedPackage
    carriesIds_plannedPackage (by decide)).mpr
    ⟨not_restarts nofun, fun h => h.1 rfl, not_restarts nofun, trivial⟩ firstStep
    (List.prefix_refl _) (by decide +kernel)

/-- The second start counts nothing, and the contract still names the first step. -/
theorem restarted_session_miscounts : ∃ calls : List (Timed SessionCall),
    ¬Executing plannedPackage ∧ CarriesIds plannedPackage ∧ (∀ c ∈ calls, c.call.Carries) ∧
      Executing ((session plainHost).run plannedPackage calls) ∧
      ¬TellsTruth ((session plainHost).run plannedPackage calls) := by
  refine ⟨pausedOnce ++ [timed (.startExecutionSession [])], notExecuting_plannedPackage,
    carriesIds_plannedPackage, carries_pausedOnce, ?_⟩
  rw [Machine.run_snoc]
  refine not_tellsTruth_of_restarts ?_ ⟨?_, ⟨[], rfl⟩, ?_⟩
  · decide +kernel
  · exact List.ne_nil_of_length_pos (by decide +kernel)
  · exact ⟨_, rfl⟩

end Packages
end ZeroRuntime
