import ZeroRuntime.Lib.Touched
import ZeroRuntime.Packages.Queue

/-!
# ZeroRuntime.Packages.Writes

What an operation of the queue can do to a record.

* `ownKeys`: the keys that operations write; the id of the package is not among them. `plainKeys`
  are those of them that no transition is about.
* `Stays`: a record that an operation ends says so in its runtime state as well.
* `Wrote`: beside that, a package that was claimed does not become claimable again. This is what
  every operation but `pause` and `resume` does.
-/

namespace ZeroRuntime
namespace Packages

open Lib Goals Queue

/-- The keys that operations write without a transition. -/
def plainKeys : List String :=
  ["runtime_state", "runtime_queue_item", "planning_status", "step_feedback", "execution_evidence",
    "progress", "current_step", "blocked_reason", "root_cause", "queue_resume_result",
    "replan_requests", "replan_rejections", "replan_history", "active_replan_request",
    "duplicate_replan_request_rejected", "duplicate_replan_append_rejected",
    "last_replan_appended_steps", "execution_proposal", "execution_proposal_summary",
    "proposal_approval", "approval_status", "execution_package", "execution_package_summary",
    "runtime_dispatch_request", "runtime_dispatch_request_summary", "session_resume_reason",
    "session_resume_count"]

/-- The keys that operations write before they move the status. -/
def movedKeys : List String := "runtime_lifecycle_state" :: plainKeys

/-- The keys that operations write. -/
def ownKeys : List String := "status" :: movedKeys

/-- The package has ended. -/
def Ended (record : Entries) : Prop := status record ∈ terminalStatuses

def runtimeStatus (record : Entries) : Val :=
  Val.getIn "status" (Val.getIn "runtime_state" record).entries

/-- What has ended is not said to be executing. -/
def Settled (record : Entries) : Prop := Ended record → isText "executing" (runtimeStatus record) = false

/-- The lifecycle states of a package that was claimed, until it is paused or resumed. -/
def heldStates : List String := ["claimed", "executing", "blocked", "failed", "completed"]

structure Stays (r r' : Entries) : Prop where
  own : Touched ownKeys r r'
  settled : Val.getIn "status" r' = Val.getIn "status" r ∨ Settled r'

structure Wrote (r r' : Entries) : Prop extends Stays r r' where
  held : lifecycle r ∈ heldStates → lifecycle r' ∈ heldStates

variable {host : Host} {r r' : Entries}

/-! ## The parts of an operation -/

variable {key : String}

theorem textAt_congr (h : Val.getIn key r' = Val.getIn key r) : textAt key r' = textAt key r := by
  unfold textAt
  rw [h]

theorem textAt_of_str {s : String} (h : Val.getIn key r = .str s) : textAt key r = s := by
  unfold textAt
  rw [h]
  by_cases hs : s = ""
  · subst hs
    rfl
  · have htrue : (Val.str s).truthy = true := by
      change decide (s ≠ "") = true
      exact decide_eq_true hs
    unfold Val.orElse
    rw [if_pos htrue]
    rfl

theorem touched_mono {keys keys' : List String} (h : Touched keys r r') (hkeys : keys ⊆ keys') :
    Touched keys' r r' := fun k hk => h k fun hmem => hk (hkeys hmem)

theorem touched_putAll {fields : Entries} {keys : List String} (hfields : ∀ e ∈ fields, e.1 ∈ keys) :
    Touched keys r (putAll fields r) := (Touched.refl keys r).foldl_put hfields

theorem plain_put {k : String} (hk : k ∈ plainKeys) (v : Val) : Touched plainKeys r (Val.put k v r) :=
  (Touched.refl plainKeys r).put hk v

theorem plain_appendTo {item : Val} (hkey : key ∈ plainKeys) (h : appendTo key item r = .ok r') :
    Touched plainKeys r r' := by
  unfold appendTo at h
  split at h
  · cases h
    exact plain_put hkey _
  · cases h
    exact plain_put hkey _
  · cases h

theorem own_of_plain (h : Touched plainKeys r r') : Touched ownKeys r r' :=
  touched_mono h fun _ hk => List.mem_cons_of_mem _ (List.mem_cons_of_mem _ hk)

theorem moved_of_plain (h : Touched plainKeys r r') : Touched movedKeys r r' :=
  touched_mono h fun _ hk => List.mem_cons_of_mem _ hk

variable {toState : String}

theorem moved_runtime (h : runtimeTransition r toState = .ok r') : Touched movedKeys r r' := by
  unfold runtimeTransition at h
  split at h
  · cases h
    exact (Touched.refl _ r).put (by decide) _
  · cases h

theorem lifecycle_of_plain (h : Touched plainKeys r r') : lifecycle r' = lifecycle r :=
  textAt_congr (h _ (by decide))

variable {toStatus : String} {state : Option Entries}

theorem own_transition (h : transition r toStatus state = .ok r') :
    Touched ["status", "runtime_state"] r r' := by
  unfold transition at h
  split at h
  · cases h
  · cases h
    exact ((Touched.refl _ r).put (by decide) _).put (by decide) _

theorem status_transition (h : transition r toStatus state = .ok r') : status r' = toStatus := by
  unfold transition at h
  split at h
  · cases h
  · cases h
    refine textAt_of_str ?_
    rw [Val.getIn_put, if_neg (by decide), Val.getIn_put, if_pos rfl]

theorem not_ended_transition (h : transition r toStatus state = .ok r') : ¬ Ended r := by
  unfold transition at h
  split at h
  · cases h
  · assumption

/-- A transition writes the status into the runtime state, too. -/
theorem settled_transition (h : transition r toStatus none = .ok r')
    (hstatus : toStatus ≠ "executing") : Settled r' := by
  unfold transition at h
  split at h
  · cases h
  · cases h
    intro _
    unfold runtimeStatus
    rw [Val.getIn_put, if_pos rfl]
    change isText "executing" (Val.getIn "status" (Val.put "status" (.str toStatus) _)) = false
    rw [Val.getIn_put, if_pos rfl]
    exact decide_eq_false hstatus

theorem own_runtimeTransition (h : runtimeTransition r toState = .ok r') :
    Touched ["runtime_lifecycle_state"] r r' := by
  unfold runtimeTransition at h
  split at h
  · cases h
    exact (Touched.refl _ r).put (by decide) _
  · cases h

theorem lifecycle_runtimeTransition (h : runtimeTransition r toState = .ok r') :
    lifecycle r' = toState ∧ toState ∈ schedulerRuntimeTransitions (lifecycle r) := by
  unfold runtimeTransition at h
  split at h
  · rename_i hallowed
    cases h
    refine ⟨textAt_of_str ?_, hallowed⟩
    rw [Val.getIn_put, if_pos rfl]
  · cases h

variable {r₁ : Entries}

/-- An operation that ends with a transition of the status finds the package open. -/
theorem Stays.transition (h : Touched movedKeys r r₁) (ht : transition r₁ toStatus none = .ok r')
    (hstatus : toStatus ≠ "executing") : Stays r r' ∧ ¬ Ended r := by
  have hown : Touched ownKeys r r₁ := touched_mono h fun _ hk => List.mem_cons_of_mem _ hk
  refine ⟨⟨hown.trans (touched_mono (own_transition ht) (by decide)),
    .inr (settled_transition ht hstatus)⟩, fun hended => not_ended_transition ht ?_⟩
  unfold Ended status at hended ⊢
  rw [textAt_congr (h _ (by decide))]
  exact hended

/-- An operation without a transition. -/
theorem Wrote.plain (h : Touched plainKeys r r') : Wrote r r' where
  own := own_of_plain h
  settled := .inl (h _ (by decide))
  held := fun hheld => by
    rw [lifecycle_of_plain h]
    exact hheld

/-- An operation that ends with a transition of the status alone. -/
theorem Wrote.transition (h : Touched plainKeys r r₁)
    (ht : Packages.transition r₁ toStatus none = .ok r') (hstatus : toStatus ≠ "executing") :
    Wrote r r' ∧ ¬ Ended r := by
  obtain ⟨hstays, hopen⟩ := Stays.transition (moved_of_plain h) ht hstatus
  refine ⟨⟨hstays, fun hheld => ?_⟩, hopen⟩
  have hsame : lifecycle r' = lifecycle r₁ := textAt_congr (own_transition ht _ (by decide))
  rw [hsame, lifecycle_of_plain h]
  exact hheld

/-- An operation that moves the lifecycle on, and may write more then. -/
theorem Wrote.moved {r₂ : Entries} (h : Touched ownKeys r r₁)
    (hmove : runtimeTransition r₁ toState = .ok r₂) (hstate : toState ∈ heldStates)
    (hstatus : Val.getIn "status" r₁ = Val.getIn "status" r) (hplain : Touched plainKeys r₂ r') :
    Wrote r r' where
  own := (h.trans (touched_mono (own_runtimeTransition hmove) (by decide))).trans
    (own_of_plain hplain)
  settled := .inl (by
    rw [hplain _ (by decide), own_runtimeTransition hmove _ (by decide), hstatus])
  held := fun _ => by
    rw [lifecycle_of_plain hplain, (lifecycle_runtimeTransition hmove).1]
    exact hstate

theorem Wrote.movedTo {r₂ r₃ : Entries} (h : Touched movedKeys r r₁)
    (hmove : runtimeTransition r₁ toState = .ok r₂) (hstate : toState ∈ heldStates)
    (hplain : Touched plainKeys r₂ r₃) (ht : Packages.transition r₃ toStatus none = .ok r')
    (hstatus : toStatus ≠ "executing") : Wrote r r' ∧ ¬ Ended r := by
  obtain ⟨hstays, hopen⟩ :=
    Stays.transition ((h.trans (moved_runtime hmove)).trans (moved_of_plain hplain)) ht hstatus
  refine ⟨⟨hstays, fun _ => ?_⟩, hopen⟩
  have hsame : lifecycle r' = lifecycle r₃ := textAt_congr (own_transition ht _ (by decide))
  rw [hsame, lifecycle_of_plain hplain, (lifecycle_runtimeTransition hmove).1]
  exact hstate

/-! ## The operations -/

theorem wrote_claim (h : claim r = .ok (.written r')) : Wrote r r' ∧ ¬ Ended r := by
  unfold claim at h
  split at h
  · cases h
  · split at h
    · split at h
      · cases h
      · obtain ⟨r₁, h₁, h⟩ := bind_eq_ok.mp h
        obtain ⟨r₂, h₂, h⟩ := bind_eq_ok.mp h
        cases h
        have hmove : Touched ownKeys r r₁ := touched_mono (own_runtimeTransition h₁) (by decide)
        have hend : Touched ownKeys r₁ r' := touched_mono (own_transition h₂) (by decide)
        refine ⟨⟨⟨hmove.trans hend, .inr fun hended => ?_⟩, fun _ => ?_⟩, fun hended => ?_⟩
        · unfold Ended at hended
          rw [status_transition h₂] at hended
          exact absurd hended (by decide)
        · have hsame : lifecycle r' = lifecycle r₁ := textAt_congr (own_transition h₂ _ (by decide))
          rw [hsame, (lifecycle_runtimeTransition h₁).1]
          decide
        · refine not_ended_transition h₂ ?_
          unfold Ended status at hended ⊢
          rw [textAt_congr (own_runtimeTransition h₁ _ (by decide))]
          exact hended
    · cases h

theorem stays_pause (h : pause r = .ok (.written r')) : Stays r r' ∧ ¬ Ended r := by
  unfold pause at h
  split at h
  · cases h
  · obtain ⟨r₁, h₁, h⟩ := bind_eq_ok.mp h
    obtain ⟨r₂, h₂, h⟩ := bind_eq_ok.mp h
    cases h
    refine Stays.transition ?_ h₂ (by decide)
    split at h₁
    · exact moved_runtime h₁
    · cases h₁
      exact Touched.refl _ _

theorem stays_resume (h : resume r = .ok (.written r')) : Stays r r' ∧ ¬ Ended r := by
  unfold resume at h
  split at h
  · cases h
  · rename_i hopen
    split at h
    · cases h
    · split at h
      · cases h
        exact ⟨(Wrote.plain (plain_put (by decide) _)).toStays, hopen⟩
      · obtain ⟨r₁, h₁, h⟩ := bind_eq_ok.mp h
        obtain ⟨r₂, h₂, h⟩ := bind_eq_ok.mp h
        cases h
        refine Stays.transition ?_ h₂ (by decide)
        split at h₁
        · exact moved_runtime h₁
        · cases h₁
          exact Touched.refl _ _

variable {packageId : String}

variable {authority : Option CompletionAuthority}

theorem wrote_complete {validationSummary : Val}
    (h : complete packageId r validationSummary authority = .ok (.written r')) :
    Wrote r r' ∧ ¬ Ended r := by
  unfold complete at h
  split at h
  · cases h
  · dsimp only at h
    split at h
    · cases h
    · obtain ⟨r₁, h₁, h⟩ := bind_eq_ok.mp h
      obtain ⟨progress, -, h⟩ := bind_eq_ok.mp h
      obtain ⟨r₂, h₂, h⟩ := bind_eq_ok.mp h
      obtain ⟨r₃, h₃, h⟩ := bind_eq_ok.mp h
      cases h
      have hadmitted : Touched movedKeys r
          (if (Val.getIn "runtime_lifecycle_state" r).truthy then r
            else Val.put "runtime_lifecycle_state" (.str "queued") r) := by
        split
        · exact Touched.refl _ _
        · exact (Touched.refl movedKeys r).put (by decide) _
      have hpath := hadmitted.trans (Touched.foldlM (fun _ _ _ _ hstep => moved_runtime hstep) h₁)
      exact Wrote.movedTo (hpath.put (by decide) _) h₂ (by decide) (Touched.refl _ _) h₃ (by decide)

theorem wrote_recordPlanning {snapshot : Entries}
    (h : recordPlanning r snapshot = .ok (.written r')) : Wrote r r' ∧ ¬ Ended r := by
  unfold recordPlanning at h
  split at h
  · cases h
  · rename_i hopen
    obtain ⟨item, -, h⟩ := bind_eq_ok.mp h
    have hplanned : ∀ planningStatus : Val, Touched plainKeys r
        (Val.put "runtime_queue_item" item (Val.put "planning_status" planningStatus r)) :=
      fun planningStatus => (plain_put (by decide) _).put (by decide) _
    dsimp only at h
    split at h
    · obtain ⟨r₁, h₁, h⟩ := bind_eq_ok.mp h
      cases h
      exact Wrote.transition ((hplanned _).put (by decide) _) h₁ (by decide)
    · split at h
      · cases h
        exact ⟨.plain (hplanned _), hopen⟩
      · rename_i habsent
        cases h
        refine ⟨⟨⟨(own_of_plain (hplanned _)).put (by decide) _, .inl ?_⟩, fun hheld => ?_⟩, hopen⟩
        · rw [Val.getIn_put, if_neg (by decide), hplanned _ _ (by decide)]
        · -- a package without a lifecycle was not claimed
          have hnone : lifecycle r = "" := by
            rw [hplanned _ _ (by decide)] at habsent
            unfold lifecycle textAt Val.orElse
            rw [if_neg habsent]
            rfl
          rw [hnone] at hheld
          exact absurd hheld (by decide)

theorem plain_recordReplanRequest {item : Entries}
    (h : recordReplanRequest r item = .ok (.written r')) :
    Touched ["replan_rejections", "active_replan_request", "replan_requests",
      "duplicate_replan_request_rejected"] r r' := by
  have hreq : ∀ {key : String} {x : Val} {s : Entries},
      key ∈ ["replan_rejections", "active_replan_request", "replan_requests",
        "duplicate_replan_request_rejected"] → appendTo key x r = .ok s →
      Touched ["replan_rejections", "active_replan_request", "replan_requests",
        "duplicate_replan_request_rejected"] r s := by
    intro key x s hkey happend
    unfold appendTo at happend
    split at happend
    · cases happend
      exact (Touched.refl _ r).put hkey _
    · cases happend
      exact (Touched.refl _ r).put hkey _
    · cases happend
  unfold recordReplanRequest at h
  split at h
  · cases h
  · dsimp only at h
    split at h
    · cases h
    · split at h
      · obtain ⟨r₁, h₁, h⟩ := bind_eq_ok.mp h
        cases h
        exact (hreq (by decide) h₁).put (by decide) _
      · obtain ⟨existing, -, h⟩ := bind_eq_ok.mp h
        split at h
        · cases h
          exact (Touched.refl _ r).put (by decide) _
        · obtain ⟨r₁, h₁, h⟩ := bind_eq_ok.mp h
          cases h
          exact (hreq (by decide) h₁).put (by decide) _

theorem wrote_startedRecord {task : Entries} (h : startedRecord r task = .ok r') : Wrote r r' := by
  unfold startedRecord at h
  obtain ⟨r₁, h₁, h⟩ := bind_eq_ok.mp h
  obtain ⟨state, -, h⟩ := bind_eq_ok.mp h
  obtain ⟨progress, -, h⟩ := bind_eq_ok.mp h
  obtain ⟨steps, -, h⟩ := bind_eq_ok.mp h
  cases h
  exact .moved (Touched.refl _ r) h₁ (by decide) rfl ((plain_put (by decide) _).put (by decide) _)

theorem wrote_fedRecord {item : Entries} {now : String} (h : fedRecord host r item now = .ok r') :
    Wrote r r' := by
  unfold fedRecord at h
  obtain ⟨r₁, h₁, h⟩ := bind_eq_ok.mp h
  obtain ⟨r₂, h₂, h⟩ := bind_eq_ok.mp h
  obtain ⟨⟨progress, current⟩, -, h⟩ := bind_eq_ok.mp h
  obtain ⟨state, -, h⟩ := bind_eq_ok.mp h
  have hfed := (plain_appendTo (by decide) h₁).trans (plain_appendTo (by decide) h₂)
  have hplain := ((hfed.put (k := "progress") (by decide) (.dict progress)).put
    (k := "current_step") (by decide) (.int current)).put (k := "runtime_state") (by decide)
    (.dict state)
  exact .moved (own_of_plain hplain) h (by decide) (hplain _ (by decide)) (Touched.refl _ _)

theorem plain_replannedRecord {request : Entries} {steps : List Val}
    (h : replannedRecord host r request steps = .ok r') : Touched plainKeys r r' := by
  unfold replannedRecord at h
  obtain ⟨item, -, h⟩ := bind_eq_ok.mp h
  obtain ⟨original, -, h⟩ := bind_eq_ok.mp h
  obtain ⟨history, -, h⟩ := bind_eq_ok.mp h
  dsimp only at h
  split at h
  · cases h
  · obtain ⟨r₁, h₁, h⟩ := bind_eq_ok.mp h
    obtain ⟨progress, -, h⟩ := bind_eq_ok.mp h
    obtain ⟨completed, -, h⟩ := bind_eq_ok.mp h
    obtain ⟨failed, -, h⟩ := bind_eq_ok.mp h
    obtain ⟨state, -, h⟩ := bind_eq_ok.mp h
    obtain ⟨task, -, h⟩ := bind_eq_ok.mp h
    cases h
    have hitem := (plain_put (k := "runtime_queue_item") (by decide) _).trans
      (plain_appendTo (by decide) h₁)
    exact (hitem.put (by decide) _).put (by decide) _

theorem wrote_recordRuntimeFailure {rootCause : Val} {evidence : Entries} {blocked : Bool}
    (h : recordRuntimeFailure r rootCause evidence blocked = .ok (.written r')) :
    Wrote r r' ∧ ¬ Ended r := by
  unfold recordRuntimeFailure at h
  obtain ⟨r₁, h₁, h⟩ := bind_eq_ok.mp h
  obtain ⟨r₂, h₂, h⟩ := bind_eq_ok.mp h
  obtain ⟨r₃, h₃, h⟩ := bind_eq_ok.mp h
  cases h
  have hcause : Touched plainKeys r (putAll
      [("root_cause", .str (reasonOr rootCause "runtime_failure")),
        ("blocked_reason", .str (reasonOr rootCause "runtime_failure"))] r) :=
    (plain_put (k := "root_cause") (by decide) _).put (k := "blocked_reason") (by decide) _
  have hevidence : Touched plainKeys r r₁ := by
    split at h₁
    · cases h₁
      exact hcause
    · exact hcause.trans (plain_appendTo (by decide) h₁)
  have hstate : (if blocked then "blocked" else "failed") ∈ heldStates := by
    cases blocked <;> decide
  have hstatus : (if blocked then "blocked" else "failed") ≠ "executing" := by
    cases blocked <;> decide
  exact Wrote.movedTo (moved_of_plain hevidence) h₂ hstate (Touched.refl _ _) h₃ hstatus

theorem wrote_recordRuntimeCompleted
    (h : recordRuntimeCompleted host packageId r authority = .ok (.written r')) :
    Wrote r r' ∧ ¬ Ended r := by
  unfold recordRuntimeCompleted at h
  split at h
  · cases h
  · obtain ⟨r₁, h₁, h⟩ := bind_eq_ok.mp h
    obtain ⟨progress, -, h⟩ := bind_eq_ok.mp h
    obtain ⟨total, -, h⟩ := bind_eq_ok.mp h
    obtain ⟨failed, -, h⟩ := bind_eq_ok.mp h
    obtain ⟨completed, -, h⟩ := bind_eq_ok.mp h
    obtain ⟨state, -, h⟩ := bind_eq_ok.mp h
    obtain ⟨r₂, h₂, h⟩ := bind_eq_ok.mp h
    cases h
    exact Wrote.movedTo (Touched.refl _ r) h₁ (by decide)
      ((plain_put (by decide) _).put (by decide) _) h₂ (by decide)

/-- The record is executing, and has the request, but no steps of it so far. -/
structure AdmitsReplan (record request : Entries) : Prop where
  executing : isText "executing" (Val.getIn "runtime_lifecycle_state" record) = true
  named : (Val.getIn "request_id" request).text ≠ ""
  admitted : ∃ requests, itemsOf (Val.getIn "replan_requests" record) = .ok requests ∧
    requests.any (namesRequest (Val.getIn "request_id" request).text) = true
  new : ∃ history, itemsOf (Val.getIn "replan_history" record) = .ok history ∧
    history.any (namesRequest (Val.getIn "request_id" request).text) = false

/-- A replan adds its steps, or was made before. -/
theorem appendReplanSteps_written {request : Entries} {steps : List Val}
    (h : appendReplanSteps host r request steps = .ok (.written r')) :
    AdmitsReplan r request ∧ replannedRecord host r request steps = .ok r' ∨
      Touched ["last_replan_appended_steps", "duplicate_replan_append_rejected"] r r' := by
  unfold appendReplanSteps at h
  split at h
  · cases h
  · rename_i hexecuting
    rw [Bool.not_eq_true, Bool.not_eq_false'] at hexecuting
    dsimp only at h
    split at h
    · cases h
    · rename_i hnamed
      obtain ⟨admitted, hadmitted, h⟩ := bind_eq_ok.mp h
      split at h
      · cases h
      · rename_i hrequest
        rw [Bool.not_eq_true, Bool.not_eq_false'] at hrequest
        obtain ⟨history, hhistory, h⟩ := bind_eq_ok.mp h
        split at h
        · cases h
          exact .inr (((Touched.refl _ r).put (by decide) _).put (by decide) _)
        · rename_i hnew
          obtain ⟨r₁, h₁, h⟩ := bind_eq_ok.mp h
          cases h
          exact .inl ⟨⟨hexecuting, hnamed, ⟨admitted, hadmitted, hrequest⟩,
            ⟨history, hhistory, (Bool.not_eq_true _).mp hnew⟩⟩, h₁⟩

theorem plain_note {fields : List (NoteField × Val)} :
    Touched plainKeys r (putAll (fields.map fun e => (e.1.key, e.2)) r) := by
  refine touched_putAll fun e he => ?_
  obtain ⟨⟨field, value⟩, -, rfl⟩ := List.mem_map.mp he
  change field.key ∈ plainKeys
  cases field <;> decide

theorem wrote_cancel (h : cancel r = .ok (.written r')) : Wrote r r' ∧ ¬ Ended r := by
  unfold cancel at h
  split at h
  · cases h
  · obtain ⟨r₁, h₁, h⟩ := bind_eq_ok.mp h
    cases h
    exact Wrote.transition (Touched.refl _ r) h₁ (by decide)

theorem wrote_block {reason : Val} (h : block r reason = .ok (.written r')) :
    Wrote r r' ∧ ¬ Ended r := by
  obtain ⟨r₁, h₁, h⟩ := bind_eq_ok.mp h
  cases h
  exact Wrote.transition (plain_put (by decide) _) h₁ (by decide)

theorem wrote_fail {reason : Val} (h : fail r reason = .ok (.written r')) :
    Wrote r r' ∧ ¬ Ended r := by
  obtain ⟨r₁, h₁, h⟩ := bind_eq_ok.mp h
  cases h
  exact Wrote.transition (plain_put (by decide) _) h₁ (by decide)

theorem startExecutionSession_written {task : Entries}
    (h : startExecutionSession r task = .ok (.written r')) : startedRecord r task = .ok r' := by
  obtain ⟨r₁, h₁, h⟩ := bind_eq_ok.mp h
  cases h
  exact h₁

theorem recordStepFeedback_written {feedback : Entries} {now : String}
    (h : recordStepFeedback host r feedback now = .ok (.written r')) :
    isText "executing" (Val.getIn "runtime_lifecycle_state" r) = true ∧
      fedRecord host r feedback now = .ok r' := by
  unfold recordStepFeedback at h
  split at h
  · cases h
  · rename_i hexecuting
    obtain ⟨r₁, h₁, h⟩ := bind_eq_ok.mp h
    cases h
    rw [Bool.not_eq_true, Bool.not_eq_false'] at hexecuting
    exact ⟨hexecuting, h₁⟩

def RecordCall.releases : RecordCall → Bool
  | pause | resume => true
  | _ => false

theorem wrote_change {call : RecordCall} (hcall : call.releases = false)
    (h : call.change host packageId r = .ok (.written r')) : Wrote r r' := by
  cases call with
  | pause => cases hcall
  | resume => cases hcall
  | recordPlanning planningSnapshot => exact (wrote_recordPlanning h).1
  | claim => exact (wrote_claim h).1
  | cancel => exact (wrote_cancel h).1
  | block reason => exact (wrote_block h).1
  | fail reason => exact (wrote_fail h).1
  | complete validationSummary authority => exact (wrote_complete h).1
  | startExecutionSession task => exact wrote_startedRecord (startExecutionSession_written h)
  | recordStepFeedback feedback now => exact wrote_fedRecord (recordStepFeedback_written h).2
  | recordReplanRequest request =>
    exact .plain (touched_mono (plain_recordReplanRequest h) (by decide))
  | appendReplanSteps request steps =>
    rcases appendReplanSteps_written h with hnew | hagain
    · exact .plain (plain_replannedRecord hnew.2)
    · exact .plain (touched_mono hagain (by decide))
  | recordRuntimeFailure rootCause evidence blocked => exact (wrote_recordRuntimeFailure h).1
  | recordRuntimeCompleted authority => exact (wrote_recordRuntimeCompleted h).1
  | note fields =>
    cases h
    exact .plain plain_note

/-- What every operation does. -/
theorem stays_change {call : RecordCall} (h : call.change host packageId r = .ok (.written r')) :
    Stays r r' := by
  by_cases hcall : call.releases = true
  · cases call with
    | pause => exact (stays_pause h).1
    | resume => exact (stays_resume h).1
    | _ => cases hcall
  · exact (wrote_change ((Bool.not_eq_true _).mp hcall) h).toStays

end Packages
end ZeroRuntime
