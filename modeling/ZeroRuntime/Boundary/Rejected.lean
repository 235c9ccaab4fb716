import ZeroRuntime.Boundary.Mutation

/-!
# ZeroRuntime.Boundary.Rejected

A rejected mutation, and the calls after its rejection.

* `Escapes`: the two calls that write another status over the rejection.
* `stays_rejected_iff_careful`: nothing is approved, snapshotted or applied after a rejection, at
  any point of a run, if and only if no call after a rejection escapes.
-/

namespace ZeroRuntime
namespace Boundary

open Lib

/-- A rejection has succeeded. -/
def RejectedIn (w : World) (es : List Event) : Prop :=
  ∃ rejectedBy reason, (Event.reject rejectedBy reason, true) ∈ boundary.outputs w es

/-- The calls that a rejection is to end. -/
def Event.advances : Event → Bool
  | .approve .. | .snapshot .. | .apply .. => true
  | _ => false

/-- The call succeeds and leaves another status than `rejected`. -/
def Escapes (m : Mutation) : Event → Prop
  | .rollback _ reason => m.rollback.snapshotCreated = true ∧ reason.writable = true
  | .finalize finalStatus summary _ =>
    finalStatusOf m finalStatus ≠ "rejected" ∧ summary.writable = true
  | _ => False

/-- No call after a rejection escapes. -/
def Careful (w : World) (es : List Event) : Prop :=
  ∀ p e, p ++ [e] <+: es → RejectedIn w p → ¬Escapes (boundary.run w p).mutation e

/-! ## One step -/

theorem ensureNotRejected_rejected {m : Mutation} (h : m.status = "rejected") :
    ensureNotRejected m = .error (boundaryError ("mutation was rejected: " ++ m.mutationId)) :=
  if_pos h

variable {w : World}

variable {e : Event}

theorem refused (h : w.mutation.status = "rejected") (he : e.advances = true) :
    step w e = (false, w) := by
  cases e with
  | approve approvedBy note =>
    have hanswer : approveMutation w.mutation approvedBy note =
        .error (boundaryError ("cannot approve rejected mutation: " ++ w.mutation.mutationId)) :=
      if_pos h
    exact settle_error hanswer
  | snapshot targetFiles createdBy =>
    apply settle_error
    unfold createRollbackSnapshot
    rw [ensureNotRejected_rejected h]
    rfl
  | apply applyResult changedFiles actor =>
    apply settle_error
    unfold recordGovernedApply
    rw [ensureNotRejected_rejected h]
    rfl
  | _ => cases he

theorem status_reject {w' : World} {rejectedBy reason : Val}
    (h : step w (.reject rejectedBy reason) = (true, w')) : w'.mutation.status = "rejected" := by
  obtain ⟨m, hm, rfl⟩ := settle_true h
  obtain ⟨-, rfl⟩ := save_eq_ok.mp hm
  rfl

/-- What is rejected stays rejected under a call that does not escape. -/
theorem status_step (h : w.mutation.status = "rejected") (hsafe : ¬Escapes w.mutation e) :
    (step w e).2.mutation.status = "rejected" := by
  by_cases hadv : e.advances = true
  · rw [refused h hadv]
    exact h
  cases e with
  | approve | snapshot | apply => exact absurd rfl hadv
  | reject rejectedBy reason =>
    change (w.settle (rejectMutation w.mutation rejectedBy reason)).2.mutation.status = "rejected"
    by_cases hwritable : [reason].all Val.writable = true
    · unfold rejectMutation
      rw [save_ok hwritable]
      rfl
    · unfold rejectMutation
      rw [save_error hwritable]
      exact h
  | verify verificationResult replayResult actor =>
    have hanswer : recordReplayVerification w.mutation verificationResult replayResult actor =
        .error (boundaryError ("mutation was rejected: " ++ w.mutation.mutationId)) := by
      unfold recordReplayVerification
      rw [ensureNotRejected_rejected h]
      rfl
    rw [show step w (.verify verificationResult replayResult actor) = (false, w) from
      settle_error hanswer]
    exact h
  | rollback actor reason =>
    unfold step
    dsimp only
    split
    · exact h
    · rename_i hcreated
      rw [Bool.not_eq_false] at hcreated
      have hreason : ¬[reason].all Val.writable = true :=
        fun hall => hsafe ⟨hcreated, all_writable_singleton.mp hall⟩
      unfold rolledBack
      rw [save_error hreason]
      exact h
  | finalize finalStatus summary actor =>
    change (w.settle (finalizeMutation w.mutation finalStatus summary actor)).2.mutation.status =
      "rejected"
    unfold finalizeMutation
    by_cases hwritable : [summary].all Val.writable = true
    · rw [save_ok hwritable]
      by_contra hne
      exact hsafe ⟨hne, all_writable_singleton.mp hwritable⟩
    · rw [save_error hwritable]
      exact h
  | edit path content => exact h

theorem status_escape (h : Escapes w.mutation e) : (step w e).2.mutation.status ≠ "rejected" := by
  cases e with
  | rollback actor reason =>
    obtain ⟨hcreated, hreason⟩ := h
    unfold step rolledBack
    dsimp only
    rw [if_neg (by rw [hcreated]; decide), save_ok (all_writable_singleton.mpr hreason)]
    change "rolled_back" ≠ "rejected"
    decide
  | finalize finalStatus summary actor =>
    obtain ⟨hne, hsummary⟩ := h
    change (w.settle (finalizeMutation w.mutation finalStatus summary actor)).2.mutation.status ≠
      "rejected"
    unfold finalizeMutation
    rw [save_ok (all_writable_singleton.mpr hsummary)]
    exact hne
  | _ => exact h.elim

theorem approve_succeeds (h : w.mutation.status ≠ "rejected") :
    (step w (.approve .none .none)).1 = true := by
  change (w.settle (approveMutation w.mutation .none .none)).1 = true
  unfold approveMutation
  rw [if_neg h]
  rfl

/-! ## Runs -/

variable {p : List Event}

theorem rejectedIn_snoc (h : RejectedIn w (p ++ [e])) :
    RejectedIn w p ∨ ∃ rejectedBy reason, e = .reject rejectedBy reason ∧
      (step (boundary.run w p) e).1 = true := by
  obtain ⟨rejectedBy, reason, hmem⟩ := h
  rw [Machine.outputs_snoc, List.mem_append, List.mem_singleton] at hmem
  rcases hmem with hmem | hlast
  · exact .inl ⟨rejectedBy, reason, hmem⟩
  · obtain ⟨rfl, hok⟩ := Prod.mk.inj hlast
    exact .inr ⟨rejectedBy, reason, rfl, hok.symm⟩

theorem RejectedIn.append {q : List Event} (h : RejectedIn w p) : RejectedIn w (p ++ q) := by
  obtain ⟨rejectedBy, reason, hmem⟩ := h
  refine ⟨rejectedBy, reason, ?_⟩
  rw [Machine.outputs_append]
  exact List.mem_append_left _ hmem

/-- The invariant of a careful run, by induction on its last event. -/
theorem status_run {es : List Event} (hcareful : Careful w es) (hp : p <+: es) (h : RejectedIn w p)
    : (boundary.run w p).mutation.status = "rejected" := by
  induction p using List.reverseRecOn with
  | nil =>
    obtain ⟨rejectedBy, reason, hmem⟩ := h
    cases hmem
  | append_singleton p e ih =>
    have hprefix : p <+: es := (List.prefix_append p [e]).trans hp
    rw [Machine.run_snoc]
    rcases rejectedIn_snoc h with hbefore | ⟨rejectedBy, reason, rfl, hok⟩
    · exact status_step (ih hprefix hbefore) (hcareful p e hp hbefore)
    · exact status_reject (Prod.ext hok rfl)

/-- At every point after a rejection nothing can be approved, snapshotted or applied, if and only
if no call after a rejection escapes. -/
theorem stays_rejected_iff_careful (w : World) (es : List Event) :
    (∀ p, p <+: es → RejectedIn w p → ∀ e : Event, e.advances = true →
        (step (boundary.run w p) e).1 = false) ↔
      Careful w es := by
  constructor
  · intro hrefused p e hpe hrejected hescape
    have hstatus := status_escape hescape
    have hsucceeds : (step (boundary.run w (p ++ [e])) (.approve .none .none)).1 = true := by
      apply approve_succeeds
      rw [Machine.run_snoc]
      exact hstatus
    rw [hrefused (p ++ [e]) hpe hrejected.append (.approve .none .none) rfl] at hsucceeds
    cases hsucceeds
  · intro hcareful p hp hrejected e he
    rw [refused (status_run hcareful hp hrejected) he]

/-- A rejected mutation is rolled back, and is then approved, snapshotted and applied. -/
theorem rejected_then_applied :
    ∃ m, createPreview "mutation_1" (.str "edit") (.list [.str "notes.txt"]) .none .none = .ok m ∧
      boundary.outputs { mutation := m, project := fun _ => none }
          [.snapshot .none .none, .reject .none .none, .rollback .none .none, .approve .none .none,
            .snapshot .none .none, .apply (.dict [("ok", .bool true)]) .none .none] =
        [(.snapshot .none .none, true), (.reject .none .none, true), (.rollback .none .none, true),
          (.approve .none .none, true), (.snapshot .none .none, true),
          (.apply (.dict [("ok", .bool true)]) .none .none, true)] :=
  ⟨samplePreview, rfl, rfl⟩

end Boundary
end ZeroRuntime
