import ZeroRuntime.Boundary.Mutation

/-!
# ZeroRuntime.Boundary.Verified

What a mutation is reported as once its apply has been rolled back.

* `Watched`: the world, and whether the last of the successful rollbacks and the applies recorded
  as successful is a rollback. The record itself does not tell: a rollback leaves `apply` as it is,
  and the next snapshot replaces what the rollback has noted.
* `Honest`: such a mutation is not verified any more, and is not reported as applied or verified.
* `honest_iff_guarded`: a run is honest if and only if no verification and no finalization reports
  what was undone.
-/

namespace ZeroRuntime
namespace Boundary

open Lib

structure Watched where
  world : World
  undone : Bool := false

def Watched.next (t : Watched) (e : Event) : Bool × Watched :=
  let (ok, world) := step t.world e
  (ok,
    { world
      undone := match e with
        | .rollback .. => ok || t.undone
        | .apply applyResult .. => !(ok && isOk applyResult) && t.undone
        | _ => t.undone })

/-- The boundary, watched. -/
def watched : Machine Watched Event Bool := ⟨Watched.next⟩

/-- The statuses that report an apply. -/
def reportsApply (status : String) : Prop := status = "applied" ∨ status = "verified"

instance (status : String) : Decidable (reportsApply status) :=
  inferInstanceAs (Decidable (_ ∨ _))

/-- The law of the run from a world whose mutation was not rolled back so far. -/
structure Honest (w : World) (es : List Event) : Prop where
  /-- What is verified has an apply, which was not rolled back. -/
  verified : ∀ done verificationResult replayResult actor,
    done ++ [.verify verificationResult replayResult actor] <+: es →
      ((watched.run ⟨w, false⟩ done).next (.verify verificationResult replayResult actor)).1 = true →
        (watched.run ⟨w, false⟩ done).world.mutation.apply.applied = true ∧
          (watched.run ⟨w, false⟩ done).undone = false
  /-- The status of what was rolled back reports no apply. -/
  status : ∀ done, done <+: es → (watched.run ⟨w, false⟩ done).undone = true →
    ¬ reportsApply (watched.run ⟨w, false⟩ done).world.mutation.status
  /-- Neither does a final record of it. -/
  finalized : ∀ done finalStatus summary actor,
    done ++ [.finalize finalStatus summary actor] <+: es →
      (watched.run ⟨w, false⟩ done).undone = true →
        ((watched.run ⟨w, false⟩ done).next (.finalize finalStatus summary actor)).1 = true →
          ∀ final, ((watched.run ⟨w, false⟩ done).next
              (.finalize finalStatus summary actor)).2.world.mutation.final = some final →
            ¬ reportsApply final.status

def ReportsUndone (t : Watched) : Event → Prop
  | .verify verificationResult replayResult _ =>
    t.undone = true ∧ t.world.mutation.status ≠ "rejected" ∧
      t.world.mutation.apply.applied = true ∧ (mappingOr verificationResult).writable = true ∧
      (Val.dict replayResult.entries).writable = true
  | .finalize finalStatus summary _ =>
    t.undone = true ∧ reportsApply (finalStatusOf t.world.mutation finalStatus) ∧
      summary.writable = true
  | _ => False

/-! ## One step -/

variable {w : World} {answer : Except Err Mutation}

theorem settle_fst : (w.settle answer).1 = true ↔ ∃ m, answer = .ok m := by
  cases answer with
  | error e => exact ⟨fun h => (by cases h), fun ⟨m, h⟩ => (by cases h)⟩
  | ok m => exact ⟨fun _ => ⟨m, rfl⟩, fun _ => rfl⟩

theorem verify_ok_iff {verificationResult replayResult actor : Val} :
    (step w (.verify verificationResult replayResult actor)).1 = true ↔
      w.mutation.status ≠ "rejected" ∧ w.mutation.apply.applied = true ∧
        (mappingOr verificationResult).writable = true ∧
        (Val.dict replayResult.entries).writable = true := by
  have hall : [mappingOr verificationResult, .dict replayResult.entries].all Val.writable = true ↔
      (mappingOr verificationResult).writable = true ∧
        (Val.dict replayResult.entries).writable = true := by
    rw [List.all_cons, Bool.and_eq_true, all_writable_singleton]
  refine settle_fst.trans ?_
  unfold recordReplayVerification
  by_cases hrejected : w.mutation.status = "rejected"
  · have hrefused : ensureNotRejected w.mutation =
        .error (boundaryError ("mutation was rejected: " ++ w.mutation.mutationId)) := if_pos hrejected
    rw [hrefused]
    exact ⟨fun ⟨m, h⟩ => (by cases h), fun h => absurd hrejected h.1⟩
  · rw [ensureNotRejected_ok.mpr hrejected]
    change (∃ m, (if w.mutation.apply.applied = false then _ else _) = Except.ok m) ↔ _
    by_cases happlied : w.mutation.apply.applied = true
    · rw [if_neg (ne_false_of_eq_true happlied)]
      constructor
      · rintro ⟨m, hm⟩
        exact ⟨hrejected, happlied, hall.mp (save_eq_ok.mp hm).1⟩
      · rintro ⟨-, -, hwritable⟩
        exact ⟨_, save_ok (hall.mpr hwritable)⟩
    · rw [if_pos ((Bool.not_eq_true _).mp happlied)]
      exact ⟨fun ⟨m, h⟩ => (by cases h), fun h => absurd h.2.1 happlied⟩

theorem finalize_ok {w : World} {finalStatus summary actor : Val}
    (h : summary.writable = true) :
    ∃ m, step w (.finalize finalStatus summary actor) = (true, { w with mutation := m }) ∧
      m.status = finalStatusOf w.mutation finalStatus ∧
      ∀ final, m.final = some final → final.status = finalStatusOf w.mutation finalStatus := by
  obtain ⟨m, hm⟩ : ∃ m, finalizeMutation w.mutation finalStatus summary actor = .ok m :=
    ⟨_, save_ok (all_writable_singleton.mpr h)⟩
  refine ⟨m, ?_, ?_⟩
  · change w.settle (finalizeMutation w.mutation finalStatus summary actor) = _
    rw [hm]
    rfl
  · rw [(save_eq_ok.mp hm).2]
    refine ⟨rfl, fun final hfinal => ?_⟩
    rw [← Option.some.inj hfinal]

theorem finalize_error {finalStatus summary actor : Val} (h : ¬ summary.writable = true) :
    step w (.finalize finalStatus summary actor) = (false, w) := by
  change w.settle (finalizeMutation w.mutation finalStatus summary actor) = _
  unfold finalizeMutation
  rw [save_error fun hall => h (all_writable_singleton.mp hall)]
  rfl

/-- What holds of the mutation before a call and of every answer holds after it. -/
theorem settled {P : Mutation → Prop} (h : P w.mutation) (hanswer : ∀ m, answer = .ok m → P m) :
    P (w.settle answer).2.mutation := by
  cases ha : answer with
  | error e => exact h
  | ok m => exact hanswer m ha

theorem apply_status {m m' : Mutation} {applyResult changedFiles actor : Val}
    (h : recordGovernedApply m applyResult changedFiles actor = .ok m') :
    m'.status = if isOk applyResult then "applied" else "apply_failed" := by
  unfold recordGovernedApply at h
  obtain ⟨-, -, h⟩ := bind_eq_ok.mp h
  obtain ⟨-, -, h⟩ := bind_eq_ok.mp h
  split at h
  · cases h
  · obtain ⟨changed, -, h⟩ := bind_eq_ok.mp h
    rw [(save_eq_ok.mp h).2]
    rfl

theorem snapshot_status {m m' : Mutation} {project : Project} {targetFiles createdBy : Val}
    (h : createRollbackSnapshot m project targetFiles createdBy = .ok m') :
    m'.status = "snapshot_created" := by
  unfold createRollbackSnapshot at h
  obtain ⟨-, -, h⟩ := bind_eq_ok.mp h
  obtain ⟨-, -, h⟩ := bind_eq_ok.mp h
  obtain ⟨files, -, h⟩ := bind_eq_ok.mp h
  split at h
  · cases h
  · cases h
    rfl

/-- The invariant: the status of what was rolled back reports no apply. -/
def Watched.Quiet (t : Watched) : Prop :=
  t.undone = true → ¬ reportsApply t.world.mutation.status

theorem quiet_next {t : Watched} (h : t.Quiet) {e : Event} (hcareful : ¬ ReportsUndone t e) :
    (t.next e).2.Quiet := by
  intro hundone
  cases e with
  | approve approvedBy note =>
    refine settled (P := fun m => ¬ reportsApply m.status) (h hundone) fun m hm => ?_
    unfold approveMutation at hm
    split at hm
    · cases hm
    · rw [(save_eq_ok.mp hm).2]
      change ¬ reportsApply "approved"
      decide
  | reject rejectedBy reason =>
    refine settled (P := fun m => ¬ reportsApply m.status) (h hundone) fun m hm => ?_
    rw [(save_eq_ok.mp hm).2]
    change ¬ reportsApply "rejected"
    decide
  | snapshot targetFiles createdBy =>
    refine settled (P := fun m => ¬ reportsApply m.status) (h hundone) fun m hm => ?_
    rw [snapshot_status hm]
    decide
  | apply applyResult changedFiles actor =>
    obtain ⟨hfailed, hbefore⟩ := (Bool.and_eq_true _ _).mp hundone
    refine settled (P := fun m => ¬ reportsApply m.status) (h hbefore) fun m hm => ?_
    have hok : (step t.world (.apply applyResult changedFiles actor)).1 = true :=
      settle_fst.mpr ⟨m, hm⟩
    have hnot : isOk applyResult = false := by
      have hboth := (Bool.not_eq_true' _).mp hfailed
      exact (Bool.and_eq_false_iff.mp hboth).resolve_left (ne_false_of_eq_true hok)
    rw [apply_status hm, hnot]
    decide
  | verify verificationResult replayResult actor =>
    refine settled (P := fun m => ¬ reportsApply m.status) (h hundone) fun m hm => ?_
    exact absurd ⟨hundone, verify_ok_iff.mp (settle_fst.mpr ⟨m, hm⟩)⟩ hcareful
  | rollback actor reason =>
    change ¬ reportsApply (step t.world (.rollback actor reason)).2.mutation.status
    have hnext : ((step t.world (.rollback actor reason)).1 || t.undone) = true := hundone
    unfold step at hnext ⊢
    dsimp only at hnext ⊢
    by_cases hcreated : t.world.mutation.rollback.snapshotCreated = false
    · rw [if_pos hcreated] at hnext ⊢
      exact h hnext
    · rw [if_neg hcreated] at hnext ⊢
      by_cases hwritable : [reason].all Val.writable = true
      · unfold rolledBack
        rw [save_ok hwritable]
        change ¬ reportsApply "rolled_back"
        decide
      · unfold rolledBack at hnext ⊢
        rw [save_error hwritable] at hnext ⊢
        exact h hnext
  | finalize finalStatus summary actor =>
    change ¬ reportsApply (step t.world (.finalize finalStatus summary actor)).2.mutation.status
    by_cases hwritable : summary.writable = true
    · obtain ⟨m, hstep, hstatus, -⟩ := @finalize_ok t.world finalStatus summary actor hwritable
      rw [hstep]
      change ¬ reportsApply m.status
      rw [hstatus]
      exact fun hreports => hcareful ⟨hundone, hreports, hwritable⟩
    · rw [finalize_error hwritable]
      exact h hundone
  | edit path content => exact h hundone

/-! ## Runs -/

/-- A run is honest if and only if none of its calls reports what was undone. -/
theorem honest_iff_guarded (w : World) (es : List Event) :
    Honest w es ↔ watched.Guarded (fun t e => ¬ ReportsUndone t e) ⟨w, false⟩ es := by
  constructor
  · intro hhonest
    refine Machine.guarded_iff_prefix.mpr fun done e hdone hreports => ?_
    cases e with
    | verify verificationResult replayResult actor =>
      obtain ⟨hundone, hok⟩ := hreports
      have hkept := (hhonest.verified done _ _ actor hdone (verify_ok_iff.mpr hok)).2
      rw [hundone] at hkept
      cases hkept
    | finalize finalStatus summary actor =>
      obtain ⟨hundone, hreports, hwritable⟩ := hreports
      obtain ⟨m, hstep, hstatus, -⟩ := @finalize_ok (watched.run ⟨w, false⟩ done).world finalStatus summary actor hwritable
      refine hhonest.status _ hdone ?_ ?_
      · rw [Machine.run_snoc]
        exact hundone
      · rw [Machine.run_snoc]
        change reportsApply (step _ (.finalize finalStatus summary actor)).2.mutation.status
        rw [hstep]
        change reportsApply m.status
        rw [hstatus]
        exact hreports
    | _ => exact hreports
  · intro hguarded
    have hquiet : ∀ done, done <+: es → (watched.run ⟨w, false⟩ done).Quiet := by
      rintro done ⟨rest, rfl⟩
      exact (Machine.guarded_append.mp hguarded).1.invariant
        (fun t e h hcareful => quiet_next h hcareful) fun hundone => by cases hundone
    have hcareful := Machine.guarded_iff_prefix.mp hguarded
    refine ⟨fun done v r actor hdone hok => ?_, hquiet, fun done s summary actor hdone hundone hok => ?_⟩
    · have hinputs := verify_ok_iff.mp hok
      refine ⟨hinputs.2.1, (Bool.not_eq_true _).mp fun hundone => ?_⟩
      exact hcareful done _ hdone ⟨hundone, hinputs⟩
    · intro final hfinal hreports
      by_cases hwritable : summary.writable = true
      · obtain ⟨m, hstep, -, hstatus⟩ :=
          @finalize_ok (watched.run ⟨w, false⟩ done).world s summary actor hwritable
        have hown : m.final = some final := by
          have h : (step (watched.run ⟨w, false⟩ done).world
              (.finalize s summary actor)).2.mutation.final = some final := hfinal
          rw [hstep] at h
          exact h
        rw [hstatus final hown] at hreports
        exact hcareful done _ hdone ⟨hundone, hreports, hwritable⟩
      · have h : (step (watched.run ⟨w, false⟩ done).world (.finalize s summary actor)).1 = true :=
          hok
        rw [finalize_error hwritable] at h
        cases h

def verifiedAfterRollback : List Event :=
  [.snapshot .none .none, .apply (.dict [("ok", .bool true)]) .none .none, .rollback .none .none,
    .verify (.dict [("ok", .bool true)]) .none .none]

/-- The apply is rolled back, and the mutation is verified after that. -/
theorem rolled_back_then_verified :
    ∃ m, createPreview "mutation_1" (.str "edit") (.list [.str "notes.txt"]) .none .none = .ok m ∧
      ¬ Honest { mutation := m, project := fun _ => none } verifiedAfterRollback := by
  refine ⟨samplePreview, rfl, fun hhonest => ?_⟩
  refine hhonest.status _ (List.prefix_refl _) rfl ?_
  exact .inr rfl

end Boundary
end ZeroRuntime
