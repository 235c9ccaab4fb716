import ZeroRuntime.Fabric.Transactions

/-!
# ZeroRuntime.Fabric.Compensation

Which steps the runners of executions complete, and which ones rollbacks hand to theirs, over whole
runs of the transaction fabric.

* `completedBy`, `compensatedBy`: the two logs of a transaction, read off the answers.
* `Ledger`: the steps of a record are the log. The completed ones are those a runner completed, and
  its boundary says whether they were compensated.
* `tracks_call`: a `Logged` call keeps the records in line with the logs.
* `guarded_compensation`: in runs of such calls a step is completed at most once, and a rollback
  hands over what was completed and not compensated, last first.
* `executed_twice`: a successful execution leaves the status `prepared`, so it can be repeated.
-/

namespace ZeroRuntime
namespace Fabric
namespace RuntimeTransactionFabric

open Lib Goals

/-! ## The logs -/

/-- The indices of the steps the runner completed in one call on the transaction. -/
def completedIn (id : String) : FabricCall × FabricAnswer → List ℕ
  | (.executeTransaction tid _ _ _, .executed _ completed) =>
    if Text.strip tid = id then completed else []
  | _ => []

/-- The indices of the steps the rollback runner came back from in one call on the transaction:
when it raises, it was handed one more. -/
def compensatedIn (id : String) : FabricCall × FabricAnswer → List ℕ
  | (.rollbackTransaction tid _ _ _, .rolledBack (.ok _) handed) =>
    if Text.strip tid = id then handed else []
  | (.rollbackTransaction tid _ _ _, .rolledBack (.error _) handed) =>
    if Text.strip tid = id then handed.dropLast else []
  | _ => []

def completedBy (h : History) (id : String) : List ℕ := h.flatMap (completedIn id)

def compensatedBy (h : History) (id : String) : List ℕ := h.flatMap (compensatedIn id)

@[simp] theorem completedBy_append (h h' : History) (id : String) :
    completedBy (h ++ h') id = completedBy h id ++ completedBy h' id :=
  List.flatMap_append

@[simp] theorem compensatedBy_append (h h' : History) (id : String) :
    compensatedBy (h ++ h') id = compensatedBy h id ++ compensatedBy h' id :=
  List.flatMap_append

@[simp] theorem completedBy_singleton (e : FabricCall × FabricAnswer) (id : String) :
    completedBy [e] id = completedIn id e := by
  simp [completedBy]

@[simp] theorem compensatedBy_singleton (e : FabricCall × FabricAnswer) (id : String) :
    compensatedBy [e] id = compensatedIn id e := by
  simp [compensatedBy]

/-! ## The steps of one execution -/

/-- An execution keeps the indices of the steps; where none was completed before, the completed
ones are those its runner completed. -/
theorem runSteps_indices {runner : StepRunner} {stop failed : Bool} {now : String}
    {steps out : List RuntimeTransactionStep}
    (h : (runSteps runner stop now steps).1 = .ok (out, failed)) :
    out.map (fun s => s.stepIndex) = steps.map (fun s => s.stepIndex) ∧
    (completedIndices steps = [] →
      completedIndices out = (runSteps runner stop now steps).2) := by
  induction steps generalizing out failed with
  | nil =>
    cases h
    exact ⟨rfl, fun _ => rfl⟩
  | cons step steps ih =>
    have htail : completedIndices (step :: steps) = [] → completedIndices steps = [] := by
      intro hnil
      simp only [completedIndices, List.map_eq_nil_iff, List.filter_eq_nil_iff] at hnil ⊢
      exact fun s hs => hnil s (List.mem_cons_of_mem _ hs)
    unfold runSteps at h ⊢
    cases hrun : runner step with
    | error e =>
      rw [hrun] at h
      cases h
    | ok v =>
      simp only [hrun] at h ⊢
      by_cases hfail : stepFailed (asResult v) = true
      · have hskip : ∀ rest, completedIndices (ranStep step (asResult v) now :: rest) =
            completedIndices rest := by
          intro rest
          simp [completedIndices, ranStep, hfail]
        simp only [hfail, if_true] at h ⊢
        by_cases hstop : stop = true
        · simp only [hstop, if_true] at h ⊢
          cases h
          refine ⟨rfl, ?_⟩
          intro hnil
          rw [hskip]
          exact htail hnil
        · simp only [hstop, Bool.false_eq_true, if_false] at h ⊢
          cases hrest : (runSteps runner stop now steps).1 with
          | error e =>
            simp only [Bool.not_eq_true] at hstop
            subst hstop
            rw [hrest] at h
            cases h
          | ok rest =>
            simp only [Bool.not_eq_true] at hstop
            subst hstop
            obtain ⟨more, f⟩ := rest
            rw [hrest] at h
            obtain ⟨hidx, hcomp⟩ := ih hrest
            simp only [Except.map, Except.ok.injEq, Prod.mk.injEq] at h
            obtain ⟨rfl, -⟩ := h
            refine ⟨by simp [hidx, ranStep], ?_⟩
            intro hnil
            rw [hskip]
            exact hcomp (htail hnil)
      · have hkeep : ∀ rest, completedIndices (ranStep step (asResult v) now :: rest) =
            step.stepIndex :: completedIndices rest := by
          intro rest
          simp [completedIndices, ranStep, hfail]
        simp only [hfail, Bool.false_eq_true, if_false] at h ⊢
        cases hrest : (runSteps runner stop now steps).1 with
        | error e =>
          rw [hrest] at h
          cases h
        | ok rest =>
          obtain ⟨more, f⟩ := rest
          rw [hrest] at h
          obtain ⟨hidx, hcomp⟩ := ih hrest
          simp only [Except.map, Except.ok.injEq, Prod.mk.injEq] at h
          obtain ⟨rfl, -⟩ := h
          refine ⟨by simp [hidx, ranStep], ?_⟩
          intro hnil
          rw [hkeep, hcomp (htail hnil)]

section Begin

variable {fingerprint : Val → String} {id now : String}

@[simp] theorem beginStep_stepIndex (i : ℕ) (v : Val) :
    (beginStep fingerprint id now i v).stepIndex = i := rfl

@[simp] theorem beginStep_status (i : ℕ) (v : Val) :
    (beginStep fingerprint id now i v).status = .pending := rfl

variable {steps : List Val}

theorem beginSteps_indices {i : ℕ} :
    ∀ n ∈ (beginSteps fingerprint id now i steps).map (fun s => s.stepIndex), i ≤ n := by
  induction steps generalizing i with
  | nil =>
    intro n hn
    cases hn
  | cons v vs ih =>
    intro n hn
    rw [beginSteps, List.map_cons, beginStep_stepIndex, List.mem_cons] at hn
    rcases hn with heq | hn
    · omega
    · have := ih n hn
      omega

/-- The steps of a new transaction are numbered. -/
theorem beginSteps_nodup {i : ℕ} :
    ((beginSteps fingerprint id now i steps).map fun s => s.stepIndex).Nodup := by
  induction steps generalizing i with
  | nil => exact List.nodup_nil
  | cons v vs ih =>
    rw [beginSteps, List.map_cons, beginStep_stepIndex]
    refine List.nodup_cons.mpr ⟨?_, ih⟩
    intro hmem
    have hle := beginSteps_indices i hmem
    omega

theorem beginSteps_pending {i : ℕ} :
    completedIndices (beginSteps fingerprint id now i steps) = [] := by
  induction steps generalizing i with
  | nil => rfl
  | cons v vs ih =>
    rw [beginSteps, completedIndices, List.filter_cons_of_neg (by simp)]
    exact ih

end Begin

theorem completedIndices_nodup {steps : List RuntimeTransactionStep}
    (h : (steps.map fun s => s.stepIndex).Nodup) : (completedIndices steps).Nodup :=
  h.sublist (List.filter_sublist.map _)

/-! ## The invariant -/

/-- The transaction was rolled back before. -/
def rolledOnce (r : RuntimeTransactionRecord) : Bool :=
  Val.hasKey "rollback_results" r.boundary.metadata

structure Ledger (h : History) (id : String) (r : RuntimeTransactionRecord) : Prop where
  filed : r.transactionId = id
  numbered : (r.steps.map fun s => s.stepIndex).Nodup
  completed : completedBy h id = completedIndices r.steps
  compensated : compensatedBy h id =
    if rolledOnce r = true then (completedIndices r.steps).reverse else []
  closed : rolledOnce r = true → r.status ≠ .opened ∧ r.status ≠ .prepared

structure Tracks (h : History) (f : RuntimeTransactionFabric) : Prop where
  blank : f.transactions.get? "" = none
  fresh : ∀ id, f.transactions.get? id = none → Text.strip id = id →
    completedBy h id = [] ∧ compensatedBy h id = []
  ledger : ∀ id r, Text.strip id = id → f.transactions.get? id = some r → Ledger h id r

/-- Nothing is added to the logs of the transaction. -/
def SameLogs (h h' : History) (id : String) : Prop :=
  completedBy h' id = completedBy h id ∧ compensatedBy h' id = compensatedBy h id

section Ledger

variable {h h' : History} {id now : String} {r r' : RuntimeTransactionRecord}

theorem SameLogs.refl (h : History) (id : String) : SameLogs h h id := ⟨rfl, rfl⟩

/-- A change of anything but the steps, the boundary's metadata and a first status. -/
theorem Ledger.quiet (hl : Ledger h id r) (hsame : SameLogs h h' id)
    (hid : r'.transactionId = r.transactionId) (hsteps : r'.steps = r.steps)
    (hmeta : r'.boundary.metadata = r.boundary.metadata)
    (hst : r.status ≠ .opened ∧ r.status ≠ .prepared →
      r'.status ≠ .opened ∧ r'.status ≠ .prepared) : Ledger h' id r' := by
  have honce : rolledOnce r' = rolledOnce r := by
    unfold rolledOnce
    rw [hmeta]
  constructor
  · exact hid.trans hl.filed
  · rw [hsteps]
    exact hl.numbered
  · rw [hsame.1, hsteps]
    exact hl.completed
  · rw [hsame.2, hsteps, honce]
    exact hl.compensated
  · intro ho
    rw [honce] at ho
    exact hst (hl.closed ho)

theorem Ledger.prepared (hl : Ledger h id r) (hst : r.status = .opened) :
    Ledger h id (RuntimeTransactionFabric.prepared r now) := by
  refine hl.quiet (.refl h id) rfl rfl rfl ?_
  intro hne
  exact absurd hst hne.1

theorem ledger_opened (fingerprint : Val → String)
    (sourceSessionId executionId taskId : String) (beforeSnapshot : Entries) (steps : List Val)
    (payload metadata : Entries) (hlogs : completedBy h id = [] ∧ compensatedBy h id = []) :
    Ledger h id (opened fingerprint id sourceSessionId executionId taskId beforeSnapshot steps
      payload metadata now) := by
  constructor
  · rfl
  · exact beginSteps_nodup
  · rw [hlogs.1]
    exact beginSteps_pending.symm
  · rw [hlogs.2]
    rfl
  · intro ho
    cases ho

/-- The first execution that completes steps fills the log. -/
theorem Ledger.executed (hl : Ledger h id r) (hst : r.status = .prepared)
    (hnone : completedIndices r.steps = []) {runner : Option StepRunner} {stop failed : Bool}
    {steps : List RuntimeTransactionStep}
    (hrun : (stepRun r runner stop now).1 = .ok (steps, failed))
    (hcomp : completedBy h' id = completedBy h id ++ (stepRun r runner stop now).2)
    (hback : compensatedBy h' id = compensatedBy h id) :
    Ledger h' id (RuntimeTransactionFabric.executed r steps failed now) := by
  obtain ⟨hidx, hdone⟩ := runSteps_indices hrun
  have honce : rolledOnce r = false := by
    cases ho : rolledOnce r with
    | false => rfl
    | true => exact absurd hst (hl.closed ho).2
  have honce' : rolledOnce (RuntimeTransactionFabric.executed r steps failed now) = false := honce
  constructor
  · exact hl.filed
  · simp only [RuntimeTransactionFabric.executed, hidx]
    exact hl.numbered
  · rw [hcomp, hl.completed, hnone, List.nil_append]
    exact (hdone hnone).symm
  · rw [hback, hl.compensated, honce, honce']
    rfl
  · intro ho
    rw [honce'] at ho
    cases ho

theorem rolledOnce_rolledBack (r : RuntimeTransactionRecord) (results : List Val)
    (reason : String) :
    rolledOnce (RuntimeTransactionFabric.rolledBack r results reason now) = true := by
  simp [rolledOnce, RuntimeTransactionFabric.rolledBack, Val.hasKey]

/-- A rollback that gets through compensates everything that was completed. -/
theorem Ledger.rolledBack (hl : Ledger h id r) (results : List Val) (reason : String)
    (hcomp : completedBy h' id = completedBy h id)
    (hback : compensatedBy h' id = (completedIndices r.steps).reverse) :
    Ledger h' id (RuntimeTransactionFabric.rolledBack r results reason now) := by
  constructor
  · exact hl.filed
  · exact hl.numbered
  · rw [hcomp]
    exact hl.completed
  · rw [hback, rolledOnce_rolledBack]
    rfl
  · intro _
    exact ⟨(by intro hst; cases hst), (by intro hst; cases hst)⟩

end Ledger

section Fabric

variable {h h' : History} {f f' : RuntimeTransactionFabric} {tid now : String}
  {r r' : RuntimeTransactionRecord}

theorem Tracks.same (ht : Tracks h f) (heq : f'.transactions = f.transactions)
    (hsame : ∀ id, SameLogs h h' id) : Tracks h' f' := by
  constructor
  · rw [heq]
    exact ht.blank
  · intro id hnone hid
    rw [heq] at hnone
    rw [(hsame id).1, (hsame id).2]
    exact ht.fresh id hnone hid
  · intro id r hid hr
    rw [heq] at hr
    exact (ht.ledger id r hid hr).quiet (hsame id) rfl rfl rfl fun hst => hst

theorem Tracks.write (ht : Tracks h f) (hne : tid ≠ "")
    (hothers : ∀ id, id ≠ tid → SameLogs h h' id)
    (hnew : Text.strip tid = tid → Ledger h' tid r') : Tracks h' (f.write tid r') := by
  have hget : ∀ id, id ≠ tid →
      (f.write tid r').transactions.get? id = f.transactions.get? id := by
    intro id hid
    simp [RuntimeTransactionFabric.write, hid]
  have hself : (f.write tid r').transactions.get? tid = some r' := by
    simp [RuntimeTransactionFabric.write]
  constructor
  · rw [hget "" (Ne.symm hne)]
    exact ht.blank
  · intro id hnone hid
    by_cases heq : id = tid
    · subst heq
      rw [hself] at hnone
      cases hnone
    · rw [hget id heq] at hnone
      rw [(hothers id heq).1, (hothers id heq).2]
      exact ht.fresh id hnone hid
  · intro id r hid hr
    by_cases heq : id = tid
    · subst heq
      rw [hself] at hr
      cases hr
      exact hnew hid
    · rw [hget id heq] at hr
      exact (ht.ledger id r hid hr).quiet (hothers id heq) rfl rfl rfl fun hst => hst

theorem Tracks.ne_blank (ht : Tracks h f)
    (hr : f.transactions.get? (Text.strip tid) = some r) : tid ≠ "" := by
  rintro rfl
  have hblank : Text.strip "" = "" := by decide
  rw [hblank, ht.blank] at hr
  cases hr

/-- The record of a transaction is read, changed and written back. A copy written under an id with
blanks around it leaves the logs as they are. -/
theorem Tracks.update (ht : Tracks h f) (hr : f.transactions.get? (Text.strip tid) = some r)
    (hothers : ∀ id, id ≠ Text.strip tid → SameLogs h h' id)
    (hcopy : Text.strip tid ≠ tid → SameLogs h h' (Text.strip tid))
    (hown : Text.strip tid = tid → Ledger h tid r → Ledger h' tid r') :
    Tracks h' (f.write tid r') := by
  refine ht.write (ht.ne_blank hr) ?_ ?_
  · intro id hid
    by_cases heq : id = Text.strip tid
    · subst heq
      exact hcopy hid
    · exact hothers id heq
  · intro hid
    rw [hid] at hr
    exact hown hid (ht.ledger tid r hid hr)

theorem Tracks.read (ht : Tracks h f) (hr : f.transactions.get? (Text.strip tid) = some r) :
    Ledger h (Text.strip tid) r := ht.ledger (Text.strip tid) r (Text.strip_strip tid) hr

theorem Tracks.prepared (ht : Tracks h f) (hr : f.transactions.get? (Text.strip tid) = some r)
    (hst : r.status = .opened) :
    Tracks h (f.write r.transactionId (RuntimeTransactionFabric.prepared r now)) := by
  have hfiled := (ht.read hr).filed
  have hne : r.transactionId ≠ "" := by
    intro hblank
    rw [← hfiled, hblank, ht.blank] at hr
    cases hr
  refine ht.write hne (fun id _ => .refl h id) ?_
  intro hid
  rw [← hfiled] at hr
  exact (ht.ledger r.transactionId r hid hr).prepared hst

theorem Executes.tracks {r₁ : RuntimeTransactionRecord} {f₁ : RuntimeTransactionFabric}
    (he : Executes f tid now r r₁ f₁) (ht : Tracks h f) :
    Tracks h f₁ ∧ f₁.transactions.get? (Text.strip tid) = some r₁ ∧ r₁.status = .prepared ∧
      r₁.steps = r.steps := by
  rcases he.start with ⟨hst, rfl, rfl⟩ | ⟨hst, rfl, rfl⟩
  · refine ⟨ht.prepared he.read hst, ?_, rfl, rfl⟩
    simp [RuntimeTransactionFabric.write, (ht.read he.read).filed]
  · exact ⟨ht, he.read, hst, rfl⟩

end Fabric

/-! ## Calls that keep the logs -/

/-- An execution that is written back starts from steps none of which is completed, one that is not
completes none; a rollback of completed steps is the first and is written back, or its runner raises
on the only one. -/
def Logged (f : RuntimeTransactionFabric) : FabricCall → Prop
  | .executeTransaction tid runner stop now =>
    ∀ r ∈ f.transactions.get? (Text.strip tid), (r.status = .opened ∨ r.status = .prepared) →
      if Text.strip tid = tid ∧ (stepRun r runner stop now).1.toBool = true
        then completedIndices r.steps = []
        else (stepRun r runner stop now).2 = []
  | .rollbackTransaction tid runner _ _ =>
    ∀ r ∈ f.transactions.get? (Text.strip tid), completedIndices r.steps = [] ∨
      (rolledOnce r = false ∧ if raisesOn r runner = true
        then (completedIndices r.steps).length = 1
        else Text.strip tid = tid)
  | _ => True

instance (f : RuntimeTransactionFabric) : (c : FabricCall) → Decidable (Logged f c)
  | .executeTransaction tid runner stop now =>
    inferInstanceAs (Decidable (∀ r ∈ f.transactions.get? (Text.strip tid),
      (r.status = .opened ∨ r.status = .prepared) →
        if Text.strip tid = tid ∧ (stepRun r runner stop now).1.toBool = true
          then completedIndices r.steps = []
          else (stepRun r runner stop now).2 = []))
  | .rollbackTransaction tid runner _ _ =>
    inferInstanceAs (Decidable (∀ r ∈ f.transactions.get? (Text.strip tid),
      completedIndices r.steps = [] ∨ (rolledOnce r = false ∧ if raisesOn r runner = true
        then (completedIndices r.steps).length = 1
        else Text.strip tid = tid)))
  | .beginTransaction .. | .prepareTransaction .. | .verifyConsistency ..
  | .commitTransaction .. | .queueRecovery .. | .consumeRecoveryAndContinue .. => .isTrue trivial

section Step

variable {digest fingerprint : Val → String} {h h' : History} {f f' : RuntimeTransactionFabric}
  {tid now : String}

theorem tracks_begin (ht : Tracks h f) (sourceSessionId executionId taskId : String)
    (beforeSnapshot : Entries) (steps : List Val) (payload metadata : Entries)
    (given : Option String) :
    Tracks h (f.beginTransaction fingerprint sourceSessionId executionId taskId beforeSnapshot
      steps payload metadata given now).2 := by
  rcases beginTransaction_cases f now fingerprint sourceSessionId executionId taskId
    beforeSnapshot steps payload metadata given with heq | ⟨id, session, hid, hne, hnew, heq⟩
  · rw [heq]
    exact ht
  · rw [heq]
    refine ht.write hne (fun id' _ => .refl h id') fun _ => ?_
    exact ledger_opened fingerprint session executionId taskId beforeSnapshot steps payload
      metadata (ht.fresh id hnew hid)

theorem tracks_prepare (ht : Tracks h f) : Tracks h (f.prepareTransaction tid now).2 := by
  rcases prepareTransaction_cases f now tid with ⟨e, heq⟩ | ⟨r, hr, hst, heq⟩
  · rw [heq]
    exact ht
  · rw [heq]
    exact ht.prepared hr hst

/-- A record read, changed in neither steps nor boundary metadata, and written back. -/
theorem Tracks.quiet (ht : Tracks h f) {r r' : RuntimeTransactionRecord}
    (hr : f.transactions.get? (Text.strip tid) = some r)
    (hid : r'.transactionId = r.transactionId) (hsteps : r'.steps = r.steps)
    (hmeta : r'.boundary.metadata = r.boundary.metadata)
    (hst : r.status ≠ .opened ∧ r.status ≠ .prepared →
      r'.status ≠ .opened ∧ r'.status ≠ .prepared) : Tracks h (f.write tid r') :=
  ht.update hr (fun id _ => .refl h id) (fun _ => .refl h _)
    fun _ hl => hl.quiet (.refl h tid) hid hsteps hmeta hst

theorem tracks_verify (ht : Tracks h f) (expected actual : Option Entries) (reason : String) :
    Tracks h (f.verifyConsistency fingerprint tid expected actual reason now).2 := by
  rcases verifyConsistency_cases f now fingerprint tid expected actual reason with
    ⟨e, heq⟩ | ⟨r, report, hr, -, heq⟩
  · rw [heq]
    exact ht
  · rw [heq]
    exact ht.quiet hr rfl rfl rfl fun hst => hst

theorem tracks_commit (ht : Tracks h f) (expected actual : Option Entries)
    (requireConsistency : Bool) :
    Tracks h
      (f.commitTransaction fingerprint tid expected actual requireConsistency now).2 := by
  have reported {r : RuntimeTransactionRecord}
      (hr : f.transactions.get? (Text.strip tid) = some r) (report : RuntimeConsistencyReport) :
      Tracks h (f.write tid (reported r report now)) :=
    ht.quiet hr rfl rfl rfl fun hst => hst
  rcases commitTransaction_cases f now fingerprint tid expected actual requireConsistency with
    heq | ⟨r, hr, ⟨report, heq⟩ | ⟨f₁, hc, -, -, hrest⟩⟩
  · rw [heq]
    exact ht
  · rw [heq]
    exact reported hr report
  · have ht₁ : Tracks h f₁ := by
      rcases hc with rfl | ⟨report, rfl⟩
      · exact ht
      · exact reported hr report
    rcases hrest with heq | ⟨r₁, hr₁, heq⟩
    · rw [heq]
      exact ht₁
    · rw [heq]
      refine ht₁.quiet hr₁ rfl rfl rfl fun _ => ?_
      exact ⟨(by intro hst; cases hst), (by intro hst; cases hst)⟩

theorem tracks_queue (ht : Tracks h f) (currentTick : ℤ) (reason : String) :
    Tracks h (f.queueRecovery digest fingerprint tid currentTick reason now).2 := by
  rcases queueRecovery_cases f now digest fingerprint tid currentTick reason with
    heq | ⟨r, o, incident, ticket, o', -, hr, -, -, heq⟩
  · rw [heq]
    exact ht
  · have ht' : Tracks h { f with recoveryOrchestrator := some o' } :=
      ht.same rfl fun id => .refl h id
    rw [heq]
    refine ht'.quiet hr rfl rfl rfl fun _ => ?_
    exact ⟨(by intro hst; cases hst), (by intro hst; cases hst)⟩

theorem tracks_consume (ht : Tracks h f) (runner : RecoveryRunner) (currentTick limit : ℤ) :
    Tracks h
      (f.consumeRecoveryAndContinue fingerprint tid runner currentTick limit now).2 := by
  rcases consumeRecovery_cases f now fingerprint tid runner currentTick limit with
    heq | ⟨r, o, answer, o', -, hr, -, ⟨-, heq⟩ | ⟨results, result, -, -, heq⟩⟩
  · rw [heq]
    exact ht
  · rw [heq]
    exact ht.same rfl fun id => .refl h id
  · have ht' : Tracks h { f with recoveryOrchestrator := some o' } :=
      ht.same rfl fun id => .refl h id
    rw [heq]
    refine ht'.quiet hr rfl rfl rfl fun _ => ?_
    exact ⟨(by intro hst; cases hst), (by intro hst; cases hst)⟩

/-! ### Executions -/

theorem logs_executed (tid : String) (runner : Option StepRunner) (stop : Bool) (now : String)
    (answer : Except Err RuntimeTransactionRecord) (completed : List ℕ) (id : String) :
    completedBy (h ++ [(.executeTransaction tid runner stop now, .executed answer completed)]) id =
      completedBy h id ++ (if Text.strip tid = id then completed else []) ∧
    compensatedBy (h ++ [(.executeTransaction tid runner stop now, .executed answer completed)])
      id = compensatedBy h id := by
  simp [completedIn, compensatedIn]

variable {runner : Option StepRunner}

variable {answer : Except Err RuntimeTransactionRecord}

theorem sameLogs_executed {stop : Bool} {completed : List ℕ} {id : String}
    (hne : Text.strip tid = id → completed = []) :
    SameLogs h (h ++ [(.executeTransaction tid runner stop now, .executed answer completed)])
      id := by
  obtain ⟨hcomp, hback⟩ := logs_executed (h := h) tid runner stop now answer completed id
  refine ⟨?_, hback⟩
  rw [hcomp]
  split
  · rename_i hid
    rw [hne hid, List.append_nil]
  · rw [List.append_nil]

theorem tracks_execute (ht : Tracks h f) {stop : Bool}
    (hl : Logged f (.executeTransaction tid runner stop now)) :
    Tracks (h ++ [(.executeTransaction tid runner stop now,
        .executed (f.executeTransaction tid runner stop now).1.1
          (f.executeTransaction tid runner stop now).1.2)])
      (f.executeTransaction tid runner stop now).2 := by
  rcases executeTransaction_cases f now tid runner stop with
    ⟨e, heq⟩ | ⟨r, r₁, f₁, he, hout⟩
  · rw [heq]
    exact ht.same rfl fun id => sameLogs_executed fun _ => rfl
  · obtain ⟨ht₁, hr₁, hst₁, hsteps⟩ := he.tracks ht
    have hrun : stepRun r runner stop now = stepRun r₁ runner stop now := by
      unfold stepRun
      rw [hsteps]
    have hready : r.status = .opened ∨ r.status = .prepared :=
      he.start.imp (fun hs => hs.1) fun hs => hs.1
    have hguard := hl r he.read hready
    rw [hrun, ← hsteps] at hguard
    rcases hout with ⟨e, herr, heq⟩ | ⟨steps, failed, hok, heq⟩
    · rw [if_neg (by rw [herr]; simp [Except.toBool])] at hguard
      rw [heq, hguard]
      exact ht₁.same rfl fun id => sameLogs_executed fun _ => rfl
    · rw [heq]
      refine ht₁.update hr₁ ?_ ?_ ?_
      · intro id hid
        exact sameLogs_executed fun htid => absurd htid.symm hid
      · intro hcopy
        rw [if_neg (fun hc => hcopy hc.1)] at hguard
        exact sameLogs_executed fun _ => hguard
      · intro hid hledger
        rw [if_pos ⟨hid, by rw [hok]; rfl⟩] at hguard
        obtain ⟨hcomp, hback⟩ := logs_executed (h := h) tid runner stop now
          (.ok (executed r₁ steps failed now)) (stepRun r₁ runner stop now).2 tid
        rw [if_pos hid] at hcomp
        exact hledger.executed hst₁ hguard hok hcomp hback

/-! ### Rollbacks -/

variable {reason : String}

theorem sameLogs_rolledBack {handed : List ℕ} {id : String}
    (hne : Text.strip tid = id → compensatedIn id (.rollbackTransaction tid runner reason now,
      .rolledBack answer handed) = []) :
    SameLogs h (h ++ [(.rollbackTransaction tid runner reason now, .rolledBack answer handed)])
      id := by
  constructor
  · simp [completedIn]
  · simp only [compensatedBy_append, compensatedBy_singleton]
    by_cases hid : Text.strip tid = id
    · rw [hne hid, List.append_nil]
    · cases answer <;> simp [compensatedIn, hid]

theorem tracks_rollback (ht : Tracks h f)
    (hl : Logged f (.rollbackTransaction tid runner reason now)) :
    Tracks (h ++ [(.rollbackTransaction tid runner reason now,
        .rolledBack (f.rollbackTransaction tid runner reason now).1.1
          (f.rollbackTransaction tid runner reason now).1.2)])
      (f.rollbackTransaction tid runner reason now).2 := by
  rcases rollbackTransaction_cases f now tid runner reason with
    ⟨-, e, heq⟩ | ⟨r, hr, hout⟩
  · rw [heq]
    exact ht.same rfl fun id => sameLogs_rolledBack fun _ => by simp [compensatedIn]
  · have hguard := hl r hr
    rcases rollRun_cases r runner with ⟨_, hok', hno, hhanded⟩ | ⟨e', herr', hraise, hne, hpre⟩
    · rcases hout with ⟨e, herr, -⟩ | ⟨results, hok, heq⟩
      · rw [hok'] at herr
        cases herr
      · rw [heq, hhanded]
        refine ht.update hr ?_ ?_ ?_
        · intro id hid
          exact sameLogs_rolledBack fun htid => absurd htid.symm hid
        · intro hcopy
          refine sameLogs_rolledBack fun _ => ?_
          rcases hguard with hnone | ⟨-, hexact⟩
          · simp [compensatedIn, hnone]
          · rw [hno, if_neg (by simp)] at hexact
            exact absurd hexact hcopy
        · intro hid hledger
          have hback : compensatedBy h tid = [] := by
            rw [hledger.compensated]
            rcases hguard with hnone | ⟨honce, -⟩
            · simp [hnone]
            · simp [honce]
          refine hledger.rolledBack results reason (by simp [completedIn]) ?_
          simp [compensatedIn, hid, hback]
    · rcases hout with ⟨e, herr, heq⟩ | ⟨results, hok, -⟩
      · have hone : (completedIndices r.steps).length = 1 := by
          rcases hguard with hnone | ⟨-, hlen⟩
          · rw [hnone] at hpre
            exact absurd (List.prefix_nil.mp hpre) hne
          · rwa [if_pos hraise] at hlen
        have hlast : (rollRun r runner).2.dropLast = [] := by
          have hle := hpre.length_le
          rw [List.length_reverse, hone] at hle
          rw [← List.length_eq_zero_iff, List.length_dropLast]
          omega
        rw [heq]
        refine ht.same rfl fun id => sameLogs_rolledBack fun _ => ?_
        simp [compensatedIn, hlast]
      · rw [herr'] at hok
        cases hok

/-- What a rollback hands over: what was completed and not compensated, last first. -/
theorem handed_exact (ht : Tracks h f) (hl : Logged f (.rollbackTransaction tid runner reason now))
    :
    (f.rollbackTransaction tid runner reason now).1.2 =
      (completedBy h (Text.strip tid)).reverse.filter
        fun i => i ∉ compensatedBy h (Text.strip tid) := by
  rcases rollbackTransaction_cases f now tid runner reason with
    ⟨hmiss, e, heq⟩ | ⟨r, hr, hout⟩
  · have hnone : f.transactions.get? (Text.strip tid) = none := by
      rcases hmiss with hblank | hnone
      · rw [hblank]
        exact ht.blank
      · exact hnone
    rw [heq, (ht.fresh _ hnone (Text.strip_strip tid)).1]
    rfl
  · have hledger := ht.read hr
    have hanswer : (f.rollbackTransaction tid runner reason now).1.2 = (rollRun r runner).2 := by
      rcases hout with ⟨e, -, heq⟩ | ⟨results, -, heq⟩ <;> rw [heq]
    rw [hanswer, hledger.completed]
    rcases hl r hr with hnone | ⟨honce, hlen⟩
    · rw [hnone]
      rcases rollRun_cases r runner with ⟨_, -, -, hhanded⟩ | ⟨_, -, -, -, hpre⟩
      · rw [hhanded, hnone]
        rfl
      · rw [hnone] at hpre
        rw [List.prefix_nil.mp hpre]
        rfl
    · have hback : compensatedBy h (Text.strip tid) = [] := by
        rw [hledger.compensated, honce]
        rfl
      rw [hback, List.filter_eq_self.mpr (by simp)]
      rcases rollRun_cases r runner with ⟨_, -, -, hhanded⟩ | ⟨_, -, hraise, hne, hpre⟩
      · exact hhanded
      · rw [if_pos hraise] at hlen
        have hpos := List.length_pos_iff.mpr hne
        refine hpre.eq_of_length ?_
        have hle := hpre.length_le
        rw [List.length_reverse, hlen] at hle ⊢
        omega

theorem tracks_call (ht : Tracks h f) {c : FabricCall} (hl : Logged f c) :
    Tracks (h ++ [(c, (call digest fingerprint f c).1)]) (call digest fingerprint f c).2 := by
  cases c <;> simp only [call, Prod.map_snd, Prod.map_fst, id_eq]
  case executeTransaction tid runner stop now => exact tracks_execute ht hl
  case rollbackTransaction tid runner reason now => exact tracks_rollback ht hl
  case beginTransaction session execution task before steps payload metadata given now =>
    refine (tracks_begin ht session execution task before steps payload metadata given).same rfl ?_
    exact fun id => ⟨by simp [completedIn], by simp [compensatedIn]⟩
  case prepareTransaction tid now =>
    exact (tracks_prepare ht).same rfl fun id => ⟨by simp [completedIn], by simp [compensatedIn]⟩
  case verifyConsistency tid expected actual reason now =>
    exact (tracks_verify ht expected actual reason).same rfl
      fun id => ⟨by simp [completedIn], by simp [compensatedIn]⟩
  case commitTransaction tid expected actual requireConsistency now =>
    exact (tracks_commit ht expected actual requireConsistency).same rfl
      fun id => ⟨by simp [completedIn], by simp [compensatedIn]⟩
  case queueRecovery tid currentTick reason now =>
    exact (tracks_queue ht currentTick reason).same rfl
      fun id => ⟨by simp [completedIn], by simp [compensatedIn]⟩
  case consumeRecoveryAndContinue tid runner currentTick limit now =>
    exact (tracks_consume ht runner currentTick limit).same rfl
      fun id => ⟨by simp [completedIn], by simp [compensatedIn]⟩

end Step

/-! ## Whole runs -/

section Runs

variable {digest fingerprint : Val → String}

theorem tracks_init (orchestrator : Option RuntimeRecoveryOrchestrator) :
    Tracks [] ⟨.empty, orchestrator⟩ := by
  constructor
  · rfl
  · intro id _ _
    exact ⟨rfl, rfl⟩
  · intro id r _ hr
    cases hr

theorem tracks_run {orchestrator : Option RuntimeRecoveryOrchestrator} {calls : List FabricCall}
    (hg : (machine digest fingerprint).Guarded Logged ⟨.empty, orchestrator⟩ calls) :
    Tracks ((machine digest fingerprint).outputs ⟨.empty, orchestrator⟩ calls)
      ((machine digest fingerprint).run ⟨.empty, orchestrator⟩ calls) := by
  have hstep : ∀ h f c, Tracks h f → Logged f c →
      Tracks (h ++ [(c, ((machine digest fingerprint).step f c).1)])
        ((machine digest fingerprint).step f c).2 :=
    fun h f c ht hl => tracks_call ht hl
  exact Machine.Guarded.invariant_outputs hstep hg (tracks_init orchestrator)

/-- An id with blanks around it names no transaction. -/
theorem completedBy_unstripped (h : History) {id : String} (hid : Text.strip id ≠ id) :
    completedBy h id = [] := by
  refine List.flatMap_eq_nil_iff.mpr fun e _ => ?_
  unfold completedIn
  split
  · split
    · rename_i htid
      rw [← htid, Text.strip_strip] at hid
      exact absurd rfl hid
    · rfl
  · rfl

theorem Tracks.completedBy_nodup {h : History} {f : RuntimeTransactionFabric} (ht : Tracks h f)
    (id : String) : (completedBy h id).Nodup := by
  by_cases hid : Text.strip id = id
  · cases hr : f.transactions.get? id with
    | none =>
      rw [(ht.fresh id hr hid).1]
      exact List.nodup_nil
    | some r =>
      have hl := ht.ledger id r hid hr
      rw [hl.completed]
      exact completedIndices_nodup hl.numbered
  · rw [completedBy_unstripped h hid]
    exact List.nodup_nil

/-- Over a run, every step is completed at most once, and every rollback hands over the steps that
were completed and not compensated before it, last completed first. -/
def CompensationLaw (digest fingerprint : Val → String)
    (orchestrator : Option RuntimeRecoveryOrchestrator) (calls : List FabricCall) : Prop :=
  (∀ id, (completedBy ((machine digest fingerprint).outputs ⟨.empty, orchestrator⟩ calls)
    id).Nodup) ∧
  ∀ before tid runner reason now after,
    calls = before ++ .rollbackTransaction tid runner reason now :: after →
    (((machine digest fingerprint).run ⟨.empty, orchestrator⟩ before).rollbackTransaction tid runner
        reason now).1.2 =
      (completedBy ((machine digest fingerprint).outputs ⟨.empty, orchestrator⟩ before)
          (Text.strip tid)).reverse.filter fun i =>
        i ∉ compensatedBy ((machine digest fingerprint).outputs ⟨.empty, orchestrator⟩ before)
          (Text.strip tid)

theorem guarded_compensation (digest fingerprint : Val → String)
    (orchestrator : Option RuntimeRecoveryOrchestrator) (calls : List FabricCall)
    (hg : (machine digest fingerprint).Guarded Logged ⟨.empty, orchestrator⟩ calls) :
    CompensationLaw digest fingerprint orchestrator calls := by
  constructor
  · exact (tracks_run hg).completedBy_nodup
  · rintro before tid runner reason now after rfl
    obtain ⟨hbefore, hl, -⟩ := Machine.guarded_append.mp hg
    exact handed_exact (tracks_run hbefore) hl

def failsSecond : StepRunner := fun s =>
  .ok (.dict [("ok", .bool (s.stepIndex ≠ 2))])

/-- One transaction fails at its second step and is rolled back; the runner of another raises at
once, and a second execution completes it. -/
def compensatedCalls : List FabricCall :=
  [.beginTransaction "s" "" "" [] [.str "x", .str "y", .str "z"] [] [] (some "a") "0",
   .executeTransaction "a" (some failsSecond) false "1", .rollbackTransaction "a" none "" "2",
   .beginTransaction "s" "" "" [] [.str "x"] [] [] (some "b") "3",
   .executeTransaction "b" (some fun _ => .error (.raised "no")) true "4",
   .executeTransaction "b" none true "5",
   .rollbackTransaction "b" (some fun _ => .error (.raised "no")) "" "6",
   .rollbackTransaction "b" none "" "7"]

theorem guarded_compensation_sample :
    CompensationLaw (fun _ => "0") (fun _ => "0") none compensatedCalls :=
  guarded_compensation (fun _ => "0") (fun _ => "0") none compensatedCalls (by decide)

def succeeds : StepRunner := fun _ => .ok (.dict [("ok", .bool true)])

/-- After a success the status is `prepared` again: the second execution completes the step a second
time. -/
theorem executed_twice :
    ¬ CompensationLaw (fun _ => "0") (fun _ => "0") none
      [.beginTransaction "s" "" "" [] [.str "x"] [] [] (some "a") "0",
       .executeTransaction "a" (some succeeds) true "1",
       .executeTransaction "a" (some succeeds) true "2"] := by
  intro h
  have hnodup := h.1 "a"
  exact absurd hnodup (by decide)

end Runs

end RuntimeTransactionFabric
end Fabric
end ZeroRuntime
