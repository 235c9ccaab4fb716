import ZeroRuntime.Fabric.Recovery
import ZeroRuntime.Lib.Machine

/-!
# ZeroRuntime.Fabric.Transactions

The transaction fabric (`core/runtime/runtime_transaction_fabric.py`): grouped steps that are
executed, verified, committed, rolled back, queued for recovery and recovered.

A record is read under the stripped transaction id and written back under the id as it was given;
`prepare_transaction` writes under the record's own id. A runner is a function of the step it is
handed: it answers with plain data or raises. Executing and rolling back also answer with the
indices of the steps the runner completed, or was handed, in order.

`fingerprint` and `digest` stand for the hexadecimal SHA-256 of the canonical JSON text of a value
(`digest` keeps characters past ASCII, `fingerprint` escapes them); `now` is the clock reading of the
call.
-/

namespace ZeroRuntime
namespace Fabric

open Lib Goals

structure RuntimeTransactionFabric where
  transactions : Dict String RuntimeTransactionRecord := .empty
  recoveryOrchestrator : Option RuntimeRecoveryOrchestrator := none

abbrev StepRunner := RuntimeTransactionStep → Except Err Val

abbrev FabricM (α : Type) := Except Err α × RuntimeTransactionFabric

namespace RuntimeTransactionFabric

def write (f : RuntimeTransactionFabric) (id : String) (r : RuntimeTransactionRecord) :
    RuntimeTransactionFabric := { f with transactions := f.transactions.set id r }

def getTransaction (f : RuntimeTransactionFabric) (transactionId : String) :
    Except Err RuntimeTransactionRecord :=
  match validateText "transaction_id" transactionId with
  | .error e => .error e
  | .ok id =>
    match f.transactions.get? id with
    | none => .error (.rejected ("runtime transaction does not exist: " ++ Text.quoted id))
    | some r => .ok r

/-! ## Opening and preparing -/

section Begin

variable (fingerprint : Val → String)

/-- One entry of the `steps` argument, as a step; an entry that is no mapping is wrapped. -/
def beginStep (transactionId now : String) (index : ℕ) (step : Val) : RuntimeTransactionStep :=
  { stepId := "runtime-transaction-step-" ++ Text.take 16 (fingerprint (.dict
      [("transaction_id", .str transactionId), ("step_index", .int index), ("step", step)]))
    transactionId := transactionId
    stepIndex := index
    actionType := match step with
      | .dict kvs => (((Val.getIn "type" kvs).orElse (Val.getIn "action" kvs)).orElse
          (.str "unknown")).toText
      | _ => "unknown"
    payload := match step with
      | .dict kvs => kvs
      | v => [("value", v)]
    rollbackPayload := match step with
      | .dict kvs => (Val.getIn "rollback" kvs).entries
      | _ => []
    createdAt := now
    updatedAt := now }

def beginSteps (transactionId now : String) : ℕ → List Val → List RuntimeTransactionStep
  | _, [] => []
  | i, v :: vs =>
    beginStep fingerprint transactionId now i v :: beginSteps transactionId now (i + 1) vs

def opened (transactionId sourceSessionId executionId taskId : String) (beforeSnapshot : Entries)
    (steps : List Val) (payload metadata : Entries) (now : String) : RuntimeTransactionRecord :=
  { transactionId := transactionId
    sourceSessionId := sourceSessionId
    executionId := executionId
    taskId := taskId
    boundary :=
      { boundaryId := "runtime-boundary-" ++ Text.take 16 (fingerprint (.dict
          [("transaction_id", .str transactionId), ("source_session_id", .str sourceSessionId)]))
        transactionId := transactionId
        executionId := executionId
        sourceSessionId := sourceSessionId
        taskId := taskId
        beforeSnapshot := beforeSnapshot
        rollbackSnapshot := beforeSnapshot
        createdAt := now
        updatedAt := now }
    steps := beginSteps fingerprint transactionId now 1 steps
    payload := payload
    metadata := metadata
    createdAt := now
    updatedAt := now }

def beginTransaction (f : RuntimeTransactionFabric) (sourceSessionId executionId taskId : String)
    (beforeSnapshot : Entries) (steps : List Val) (payload metadata : Entries)
    (transactionId : Option String) (now : String) : FabricM RuntimeTransactionRecord :=
  match validateText "source_session_id" sourceSessionId with
  | .error e => (.error e, f)
  | .ok session =>
    let given := transactionId.getD ("runtime-transaction-" ++ Text.take 16 (fingerprint (.dict
      [("source_session_id", .str session), ("execution_id", .str executionId),
       ("task_id", .str taskId), ("steps", .list steps), ("payload", .dict payload)])))
    match validateText "transaction_id" given with
    | .error e => (.error e, f)
    | .ok id =>
      if f.transactions.contains id then
        (.error (.rejected ("runtime transaction already exists: " ++ Text.quoted id)), f)
      else
        let record := opened fingerprint id session executionId taskId beforeSnapshot steps payload
          metadata now
        (.ok record, f.write id record)

end Begin

def cannot (doing : String) (status : TransactionStatus) : Err :=
  .rejected ("transaction cannot " ++ doing ++ " from status: " ++ Text.quoted status.text)

def prepared (record : RuntimeTransactionRecord) (now : String) : RuntimeTransactionRecord :=
  { record with status := .prepared, updatedAt := now }

def prepareTransaction (f : RuntimeTransactionFabric) (transactionId now : String) :
    FabricM RuntimeTransactionRecord :=
  match f.getTransaction transactionId with
  | .error e => (.error e, f)
  | .ok record =>
    if record.status ≠ .opened then (.error (cannot "prepare" record.status), f)
    else
      (.ok (prepared record now), f.write record.transactionId (prepared record now))

/-! ## Executing -/

/-- What a runner answered, as a dictionary. -/
def asResult : Val → Entries
  | .dict kvs => kvs
  | v => [("ok", .bool true), ("result", v)]

def stepFailed (result : Entries) : Bool :=
  ((Val.find "failed" result).getD (.bool false)).truthy ||
    !((Val.find "ok" result).getD (.bool true)).truthy

/-- What stands in for the runner when none is given. -/
def defaultRunner (status : String) : StepRunner := fun step =>
  .ok (.dict [("ok", .bool true), ("status", .str status), ("step_id", .str step.stepId)])

def ranStep (step : RuntimeTransactionStep) (result : Entries) (now : String) :
    RuntimeTransactionStep :=
  { step with status := if stepFailed result then .failed else .completed
              result := result, updatedAt := now }

/-- The loop of `execute_transaction`: the steps to write back and whether one failed, unless the
runner raised; and the indices of the steps the runner completed. -/
def runSteps (runner : StepRunner) (stopOnFailure : Bool) (now : String) :
    List RuntimeTransactionStep →
      Except Err (List RuntimeTransactionStep × Bool) × List ℕ
  | [] => (.ok ([], false), [])
  | step :: steps =>
    match runner step with
    | .error e => (.error e, [])
    | .ok v =>
      let ran := ranStep step (asResult v) now
      if stepFailed (asResult v) then
        if stopOnFailure then (.ok (ran :: steps, true), [])
        else
          let rest := runSteps runner stopOnFailure now steps
          (rest.1.map fun r => (ran :: r.1, true), rest.2)
      else
        let rest := runSteps runner stopOnFailure now steps
        (rest.1.map fun r => (ran :: r.1, r.2), step.stepIndex :: rest.2)

def countStatus (status : StepStatus) (steps : List RuntimeTransactionStep) : Val :=
  .int (steps.countP fun s => s.status = status)

/-- The record after every step was run. -/
def executed (record : RuntimeTransactionRecord) (steps : List RuntimeTransactionStep)
    (failed : Bool) (now : String) : RuntimeTransactionRecord :=
  { record with
    status := if failed then .failed else .prepared
    steps := steps
    boundary := { record.boundary with
      status := if failed then .broken else .sealed
      afterSnapshot := [("steps_completed", countStatus .completed steps),
        ("steps_failed", countStatus .failed steps)]
      updatedAt := now }
    updatedAt := now }

def stepRun (record : RuntimeTransactionRecord) (runner : Option StepRunner)
    (stopOnFailure : Bool) (now : String) :
    Except Err (List RuntimeTransactionStep × Bool) × List ℕ :=
  runSteps (runner.getD (defaultRunner "completed")) stopOnFailure now record.steps

/-- The opening of `execute_transaction`: an open transaction is prepared first. -/
def readyToExecute (f : RuntimeTransactionFabric) (transactionId now : String) :
    FabricM RuntimeTransactionRecord :=
  match f.getTransaction transactionId with
  | .error e => (.error e, f)
  | .ok record =>
    if record.status = .opened then f.prepareTransaction transactionId now else (.ok record, f)

def executeTransaction (f : RuntimeTransactionFabric) (transactionId : String)
    (runner : Option StepRunner) (stopOnFailure : Bool) (now : String) :
    (Except Err RuntimeTransactionRecord × List ℕ) × RuntimeTransactionFabric :=
  match f.readyToExecute transactionId now with
  | (.error e, f) => ((.error e, []), f)
  | (.ok record, f) =>
    if record.status ≠ .prepared then ((.error (cannot "execute" record.status), []), f)
    else match stepRun record runner stopOnFailure now with
      | (.error e, completed) => ((.error e, completed), f)
      | (.ok (steps, failed), completed) =>
        let updated := executed record steps failed now
        ((.ok updated, completed), f.write transactionId updated)

/-! ## Verifying and committing -/

section Commit

variable (fingerprint : Val → String)

structure RuntimeConsistencyReport where
  reportId : String
  transactionId : String
  expectedFingerprint : String
  actualFingerprint : String
  verified : Bool
  reason : String
  expectedState : Entries
  actualState : Entries
  createdAt : String

def RuntimeConsistencyReport.toEntries (r : RuntimeConsistencyReport) : Entries :=
  [("report_id", .str r.reportId), ("transaction_id", .str r.transactionId),
    ("status", .str (if r.verified then "verified" else "mismatch")),
    ("expected_fingerprint", .str r.expectedFingerprint),
    ("actual_fingerprint", .str r.actualFingerprint), ("verified", .bool r.verified),
    ("reason", .str r.reason),
    ("payload", .dict [("expected_state", .dict r.expectedState),
      ("actual_state", .dict r.actualState)]),
    ("metadata", .dict []), ("created_at", .str r.createdAt)]

def consistencyReport (record : RuntimeTransactionRecord) (transactionId : String)
    (expectedState actualState : Option Entries) (reason now : String) :
    RuntimeConsistencyReport :=
  let expected := expectedState.getD record.boundary.beforeSnapshot
  let actual := actualState.getD record.boundary.afterSnapshot
  let expectedFp := fingerprint (.dict expected)
  let actualFp := fingerprint (.dict actual)
  { reportId := "runtime-consistency-" ++ Text.take 16 (fingerprint (.dict
      [("transaction_id", .str transactionId), ("expected", .str expectedFp),
       ("actual", .str actualFp)]))
    transactionId := transactionId
    expectedFingerprint := expectedFp
    actualFingerprint := actualFp
    verified := expectedFp = actualFp
    reason := if reason ≠ "" then reason
      else if expectedFp = actualFp then "state fingerprints match"
      else "state fingerprints mismatch"
    expectedState := expected
    actualState := actual
    createdAt := now }

def reported (record : RuntimeTransactionRecord) (report : RuntimeConsistencyReport)
    (now : String) : RuntimeTransactionRecord :=
  { record with consistencyReport := report.toEntries, updatedAt := now }

def verifyConsistency (f : RuntimeTransactionFabric) (transactionId : String)
    (expectedState actualState : Option Entries) (reason now : String) :
    FabricM RuntimeConsistencyReport :=
  match f.getTransaction transactionId with
  | .error e => (.error e, f)
  | .ok record =>
    let report := consistencyReport fingerprint record transactionId expectedState actualState
      reason now
    (.ok report, f.write transactionId (reported record report now))

/-- The check `commit_transaction` makes when consistency is required. -/
def checkConsistency (f : RuntimeTransactionFabric) (transactionId : String)
    (expectedState actualState : Option Entries) (requireConsistency : Bool) (now : String) :
    FabricM Unit :=
  if requireConsistency then
    match f.verifyConsistency fingerprint transactionId expectedState actualState "" now with
    | (.error e, f) => (.error e, f)
    | (.ok report, f) =>
      if report.verified then (.ok (), f)
      else (.error (.rejected "transaction consistency verification failed"), f)
  else (.ok (), f)

def committed (record : RuntimeTransactionRecord) (now : String) : RuntimeTransactionRecord :=
  { record with
    status := .committed
    boundary := { record.boundary with status := .sealed, updatedAt := now }
    updatedAt := now }

def commitTransaction (f : RuntimeTransactionFabric) (transactionId : String)
    (expectedState actualState : Option Entries) (requireConsistency : Bool) (now : String) :
    FabricM RuntimeTransactionRecord :=
  match f.getTransaction transactionId with
  | .error e => (.error e, f)
  | .ok record =>
    if record.status = .failed then
      (.error (.rejected "failed transaction must rollback or recover before commit"), f)
    else match f.checkConsistency fingerprint transactionId expectedState actualState
        requireConsistency now with
      | (.error e, f) => (.error e, f)
      | (.ok (), f) =>
        match f.getTransaction transactionId with
        | .error e => (.error e, f)
        | .ok record => (.ok (committed record now), f.write transactionId (committed record now))

end Commit

/-! ## Rolling back -/

/-- The loop of `rollback_transaction`, over the steps last to first: the results, unless the runner
raised, and the indices of the steps handed to it. -/
def rollSteps (runner : StepRunner) :
    List RuntimeTransactionStep → Except Err (List Val) × List ℕ
  | [] => (.ok [], [])
  | step :: steps =>
    if step.status ≠ .completed then rollSteps runner steps
    else match runner step with
      | .error e => (.error e, [step.stepIndex])
      | .ok v =>
        let rest := rollSteps runner steps
        (rest.1.map fun rs =>
            .dict [("step_id", .str step.stepId), ("result", .dict (asResult v))] :: rs,
          step.stepIndex :: rest.2)

def rollRun (record : RuntimeTransactionRecord) (rollbackRunner : Option StepRunner) :
    Except Err (List Val) × List ℕ :=
  rollSteps (rollbackRunner.getD (defaultRunner "rolled_back")) record.steps.reverse

def raisesOn (r : RuntimeTransactionRecord) (rollbackRunner : Option StepRunner) : Bool :=
  r.steps.any fun s => s.status = .completed &&
    !((rollbackRunner.getD (defaultRunner "rolled_back")) s).toBool

def completedIndices (steps : List RuntimeTransactionStep) : List ℕ :=
  (steps.filter fun s => s.status = .completed).map fun s => s.stepIndex

def rolledBack (record : RuntimeTransactionRecord) (results : List Val) (reason now : String) :
    RuntimeTransactionRecord :=
  { record with
    status := .rolledBack
    boundary := { record.boundary with
      status := .rolledBack
      afterSnapshot := record.boundary.rollbackSnapshot
      metadata := Val.put "rollback_results" (.list results)
        (Val.put "rollback_reason" (.str reason) record.boundary.metadata)
      updatedAt := now }
    updatedAt := now }

def rollbackTransaction (f : RuntimeTransactionFabric) (transactionId : String)
    (rollbackRunner : Option StepRunner) (reason now : String) :
    (Except Err RuntimeTransactionRecord × List ℕ) × RuntimeTransactionFabric :=
  match f.getTransaction transactionId with
  | .error e => ((.error e, []), f)
  | .ok record =>
    match rollRun record rollbackRunner with
    | (.error e, handed) => ((.error e, handed), f)
    | (.ok results, handed) =>
      let updated := rolledBack record results reason now
      ((.ok updated, handed), f.write transactionId updated)

/-! ## Recovering -/

section Recover

variable (digest fingerprint : Val → String)

/-- The lineage fields an incident repeats, those that are set. -/
def lineageFields (l : GoalLineage) : List (String × String) :=
  [("root_goal_id", l.rootGoalId), ("source_goal_id", l.sourceGoalId), ("goal_id", l.goalId),
    ("goal_lineage_id", l.goalLineageId), ("branch_type", l.branchType),
    ("branch_id", l.branchId), ("session_id", l.sessionId),
    ("runtime_session_id", l.runtimeSessionId)].filter fun e => e.2 ≠ ""

def createRecoveryIncident (record : RuntimeTransactionRecord) (transactionId : String)
    (currentTick : ℤ) (reason : String) : Except Err Entries := do
  let identity ← extractRuntimeIdentity true (.dict
    [("source_session_id", .str record.sourceSessionId), ("metadata", .dict record.metadata)])
  let lineage ← extractGoalLineage digest true (.dict record.metadata)
  let incidentId := "runtime-transaction-incident-" ++ Text.take 16 (fingerprint (.dict
    [("transaction_id", .str transactionId), ("status", .str record.status.text),
     ("reason", .str reason)]))
  let head : Entries :=
    [("incident_id", .str incidentId), ("incident_type", .str "runtime_transaction_failed"),
     ("source_session_id", .str record.sourceSessionId), ("session_id", .str identity.sessionId),
     ("runtime_session_id", .str identity.runtimeSessionId)]
  let named := (lineageFields lineage).foldl (fun acc e => Val.put e.1 (.str e.2) acc) head
  pure (named ++
    [("task_id", .str record.taskId), ("execution_id", .str record.executionId),
     ("transaction_id", .str record.transactionId), ("current_tick", .int currentTick),
     ("event_type", .str "failure"),
     ("payload", .dict
       [("reason", .str (if reason ≠ "" then reason else "runtime transaction failed")),
        ("transaction", record.toDict)]),
     ("metadata", .dict []), ("source", .str "runtime_transaction_fabric")])

def orchestratorRequired : Err := .rejected "runtime_transaction_recovery_orchestrator_required"

def queued (record : RuntimeTransactionRecord) (ticket : RuntimeRecoveryTicket) (now : String) :
    RuntimeTransactionRecord :=
  { record with status := .recoveryQueued, recoveryTicket := ticket.toEntries, updatedAt := now }

def queueRecovery (f : RuntimeTransactionFabric) (transactionId : String) (currentTick : ℤ)
    (reason now : String) : FabricM RuntimeTransactionRecord :=
  match f.recoveryOrchestrator with
  | none => (.error orchestratorRequired, f)
  | some o =>
    match f.getTransaction transactionId with
    | .error e => (.error e, f)
    | .ok record =>
      match createRecoveryIncident digest fingerprint record transactionId currentTick reason with
      | .error e => (.error e, f)
      | .ok incident =>
        match o.submitIncident fingerprint incident currentTick now with
        | (.error e, o) => (.error e, { f with recoveryOrchestrator := some o })
        | (.ok ticket, o) =>
          (.ok (queued record ticket now),
            { f with recoveryOrchestrator := some o }.write transactionId
              (queued record ticket now))

def matchingResult (recoveryId : String) (results : List RuntimeRecoveryOrchestratorResult) :
    Option RuntimeRecoveryOrchestratorResult :=
  (results.find? fun r => r.ticket.recoveryId = recoveryId).or results.head?

def recovered (record : RuntimeTransactionRecord) (transactionId recoveryId : String)
    (result : RuntimeRecoveryOrchestratorResult) (now : String) : RuntimeTransactionRecord :=
  { record with
    status := .recovered
    recoveryResult := result.toEntries
    continuationRef :=
      [("continuation_id", .str ("runtime-transaction-continuation-" ++ Text.take 16
        (fingerprint (.dict [("transaction_id", .str transactionId),
          ("recovery_id", .str recoveryId)])))),
       ("transaction_id", .str transactionId),
       ("source_session_id", .str record.sourceSessionId), ("status", .str "ready"),
       ("recovery_result", .dict result.toEntries), ("created_at", .str now)]
    updatedAt := now }

/-- `str(record.recovery_ticket.get("recovery_id") or "")` -/
def ownRecoveryId (record : RuntimeTransactionRecord) : String :=
  ((Val.getIn "recovery_id" record.recoveryTicket).orElse (.str "")).toText

def consumeRecoveryAndContinue (f : RuntimeTransactionFabric) (transactionId : String)
    (runner : RecoveryRunner) (currentTick limit : ℤ) (now : String) :
    FabricM RuntimeTransactionRecord :=
  match f.recoveryOrchestrator with
  | none => (.error orchestratorRequired, f)
  | some o =>
    match f.getTransaction transactionId with
    | .error e => (.error e, f)
    | .ok record =>
      match o.consumeReady runner currentTick limit now with
      | (.error e, o) => (.error e, { f with recoveryOrchestrator := some o })
      | (.ok results, o) =>
        let f := { f with recoveryOrchestrator := some o }
        match matchingResult (ownRecoveryId record) results with
        | none => (.error (.rejected "runtime_transaction_recovery_result_not_available"), f)
        | some result =>
          let updated := recovered fingerprint record transactionId (ownRecoveryId record) result now
          (.ok updated, f.write transactionId updated)

end Recover

/-! ## What a call does -/

section Cases

variable {f : RuntimeTransactionFabric} {now : String}

variable {transactionId : String}

variable {r : RuntimeTransactionRecord}

theorem getTransaction_ok (h : f.getTransaction transactionId = .ok r) :
    f.transactions.get? (Text.strip transactionId) = some r := by
  unfold getTransaction at h
  split at h
  · cases h
  · rename_i id hid
    obtain rfl := validateText_ok hid
    split at h
    · cases h
    · rename_i r' hr
      cases h
      exact hr

theorem getTransaction_replaced {f f' : RuntimeTransactionFabric} {id : String}
    {r' : RuntimeTransactionRecord} (h : f.getTransaction id = .ok r)
    (hr' : f'.transactions.get? (Text.strip id) = some r') : f'.getTransaction id = .ok r' := by
  unfold getTransaction at h ⊢
  split at h
  · cases h
  · rename_i id' hid
    obtain rfl := validateText_ok hid
    simp only [hr']

/-- No transaction is read: the id is blank, or nothing is filed under it. -/
theorem getTransaction_error {e : Err} (h : f.getTransaction transactionId = .error e) :
    Text.strip transactionId = "" ∨ f.transactions.get? (Text.strip transactionId) = none := by
  unfold getTransaction validateText at h
  simp only at h
  split at h
  · rename_i hid
    split at hid
    · rename_i hblank
      exact .inl hblank
    · cases hid
  · rename_i id hid
    split at hid
    · cases hid
    · cases hid
      split at h
      · rename_i hnone
        exact .inr hnone
      · cases h

variable (f) (now)

theorem beginTransaction_cases (fingerprint : Val → String)
    (sourceSessionId executionId taskId : String) (beforeSnapshot : Entries) (steps : List Val)
    (payload metadata : Entries) (given : Option String) :
    (f.beginTransaction fingerprint sourceSessionId executionId taskId beforeSnapshot steps payload
      metadata given now).2 = f ∨
    ∃ id session, Text.strip id = id ∧ id ≠ "" ∧ f.transactions.get? id = none ∧
      (f.beginTransaction fingerprint sourceSessionId executionId taskId beforeSnapshot steps
        payload metadata given now).2 =
        f.write id (opened fingerprint id session executionId taskId beforeSnapshot steps payload
          metadata now) := by
  unfold beginTransaction
  split
  · exact .inl rfl
  · rename_i session _
    simp only
    split
    · exact .inl rfl
    · rename_i id hid
      have hstrip : Text.strip id = id := by rw [validateText_ok hid, Text.strip_strip]
      have hne : id ≠ "" := validateText_ne hid
      split
      · exact .inl rfl
      · rename_i hnew
        refine .inr ⟨id, session, hstrip, hne, ?_, rfl⟩
        simpa [Dict.contains] using hnew

theorem prepareTransaction_cases (transactionId : String) :
    (∃ e, f.prepareTransaction transactionId now = (.error e, f)) ∨
    ∃ r, f.transactions.get? (Text.strip transactionId) = some r ∧ r.status = .opened ∧
      f.prepareTransaction transactionId now =
        (.ok (prepared r now), f.write r.transactionId (prepared r now)) := by
  unfold prepareTransaction
  split
  · rename_i e _
    exact .inl ⟨e, rfl⟩
  · rename_i r hr
    split
    · exact .inl ⟨_, rfl⟩
    · rename_i hst
      exact .inr ⟨r, getTransaction_ok hr, not_not.mp hst, rfl⟩

/-- The record `execute_transaction` runs the steps of, and the fabric it is then in. -/
theorem readyToExecute_cases (transactionId now : String) :
    (∃ e, f.readyToExecute transactionId now = (.error e, f)) ∨
    ∃ r, f.transactions.get? (Text.strip transactionId) = some r ∧
      ((r.status = .opened ∧ f.readyToExecute transactionId now =
        (.ok (prepared r now), f.write r.transactionId (prepared r now))) ∨
      (r.status ≠ .opened ∧ f.readyToExecute transactionId now = (.ok r, f))) := by
  unfold readyToExecute
  cases hr : f.getTransaction transactionId with
  | error e => exact .inl ⟨e, rfl⟩
  | ok r =>
    refine .inr ⟨r, getTransaction_ok hr, ?_⟩
    simp only
    split
    · rename_i hst
      refine .inl ⟨hst, ?_⟩
      simp only [prepareTransaction, hr, hst, ne_eq, not_true_eq_false, if_false]
    · rename_i hst
      exact .inr ⟨hst, rfl⟩

/-- What the runner of an execution meets: the record, prepared, and the fabric that holds it. -/
structure Executes (f : RuntimeTransactionFabric) (transactionId now : String)
    (r r₁ : RuntimeTransactionRecord) (f₁ : RuntimeTransactionFabric) : Prop where
  read : f.transactions.get? (Text.strip transactionId) = some r
  start : (r.status = .opened ∧ r₁ = prepared r now ∧ f₁ = f.write r.transactionId r₁) ∨
    (r.status = .prepared ∧ r₁ = r ∧ f₁ = f)

theorem executeTransaction_ready {r₁ : RuntimeTransactionRecord} {f₁ : RuntimeTransactionFabric}
    (runner : Option StepRunner) (stopOnFailure : Bool)
    (hready : f.readyToExecute transactionId now = (.ok r₁, f₁)) (hst : r₁.status = .prepared) :
    (∃ e, (stepRun r₁ runner stopOnFailure now).1 = .error e ∧
      f.executeTransaction transactionId runner stopOnFailure now =
        ((.error e, (stepRun r₁ runner stopOnFailure now).2), f₁)) ∨
    ∃ steps failed, (stepRun r₁ runner stopOnFailure now).1 = .ok (steps, failed) ∧
      f.executeTransaction transactionId runner stopOnFailure now =
        ((.ok (executed r₁ steps failed now), (stepRun r₁ runner stopOnFailure now).2),
          f₁.write transactionId (executed r₁ steps failed now)) := by
  unfold executeTransaction
  simp only [hready, hst, ne_eq, not_true_eq_false, if_false]
  rcases stepRun r₁ runner stopOnFailure now with ⟨out, completed⟩
  cases out with
  | error e => exact .inl ⟨e, rfl, rfl⟩
  | ok o => exact .inr ⟨o.1, o.2, rfl, rfl⟩

/-- An execution that does not run the steps changes nothing; one that does writes the result back,
unless the runner raises. -/
theorem executeTransaction_cases (transactionId : String) (runner : Option StepRunner)
    (stopOnFailure : Bool) :
    (∃ e, f.executeTransaction transactionId runner stopOnFailure now = ((.error e, []), f)) ∨
    ∃ r r₁ f₁, Executes f transactionId now r r₁ f₁ ∧
      ((∃ e, (stepRun r₁ runner stopOnFailure now).1 = .error e ∧
        f.executeTransaction transactionId runner stopOnFailure now =
          ((.error e, (stepRun r₁ runner stopOnFailure now).2), f₁)) ∨
      ∃ steps failed, (stepRun r₁ runner stopOnFailure now).1 = .ok (steps, failed) ∧
        f.executeTransaction transactionId runner stopOnFailure now =
          ((.ok (executed r₁ steps failed now), (stepRun r₁ runner stopOnFailure now).2),
            f₁.write transactionId (executed r₁ steps failed now))) := by
  rcases readyToExecute_cases f transactionId now with
    ⟨e, hready⟩ | ⟨r, hr, ⟨hst, hready⟩ | ⟨hst, hready⟩⟩
  · left
    exact ⟨e, by unfold executeTransaction; rw [hready]⟩
  · exact .inr ⟨r, _, _, ⟨hr, .inl ⟨hst, rfl, rfl⟩⟩,
      executeTransaction_ready f now runner stopOnFailure hready rfl⟩
  · by_cases hp : r.status = .prepared
    · exact .inr ⟨r, r, f, ⟨hr, .inr ⟨hp, rfl, rfl⟩⟩,
        executeTransaction_ready f now runner stopOnFailure hready hp⟩
    · left
      refine ⟨cannot "execute" r.status, ?_⟩
      unfold executeTransaction
      simp only [hready, ne_eq, hp, not_false_eq_true, if_true]

theorem verifyConsistency_cases (fingerprint : Val → String) (transactionId : String)
    (expectedState actualState : Option Entries) (reason : String) :
    (∃ e, f.verifyConsistency fingerprint transactionId expectedState actualState reason now =
      (.error e, f)) ∨
    ∃ r report, f.transactions.get? (Text.strip transactionId) = some r ∧
      report = consistencyReport fingerprint r transactionId expectedState actualState reason now ∧
      f.verifyConsistency fingerprint transactionId expectedState actualState reason now =
        (.ok report, f.write transactionId (reported r report now)) := by
  unfold verifyConsistency
  cases hr : f.getTransaction transactionId with
  | error e => exact .inl ⟨e, rfl⟩
  | ok r => exact .inr ⟨r, _, getTransaction_ok hr, rfl, rfl⟩

/-- The fabric after a consistency check that passed, or was not asked for. -/
def Checked (f : RuntimeTransactionFabric) (transactionId now : String)
    (r : RuntimeTransactionRecord) (f₁ : RuntimeTransactionFabric) : Prop :=
  f₁ = f ∨ ∃ report, f₁ = f.write transactionId (reported r report now)

theorem checkConsistency_cases (fingerprint : Val → String) (now : String)
    (expectedState actualState : Option Entries) (requireConsistency : Bool)
    (hr : f.getTransaction transactionId = .ok r) :
    (∃ e report, f.checkConsistency fingerprint transactionId expectedState actualState
        requireConsistency now = (.error e, f.write transactionId (reported r report now))) ∨
    ∃ f₁, Checked f transactionId now r f₁ ∧
      (requireConsistency = true → (consistencyReport fingerprint r transactionId expectedState
        actualState "" now).verified = true) ∧
      f.checkConsistency fingerprint transactionId expectedState actualState requireConsistency
        now = (.ok (), f₁) := by
  unfold checkConsistency verifyConsistency
  cases requireConsistency with
  | false => exact .inr ⟨f, .inl rfl, (by intro h; cases h), rfl⟩
  | true =>
    simp only [hr, if_true]
    split
    · rename_i hv
      exact .inr ⟨_, .inr ⟨_, rfl⟩, fun _ => hv, rfl⟩
    · exact .inl ⟨_, _, rfl⟩

theorem commitTransaction_cases (fingerprint : Val → String) (transactionId : String)
    (expectedState actualState : Option Entries) (requireConsistency : Bool) :
    (f.commitTransaction fingerprint transactionId expectedState actualState requireConsistency
      now).2 = f ∨
    ∃ r, f.transactions.get? (Text.strip transactionId) = some r ∧
      ((∃ report, (f.commitTransaction fingerprint transactionId expectedState actualState
        requireConsistency now).2 = f.write transactionId (reported r report now)) ∨
      ∃ f₁, Checked f transactionId now r f₁ ∧ r.status ≠ .failed ∧
        (requireConsistency = true → (consistencyReport fingerprint r transactionId expectedState
          actualState "" now).verified = true) ∧
        ((f.commitTransaction fingerprint transactionId expectedState actualState
          requireConsistency now).2 = f₁ ∨
        ∃ r₁, f₁.transactions.get? (Text.strip transactionId) = some r₁ ∧
          (f.commitTransaction fingerprint transactionId expectedState actualState
            requireConsistency now).2 = f₁.write transactionId (committed r₁ now))) := by
  unfold commitTransaction
  cases hr : f.getTransaction transactionId with
  | error e => exact .inl rfl
  | ok r =>
    simp only
    split
    · exact .inl rfl
    · rename_i hst
      refine .inr ⟨r, getTransaction_ok hr, ?_⟩
      rcases checkConsistency_cases f fingerprint now expectedState actualState
          requireConsistency hr with ⟨e, report, hc⟩ | ⟨f₁, hf₁, hv, hc⟩
      · left
        exact ⟨report, by rw [hc]⟩
      · refine .inr ⟨f₁, hf₁, hst, hv, ?_⟩
        simp only [hc]
        cases hr₁ : f₁.getTransaction transactionId with
        | error e => exact .inl rfl
        | ok r₁ => exact .inr ⟨r₁, getTransaction_ok hr₁, rfl⟩

/-- A rollback loop hands over the completed steps, up to and including one the runner raises on. -/
theorem rollSteps_cases (runner : StepRunner) (steps : List RuntimeTransactionStep) :
    (∃ results, (rollSteps runner steps).1 = .ok results ∧
      (rollSteps runner steps).2 = completedIndices steps ∧
      ∀ s ∈ steps, s.status = .completed → (runner s).toBool = true) ∨
    ∃ e, (rollSteps runner steps).1 = .error e ∧ (rollSteps runner steps).2 ≠ [] ∧
      (rollSteps runner steps).2 <+: completedIndices steps ∧
      ∃ s ∈ steps, s.status = .completed ∧ (runner s).toBool = false := by
  induction steps with
  | nil => exact .inl ⟨[], rfl, rfl, by simp⟩
  | cons step steps ih =>
    unfold rollSteps
    by_cases hst : step.status = .completed
    · have hidx : completedIndices (step :: steps) = step.stepIndex :: completedIndices steps := by
        simp [completedIndices, hst]
      rw [hidx]
      simp only [hst, ne_eq, not_true_eq_false, if_false]
      cases hrun : runner step with
      | error e =>
        refine .inr ⟨e, rfl, by simp, by simp, step, List.mem_cons_self, hst, ?_⟩
        rw [hrun]
        rfl
      | ok v =>
        simp only
        rcases ih with ⟨results, h₁, h₂, hall⟩ | ⟨e, h₁, hne, hpre, s, hs, hcomp, hraise⟩
        · left
          refine ⟨_, by rw [h₁]; rfl, by rw [h₂], ?_⟩
          intro s hs hcomp
          rcases List.mem_cons.mp hs with rfl | hs
          · rw [hrun]
            rfl
          · exact hall s hs hcomp
        · right
          refine ⟨e, by rw [h₁]; rfl, by simp, ?_, s, List.mem_cons_of_mem _ hs, hcomp, hraise⟩
          exact (List.prefix_cons_inj _).mpr hpre
    · have hidx : completedIndices (step :: steps) = completedIndices steps := by
        simp [completedIndices, hst]
      rw [hidx]
      simp only [hst, ne_eq, not_false_eq_true, if_true]
      rcases ih with ⟨results, h₁, h₂, hall⟩ | ⟨e, h₁, hne, hpre, s, hs, hcomp, hraise⟩
      · left
        refine ⟨results, h₁, h₂, ?_⟩
        intro s hs hcomp
        rcases List.mem_cons.mp hs with rfl | hs
        · exact absurd hcomp hst
        · exact hall s hs hcomp
      · exact .inr ⟨e, h₁, hne, hpre, s, List.mem_cons_of_mem _ hs, hcomp, hraise⟩

theorem completedIndices_reverse (steps : List RuntimeTransactionStep) :
    completedIndices steps.reverse = (completedIndices steps).reverse := by
  simp [completedIndices, List.filter_reverse, List.map_reverse]

/-- A rollback run hands over the completed steps last to first, unless the runner raises. -/
theorem rollRun_cases (r : RuntimeTransactionRecord) (rollbackRunner : Option StepRunner) :
    (∃ results, (rollRun r rollbackRunner).1 = .ok results ∧ raisesOn r rollbackRunner = false ∧
      (rollRun r rollbackRunner).2 = (completedIndices r.steps).reverse) ∨
    ∃ e, (rollRun r rollbackRunner).1 = .error e ∧ raisesOn r rollbackRunner = true ∧
      (rollRun r rollbackRunner).2 ≠ [] ∧
      (rollRun r rollbackRunner).2 <+: (completedIndices r.steps).reverse := by
  rw [← completedIndices_reverse]
  unfold rollRun raisesOn
  rcases rollSteps_cases (rollbackRunner.getD (defaultRunner "rolled_back")) r.steps.reverse with
    ⟨results, h₁, h₂, hall⟩ | ⟨e, h₁, hne, hpre, s, hs, hcomp, hraise⟩
  · refine .inl ⟨results, h₁, List.any_eq_false.mpr ?_, h₂⟩
    intro s hs
    by_cases hcomp : s.status = .completed
    · simp [hcomp, hall s (List.mem_reverse.mpr hs) hcomp]
    · simp [hcomp]
  · refine .inr ⟨e, h₁, List.any_eq_true.mpr ⟨s, List.mem_reverse.mp hs, ?_⟩, hne, hpre⟩
    simp [hcomp, hraise]

theorem rollbackTransaction_cases (transactionId : String) (rollbackRunner : Option StepRunner)
    (reason : String) :
    ((Text.strip transactionId = "" ∨ f.transactions.get? (Text.strip transactionId) = none) ∧
      ∃ e, f.rollbackTransaction transactionId rollbackRunner reason now = ((.error e, []), f)) ∨
    ∃ r, f.transactions.get? (Text.strip transactionId) = some r ∧
      ((∃ e, (rollRun r rollbackRunner).1 = .error e ∧
        f.rollbackTransaction transactionId rollbackRunner reason now =
          ((.error e, (rollRun r rollbackRunner).2), f)) ∨
      ∃ results, (rollRun r rollbackRunner).1 = .ok results ∧
        f.rollbackTransaction transactionId rollbackRunner reason now =
          ((.ok (rolledBack r results reason now), (rollRun r rollbackRunner).2),
            f.write transactionId (rolledBack r results reason now))) := by
  unfold rollbackTransaction
  cases hr : f.getTransaction transactionId with
  | error e => exact .inl ⟨getTransaction_error hr, e, rfl⟩
  | ok r =>
    refine .inr ⟨r, getTransaction_ok hr, ?_⟩
    simp only
    rcases rollRun r rollbackRunner with ⟨out, handed⟩
    cases out with
    | error e => exact .inl ⟨e, rfl, rfl⟩
    | ok results => exact .inr ⟨results, rfl, rfl⟩

theorem queueRecovery_cases (digest fingerprint : Val → String) (transactionId : String)
    (currentTick : ℤ) (reason : String) :
    (f.queueRecovery digest fingerprint transactionId currentTick reason now).2 = f ∨
    ∃ r o incident ticket o', f.recoveryOrchestrator = some o ∧
      f.transactions.get? (Text.strip transactionId) = some r ∧
      createRecoveryIncident digest fingerprint r transactionId currentTick reason =
        .ok incident ∧
      o.submitIncident fingerprint incident currentTick now = (.ok ticket, o') ∧
      (f.queueRecovery digest fingerprint transactionId currentTick reason now).2 =
        { f with recoveryOrchestrator := some o' }.write transactionId (queued r ticket now) := by
  unfold queueRecovery
  cases ho : f.recoveryOrchestrator with
  | none => exact .inl rfl
  | some o =>
    cases hr : f.getTransaction transactionId with
    | error e => exact .inl rfl
    | ok r =>
      simp only
      cases hi : createRecoveryIncident digest fingerprint r transactionId currentTick reason with
      | error e => exact .inl rfl
      | ok incident =>
        simp only
        rcases o.submitIncident_cases fingerprint incident currentTick now with
          ⟨e, hsub⟩ | ⟨ticket, hsub, -⟩
        · left
          rw [hsub]
          simp only [← ho]
        · rw [hsub]
          exact .inr ⟨r, o, incident, ticket, _, rfl, getTransaction_ok hr, hi, hsub, rfl⟩

variable {results : List RuntimeRecoveryOrchestratorResult}

theorem matchingResult_mem {recoveryId : String} {result : RuntimeRecoveryOrchestratorResult}
    (h : matchingResult recoveryId results = some result) : result ∈ results := by
  rcases Option.or_eq_some_iff.mp h with hfind | ⟨-, hhead⟩
  · exact List.mem_of_find?_eq_some hfind
  · exact List.mem_of_head? hhead

theorem matchingResult_none {recoveryId : String} (h : matchingResult recoveryId results = none) :
    results = [] :=
  List.head?_eq_none_iff.mp (Option.or_eq_none_iff.mp h).2

/-- A call that has results takes the matching one; one that has none only moves the queue on. -/
theorem consumeRecovery_cases (fingerprint : Val → String) (transactionId : String)
    (runner : RecoveryRunner) (currentTick limit : ℤ) :
    (f.consumeRecoveryAndContinue fingerprint transactionId runner currentTick limit now).2 = f ∨
    ∃ r o answer o', f.recoveryOrchestrator = some o ∧
      f.transactions.get? (Text.strip transactionId) = some r ∧
      o.consumeReady runner currentTick limit now = (answer, o') ∧
      (((∀ results, answer = .ok results → results = []) ∧
        (f.consumeRecoveryAndContinue fingerprint transactionId runner currentTick limit now).2 =
          { f with recoveryOrchestrator := some o' }) ∨
      ∃ results result, answer = .ok results ∧
        matchingResult (ownRecoveryId r) results = some result ∧
        (f.consumeRecoveryAndContinue fingerprint transactionId runner currentTick limit now).2 =
          { f with recoveryOrchestrator := some o' }.write transactionId
            (recovered fingerprint r transactionId (ownRecoveryId r) result now)) := by
  unfold consumeRecoveryAndContinue
  cases ho : f.recoveryOrchestrator with
  | none => exact .inl rfl
  | some o =>
    cases hr : f.getTransaction transactionId with
    | error e => exact .inl rfl
    | ok r =>
      simp only
      cases hrun : o.consumeReady runner currentTick limit now with
      | mk answer o' =>
        refine .inr ⟨r, o, answer, o', rfl, getTransaction_ok hr, hrun, ?_⟩
        cases answer with
        | error e => exact .inl ⟨(by intro results h; cases h), rfl⟩
        | ok results =>
          simp only
          cases hm : matchingResult (ownRecoveryId r) results with
          | none =>
            refine .inl ⟨?_, rfl⟩
            rintro _ ⟨⟩
            exact matchingResult_none hm
          | some result => exact .inr ⟨results, result, rfl, hm, rfl⟩

end Cases

/-! ## Runs -/

inductive FabricCall where
  | beginTransaction (sourceSessionId executionId taskId : String) (beforeSnapshot : Entries)
      (steps : List Val) (payload metadata : Entries) (transactionId : Option String)
      (now : String)
  | prepareTransaction (transactionId now : String)
  | executeTransaction (transactionId : String) (runner : Option StepRunner)
      (stopOnFailure : Bool) (now : String)
  | verifyConsistency (transactionId : String) (expectedState actualState : Option Entries)
      (reason now : String)
  | commitTransaction (transactionId : String) (expectedState actualState : Option Entries)
      (requireConsistency : Bool) (now : String)
  | rollbackTransaction (transactionId : String) (rollbackRunner : Option StepRunner)
      (reason now : String)
  | queueRecovery (transactionId : String) (currentTick : ℤ) (reason now : String)
  | consumeRecoveryAndContinue (transactionId : String) (runner : RecoveryRunner)
      (currentTick limit : ℤ) (now : String)

inductive FabricAnswer where
  | record (r : Except Err RuntimeTransactionRecord)
  | report (r : Except Err RuntimeConsistencyReport)
  | executed (r : Except Err RuntimeTransactionRecord) (completed : List ℕ)
  | rolledBack (r : Except Err RuntimeTransactionRecord) (handed : List ℕ)

def call (digest fingerprint : Val → String) (f : RuntimeTransactionFabric) :
    FabricCall → FabricAnswer × RuntimeTransactionFabric
  | .beginTransaction session execution task before steps payload metadata given now =>
    (f.beginTransaction fingerprint session execution task before steps payload metadata given
      now).map .record id
  | .prepareTransaction tid now => (f.prepareTransaction tid now).map .record id
  | .executeTransaction tid runner stopOnFailure now =>
    (f.executeTransaction tid runner stopOnFailure now).map (fun a => .executed a.1 a.2) id
  | .verifyConsistency tid expected actual reason now =>
    (f.verifyConsistency fingerprint tid expected actual reason now).map .report id
  | .commitTransaction tid expected actual requireConsistency now =>
    (f.commitTransaction fingerprint tid expected actual requireConsistency now).map .record id
  | .rollbackTransaction tid runner reason now =>
    (f.rollbackTransaction tid runner reason now).map (fun a => .rolledBack a.1 a.2) id
  | .queueRecovery tid currentTick reason now =>
    (f.queueRecovery digest fingerprint tid currentTick reason now).map .record id
  | .consumeRecoveryAndContinue tid runner currentTick limit now =>
    (f.consumeRecoveryAndContinue fingerprint tid runner currentTick limit now).map .record id

def machine (digest fingerprint : Val → String) :
    Machine RuntimeTransactionFabric FabricCall FabricAnswer := ⟨call digest fingerprint⟩

/-- The calls made so far, with their answers. -/
abbrev History := List (FabricCall × FabricAnswer)

end RuntimeTransactionFabric
end Fabric
end ZeroRuntime
