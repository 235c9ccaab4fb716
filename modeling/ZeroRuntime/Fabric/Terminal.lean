import ZeroRuntime.Fabric.Transactions

/-!
# ZeroRuntime.Fabric.Terminal

Terminal statuses over whole runs of the transaction fabric.

`TERMINAL_TRANSACTION_STATUSES` is declared and read by nothing: `commit_transaction`,
`rollback_transaction`, `queue_recovery` and `consume_recovery_and_continue` move a transaction out
of a terminal status, and `commit_transaction` takes one that was never executed.

* `Settled`: what a record says about its own past. A sealed boundary stands for an execution that
  completed every step, and only a sealed transaction is committed.
* `sound_call`: a `Safe` call keeps `Settled` for every record and leaves terminal statuses alone.
* `guarded_terminal`: the same for runs of safe calls.
* `commit_rolled_back`: a committed transaction that is rolled back.

Records filed under an id with blanks around it are copies that `get_transaction` never reads, so
nothing is said about them.
-/

namespace ZeroRuntime
namespace Fabric
namespace RuntimeTransactionFabric

open Lib Goals

/-- Some `execute_transaction` on the transaction has come back with its record. -/
def Ran (h : History) (id : String) : Prop :=
  ∃ e ∈ h, ∃ tid runner stop now r completed,
    e = (.executeTransaction tid runner stop now, .executed (.ok r) completed) ∧
    Text.strip tid = id

theorem Ran.append {h : History} {id : String} (hr : Ran h id) (h' : History) :
    Ran (h ++ h') id := by
  obtain ⟨e, he, hran⟩ := hr
  exact ⟨e, List.mem_append_left h' he, hran⟩

def AllCompleted (r : RuntimeTransactionRecord) : Prop := ∀ s ∈ r.steps, s.status = .completed

/-! ## The invariant of one record -/

structure Settled (h : History) (id : String) (r : RuntimeTransactionRecord) : Prop where
  filed : r.transactionId = id
  sealed : r.boundary.status = .sealed → Ran h id ∧ AllCompleted r
  committed : r.status = .committed → r.boundary.status = .sealed
  rolledBack : r.status = .rolledBack → r.boundary.status = .rolledBack
  escalated : r.status ≠ .escalated

/-- The record `r'` may take the place of `r`. -/
structure Advances (h : History) (id : String) (r r' : RuntimeTransactionRecord) : Prop where
  settled : Settled h id r'
  kept : r.status.terminal = true → r'.status = r.status

theorem runSteps_completed {runner : StepRunner} {stop : Bool} {now : String}
    {steps out : List RuntimeTransactionStep}
    (h : (runSteps runner stop now steps).1 = .ok (out, false)) :
    ∀ s ∈ out, s.status = .completed := by
  induction steps generalizing out with
  | nil =>
    cases h
    intro s hs
    cases hs
  | cons step steps ih =>
    unfold runSteps at h
    cases hrun : runner step with
    | error e =>
      rw [hrun] at h
      cases h
    | ok v =>
      rw [hrun] at h
      simp only at h
      split at h
      · split at h
        · cases h
        · cases hrest : (runSteps runner stop now steps).1 with
          | error e =>
            rw [hrest] at h
            cases h
          | ok rest =>
            rw [hrest] at h
            injection h with h
            have := congrArg Prod.snd h
            cases this
      · rename_i hok
        cases hrest : (runSteps runner stop now steps).1 with
        | error e =>
          rw [hrest] at h
          cases h
        | ok rest =>
          obtain ⟨more, failed⟩ := rest
          rw [hrest] at h
          injection h with h
          obtain ⟨rfl, rfl⟩ := Prod.mk.injEq .. ▸ h
          intro s hs
          rcases List.mem_cons.mp hs with rfl | hs
          · simp only [ranStep, hok, Bool.false_eq_true, if_false]
          · exact ih hrest s hs

section Record

variable {h : History} {id now : String} {r : RuntimeTransactionRecord}

theorem Settled.append (hs : Settled h id r) (h' : History) : Settled (h ++ h') id r := by
  constructor
  · exact hs.filed
  · intro hb
    obtain ⟨hran, hall⟩ := hs.sealed hb
    exact ⟨hran.append h', hall⟩
  · exact hs.committed
  · exact hs.rolledBack
  · exact hs.escalated

theorem settled_opened (fingerprint : Val → String)
    (sourceSessionId executionId taskId : String) (beforeSnapshot : Entries) (steps : List Val)
    (payload metadata : Entries) :
    Settled h id (opened fingerprint id sourceSessionId executionId taskId beforeSnapshot steps
      payload metadata now) := by
  constructor
  · rfl
  · intro hb
    cases hb
  · intro hst
    cases hst
  · intro hst
    cases hst
  · intro hst
    cases hst

theorem Settled.moved (hs : Settled h id r) {r' : RuntimeTransactionRecord}
    (hid : r'.transactionId = r.transactionId) (hb : r'.boundary = r.boundary)
    (hsteps : r'.steps = r.steps) (hst : r'.status.terminal = false)
    (hfrom : r.status.terminal = false) : Advances h id r r' := by
  have hne : ∀ s : TransactionStatus, s.terminal = true → r'.status ≠ s := by
    rintro s ht rfl
    rw [hst] at ht
    cases ht
  constructor
  · constructor
    · exact hid.trans hs.filed
    · intro hseal
      rw [hb] at hseal
      obtain ⟨hran, hall⟩ := hs.sealed hseal
      exact ⟨hran, fun s hmem => hall s (hsteps ▸ hmem)⟩
    · intro hc
      exact absurd hc (hne .committed rfl)
    · intro hrb
      exact absurd hrb (hne .rolledBack rfl)
    · exact hne .escalated rfl
  · intro ht
    rw [hfrom] at ht
    cases ht

theorem Settled.reported (hs : Settled h id r) (report : RuntimeConsistencyReport) :
    Advances h id r (RuntimeTransactionFabric.reported r report now) :=
  ⟨⟨hs.filed, hs.sealed, hs.committed, hs.rolledBack, hs.escalated⟩, fun _ => rfl⟩

theorem Settled.executed (hs : Settled h id r) (hst : r.status = .prepared)
    {steps : List RuntimeTransactionStep} {failed : Bool} (hran : Ran h id)
    (hsteps : failed = false → ∀ s ∈ steps, s.status = .completed) :
    Advances h id r (RuntimeTransactionFabric.executed r steps failed now) := by
  have hkept : r.status.terminal = true →
      (RuntimeTransactionFabric.executed r steps failed now).status = r.status := by
    intro ht
    rw [hst] at ht
    cases ht
  cases failed with
  | false =>
    exact ⟨⟨hs.filed, fun _ => ⟨hran, hsteps rfl⟩, (by intro hc; cases hc),
      (by intro hc; cases hc), (by intro hc; cases hc)⟩, hkept⟩
  | true =>
    exact ⟨⟨hs.filed, (by intro hc; cases hc), (by intro hc; cases hc), (by intro hc; cases hc),
      (by intro hc; cases hc)⟩, hkept⟩

theorem Settled.committing (hs : Settled h id r) (hseal : r.boundary.status = .sealed) :
    Advances h id r (RuntimeTransactionFabric.committed r now) := by
  constructor
  · exact ⟨hs.filed, fun _ => hs.sealed hseal, fun _ => rfl, (by intro hc; cases hc),
      (by intro hc; cases hc)⟩
  · intro ht
    cases hst : r.status with
    | committed => rfl
    | rolledBack =>
      have hb := hs.rolledBack hst
      rw [hseal] at hb
      cases hb
    | escalated => exact absurd hst hs.escalated
    | opened | prepared | failed | recoveryQueued | recovered =>
      rw [hst] at ht
      cases ht

theorem Settled.rollingBack (hs : Settled h id r) (hst : r.status ≠ .committed)
    (results : List Val) (reason : String) :
    Advances h id r (RuntimeTransactionFabric.rolledBack r results reason now) := by
  constructor
  · exact ⟨hs.filed, (by intro hc; cases hc), (by intro hc; cases hc), fun _ => rfl,
      (by intro hc; cases hc)⟩
  · intro ht
    cases hr : r.status with
    | rolledBack => rfl
    | committed => exact absurd hr hst
    | escalated => exact absurd hr hs.escalated
    | opened | prepared | failed | recoveryQueued | recovered =>
      rw [hr] at ht
      cases ht

end Record

/-! ## The invariant of the fabric -/

def Sound (h : History) (f : RuntimeTransactionFabric) : Prop :=
  ∀ id r, Text.strip id = id → f.transactions.get? id = some r → Settled h id r

/-- No terminal status changes. -/
def TerminalKept (f f' : RuntimeTransactionFabric) : Prop :=
  ∀ id r, Text.strip id = id → f.transactions.get? id = some r → r.status.terminal = true →
    ∃ r', f'.transactions.get? id = some r' ∧ r'.status = r.status

/-- The fabric may go from `f` to `f'`. -/
structure Upholds (h : History) (f f' : RuntimeTransactionFabric) : Prop where
  sound : Sound h f'
  kept : TerminalKept f f'

theorem TerminalKept.refl (f : RuntimeTransactionFabric) : TerminalKept f f :=
  fun _ r _ hr _ => ⟨r, hr, rfl⟩

variable {f : RuntimeTransactionFabric}

theorem TerminalKept.trans {f' f'' : RuntimeTransactionFabric} (h : TerminalKept f f')
    (h' : TerminalKept f' f'') : TerminalKept f f'' := by
  intro id r hid hr ht
  obtain ⟨r', hr', hst⟩ := h id r hid hr ht
  obtain ⟨r'', hr'', hst'⟩ := h' id r' hid hr' (hst ▸ ht)
  exact ⟨r'', hr'', hst'.trans hst⟩

section Fabric

variable {h : History} {f f' : RuntimeTransactionFabric}

theorem Sound.append (hs : Sound h f) (h' : History) : Sound (h ++ h') f :=
  fun id r hid hr => (hs id r hid hr).append h'

theorem Upholds.trans {f'' : RuntimeTransactionFabric} (hup : Upholds h f f')
    (hup' : Upholds h f' f'') : Upholds h f f'' := ⟨hup'.sound, hup.kept.trans hup'.kept⟩

theorem Upholds.of_same (hs : Sound h f) (heq : f'.transactions = f.transactions) :
    Upholds h f f' := by
  constructor
  · intro id r hid hr
    rw [heq] at hr
    exact hs id r hid hr
  · intro id r hid hr _
    exact ⟨r, by rw [heq]; exact hr, rfl⟩

/-- Writing under `id`, which matters only when `id` has no blanks around it. -/
theorem Sound.write (hs : Sound h f) {id : String} {r' : RuntimeTransactionRecord}
    (hnew : Text.strip id = id → Settled h id r')
    (hkept : Text.strip id = id → ∀ r, f.transactions.get? id = some r →
      r.status.terminal = true → r'.status = r.status) : Upholds h f (f.write id r') := by
  constructor
  · intro id' r hid hr
    simp only [RuntimeTransactionFabric.write, Dict.get?_set] at hr
    split at hr
    · rename_i heq
      subst heq
      cases hr
      exact hnew hid
    · exact hs id' r hid hr
  · intro id' r hid hr ht
    by_cases heq : id' = id
    · subst heq
      exact ⟨r', by simp [RuntimeTransactionFabric.write], hkept hid r hr ht⟩
    · exact ⟨r, by simpa [RuntimeTransactionFabric.write, heq] using hr, rfl⟩

variable {tid : String} {r : RuntimeTransactionRecord}

/-- The record of a transaction is read, changed and written back. -/
theorem Sound.update (hs : Sound h f) {r' : RuntimeTransactionRecord}
    (hr : f.transactions.get? (Text.strip tid) = some r)
    (hadv : Text.strip tid = tid → Advances h tid r r') : Upholds h f (f.write tid r') := by
  refine hs.write (fun hid => (hadv hid).settled) ?_
  intro hid r₀ hr₀ ht
  rw [hid, hr₀] at hr
  cases hr
  exact (hadv hid).kept ht

theorem Sound.read (hs : Sound h f) (hr : f.transactions.get? (Text.strip tid) = some r) :
    Settled h (Text.strip tid) r :=
  hs (Text.strip tid) r (Text.strip_strip tid) hr

/-- The record under an id without blanks is the one a call with this id reads. -/
theorem Sound.own (hs : Sound h f) (hr : f.transactions.get? (Text.strip tid) = some r)
    (hid : Text.strip tid = tid) : Settled h tid r := by
  rw [hid] at hr
  exact hs tid r hid hr

end Fabric

/-! ## Safe calls -/

section Guard

variable (digest fingerprint : Val → String)

/-- The record a call changes: none when the id has blanks around it. -/
def target (f : RuntimeTransactionFabric) (transactionId : String) :
    Option RuntimeTransactionRecord :=
  if Text.strip transactionId = transactionId then f.transactions.get? transactionId else none

def takesIncident (f : RuntimeTransactionFabric) (r : RuntimeTransactionRecord)
    (transactionId : String) (currentTick : ℤ) (reason now : String) : Bool :=
  match f.recoveryOrchestrator,
      createRecoveryIncident digest fingerprint r transactionId currentTick reason with
  | some o, .ok incident => (o.submitIncident fingerprint incident currentTick now).1.toBool
  | _, _ => false

/-- The recovery queue has a result to give. -/
def givesResults (f : RuntimeTransactionFabric) (runner : RecoveryRunner) (currentTick limit : ℤ)
    (now : String) : Bool :=
  match f.recoveryOrchestrator with
  | none => false
  | some o =>
    match (o.consumeReady runner currentTick limit now).1 with
    | .ok (_ :: _) => true
    | _ => false

def Safe (f : RuntimeTransactionFabric) : FabricCall → Prop
  | .commitTransaction tid expected actual requireConsistency now =>
    ∀ r ∈ f.target tid, r.status = .failed ∨ r.boundary.status = .sealed ∨
      (requireConsistency = true ∧
        (consistencyReport fingerprint r tid expected actual "" now).verified = false)
  | .rollbackTransaction tid runner _ _ =>
    ∀ r ∈ f.target tid, r.status ≠ .committed ∨ raisesOn r runner = true
  | .queueRecovery tid currentTick reason now =>
    ∀ r ∈ f.target tid, r.status.terminal = false ∨
      takesIncident digest fingerprint f r tid currentTick reason now = false
  | .consumeRecoveryAndContinue tid runner currentTick limit now =>
    ∀ r ∈ f.target tid, r.status.terminal = false ∨
      givesResults f runner currentTick limit now = false
  | _ => True

instance (f : RuntimeTransactionFabric) :
    (c : FabricCall) → Decidable (Safe digest fingerprint f c)
  | .commitTransaction tid expected actual requireConsistency now =>
    inferInstanceAs (Decidable (∀ r ∈ f.target tid, r.status = .failed ∨
      r.boundary.status = .sealed ∨ (requireConsistency = true ∧
        (consistencyReport fingerprint r tid expected actual "" now).verified = false)))
  | .rollbackTransaction tid runner _ _ => inferInstanceAs (Decidable (∀ r ∈ f.target tid,
      r.status ≠ .committed ∨ raisesOn r runner = true))
  | .queueRecovery tid currentTick reason now =>
    inferInstanceAs (Decidable (∀ r ∈ f.target tid, r.status.terminal = false ∨
      takesIncident digest fingerprint f r tid currentTick reason now = false))
  | .consumeRecoveryAndContinue tid runner currentTick limit now =>
    inferInstanceAs (Decidable (∀ r ∈ f.target tid, r.status.terminal = false ∨
      givesResults f runner currentTick limit now = false))
  | .beginTransaction .. | .prepareTransaction .. | .executeTransaction ..
  | .verifyConsistency .. => .isTrue trivial

theorem target_of_read {f : RuntimeTransactionFabric} {tid : String}
    {r : RuntimeTransactionRecord} (hr : f.transactions.get? (Text.strip tid) = some r)
    (hid : Text.strip tid = tid) : r ∈ f.target tid := by
  rw [hid] at hr
  simp [target, hid, hr]

end Guard

theorem raisesOn_false {r : RuntimeTransactionRecord} {rollbackRunner : Option StepRunner}
    {results : List Val} (h : (rollRun r rollbackRunner).1 = .ok results) :
    raisesOn r rollbackRunner = false := by
  rcases rollRun_cases r rollbackRunner with ⟨_, -, hno, -⟩ | ⟨e, he, -⟩
  · exact hno
  · rw [he] at h
    cases h

/-! ## What a call keeps -/

section Step

variable {digest fingerprint : Val → String} {h : History} {f : RuntimeTransactionFabric}
  {tid now : String}

theorem upholds_begin (hs : Sound h f) (sourceSessionId executionId taskId : String)
    (beforeSnapshot : Entries) (steps : List Val) (payload metadata : Entries)
    (given : Option String) :
    Upholds h f (f.beginTransaction fingerprint sourceSessionId executionId taskId beforeSnapshot
      steps payload metadata given now).2 := by
  rcases beginTransaction_cases f now fingerprint sourceSessionId
    executionId taskId beforeSnapshot steps payload metadata given with
    heq | ⟨id, session, -, -, hnew, heq⟩
  · rw [heq]
    exact .of_same hs rfl
  · rw [heq]
    refine hs.write (fun _ => settled_opened ..) ?_
    intro _ r hr _
    rw [hnew] at hr
    cases hr

variable {r : RuntimeTransactionRecord}

theorem upholds_prepared (hs : Sound h f) (hr : f.transactions.get? (Text.strip tid) = some r)
    (hst : r.status = .opened) : Upholds h f (f.write r.transactionId (prepared r now)) := by
  have hset := hs.read hr
  have hid : Text.strip r.transactionId = r.transactionId := by
    rw [hset.filed, Text.strip_strip]
  rw [← hset.filed] at hr
  refine hs.update (by rw [hid]; exact hr) fun _ => ?_
  exact (hs r.transactionId r hid hr).moved rfl rfl rfl rfl (by rw [hst]; rfl)

theorem upholds_prepare (hs : Sound h f) : Upholds h f (f.prepareTransaction tid now).2 := by
  rcases prepareTransaction_cases f now tid with ⟨e, heq⟩ | ⟨r, hr, hst, heq⟩
  · rw [heq]
    exact .of_same hs rfl
  · rw [heq]
    exact upholds_prepared hs hr hst

variable {f₁ : RuntimeTransactionFabric}

theorem Executes.upholds {r₁ : RuntimeTransactionRecord} (he : Executes f tid now r r₁ f₁)
    (hs : Sound h f) :
    Upholds h f f₁ ∧ f₁.transactions.get? (Text.strip tid) = some r₁ ∧ r₁.status = .prepared := by
  rcases he.start with ⟨hst, rfl, rfl⟩ | ⟨hst, rfl, rfl⟩
  · refine ⟨upholds_prepared hs he.read hst, ?_, rfl⟩
    simp [RuntimeTransactionFabric.write, (hs.read he.read).filed]
  · exact ⟨.of_same hs rfl, he.read, hst⟩

theorem upholds_execute (hs : Sound h f) (runner : Option StepRunner) (stop : Bool)
    (hran : ∀ r completed, (f.executeTransaction tid runner stop now).1 = (.ok r, completed) →
      Ran h (Text.strip tid)) :
    Upholds h f (f.executeTransaction tid runner stop now).2 := by
  rcases executeTransaction_cases f now tid runner stop with
    ⟨e, heq⟩ | ⟨r, r₁, f₁, he, ⟨e, -, heq⟩ | ⟨steps, failed, hrun, heq⟩⟩
  · rw [heq]
    exact .of_same hs rfl
  · rw [heq]
    exact (he.upholds hs).1
  · obtain ⟨hup, hr₁, hst⟩ := he.upholds hs
    rw [heq] at hran ⊢
    have hran' := hran _ _ rfl
    refine hup.trans (hup.sound.update hr₁ fun hid => ?_)
    refine (hup.sound.own hr₁ hid).executed hst (hid ▸ hran') ?_
    intro hfailed
    exact runSteps_completed (hfailed ▸ hrun)

theorem upholds_reported (hs : Sound h f) (hr : f.transactions.get? (Text.strip tid) = some r)
    (report : RuntimeConsistencyReport) : Upholds h f (f.write tid (reported r report now)) :=
  hs.update hr fun hid => (hs.own hr hid).reported report

theorem upholds_verify (hs : Sound h f) (expected actual : Option Entries) (reason : String) :
    Upholds h f (f.verifyConsistency fingerprint tid expected actual reason now).2 := by
  rcases verifyConsistency_cases f now fingerprint tid expected
    actual reason with ⟨e, heq⟩ | ⟨r, report, hr, -, heq⟩
  · rw [heq]
    exact .of_same hs rfl
  · rw [heq]
    exact upholds_reported hs hr report

/-- The record a commit reads after its consistency check has the boundary it had before. -/
theorem Checked.upholds (hc : Checked f tid now r f₁) (hs : Sound h f)
    (hr : f.transactions.get? (Text.strip tid) = some r) :
    Upholds h f f₁ ∧ ∀ r₁, f₁.transactions.get? (Text.strip tid) = some r₁ →
      r₁.boundary = r.boundary := by
  rcases hc with rfl | ⟨report, rfl⟩
  · refine ⟨.of_same hs rfl, ?_⟩
    intro r₁ hr₁
    rw [hr] at hr₁
    cases hr₁
    rfl
  · refine ⟨upholds_reported hs hr report, ?_⟩
    intro r₁ hr₁
    simp only [RuntimeTransactionFabric.write, Dict.get?_set] at hr₁
    split at hr₁
    · cases hr₁
      rfl
    · rw [hr] at hr₁
      cases hr₁
      rfl

theorem upholds_commit (hs : Sound h f) {expected actual : Option Entries}
    {requireConsistency : Bool} (hsafe : Safe digest fingerprint f
      (.commitTransaction tid expected actual requireConsistency now)) :
    Upholds h f
      (f.commitTransaction fingerprint tid expected actual requireConsistency now).2 := by
  rcases commitTransaction_cases f now fingerprint tid expected
    actual requireConsistency with
    heq | ⟨r, hr, ⟨report, heq⟩ | ⟨f₁, hc, hst, hv, heq | ⟨r₁, hr₁, heq⟩⟩⟩
  · rw [heq]
    exact .of_same hs rfl
  · rw [heq]
    exact upholds_reported hs hr report
  · rw [heq]
    exact (hc.upholds hs hr).1
  · obtain ⟨hup, hboundary⟩ := hc.upholds hs hr
    rw [heq]
    refine hup.trans (hup.sound.update hr₁ fun hid => ?_)
    refine (hup.sound.own hr₁ hid).committing ?_
    rw [hboundary r₁ hr₁]
    rcases hsafe r (target_of_read hr hid) with hf | hseal | ⟨hreq, hnv⟩
    · exact absurd hf hst
    · exact hseal
    · rw [hv hreq] at hnv
      cases hnv

theorem upholds_rollback (hs : Sound h f) {runner : Option StepRunner} {reason : String}
    (hsafe : Safe digest fingerprint f (.rollbackTransaction tid runner reason now)) :
    Upholds h f (f.rollbackTransaction tid runner reason now).2 := by
  rcases rollbackTransaction_cases f now tid runner reason with
    ⟨-, e, heq⟩ | ⟨r, hr, ⟨e, -, heq⟩ | ⟨results, hroll, heq⟩⟩
  · rw [heq]
    exact .of_same hs rfl
  · rw [heq]
    exact .of_same hs rfl
  · rw [heq]
    refine hs.update hr fun hid => (hs.own hr hid).rollingBack ?_ results reason
    rcases hsafe r (target_of_read hr hid) with hst | hraise
    · exact hst
    · rw [raisesOn_false hroll] at hraise
      cases hraise

theorem upholds_queue (hs : Sound h f) {currentTick : ℤ} {reason : String}
    (hsafe : Safe digest fingerprint f (.queueRecovery tid currentTick reason now)) :
    Upholds h f (f.queueRecovery digest fingerprint tid currentTick reason now).2 := by
  rcases queueRecovery_cases f now digest fingerprint tid
    currentTick reason with heq | ⟨r, o, incident, ticket, o', ho, hr, hi, hsub, heq⟩
  · rw [heq]
    exact .of_same hs rfl
  · have hup : Upholds h f { f with recoveryOrchestrator := some o' } := .of_same hs rfl
    rw [heq]
    refine hup.trans (hup.sound.update hr fun hid => ?_)
    refine (hs.own hr hid).moved rfl rfl rfl rfl ?_
    rcases hsafe r (target_of_read hr hid) with hst | hrefused
    · exact hst
    · simp [takesIncident, ho, hi, hsub, Except.toBool] at hrefused

theorem upholds_consume (hs : Sound h f) {runner : RecoveryRunner} {currentTick limit : ℤ}
    (hsafe : Safe digest fingerprint f
      (.consumeRecoveryAndContinue tid runner currentTick limit now)) :
    Upholds h f
      (f.consumeRecoveryAndContinue fingerprint tid runner currentTick limit now).2 := by
  rcases consumeRecovery_cases f now fingerprint tid runner
    currentTick limit with
    heq | ⟨r, o, answer, o', ho, hr, hrun, ⟨-, heq⟩ | ⟨results, result, rfl, hm, heq⟩⟩
  · rw [heq]
    exact .of_same hs rfl
  · rw [heq]
    exact .of_same hs rfl
  · have hup : Upholds h f { f with recoveryOrchestrator := some o' } := .of_same hs rfl
    rw [heq]
    refine hup.trans (hup.sound.update hr fun hid => ?_)
    refine (hs.own hr hid).moved rfl rfl rfl rfl ?_
    rcases hsafe r (target_of_read hr hid) with hst | hnone
    · exact hst
    · cases results with
      | nil => cases hm
      | cons first rest => simp [givesResults, ho, hrun] at hnone

/-- A safe call keeps every record settled and every terminal status as it is. -/
theorem sound_call (hs : Sound h f) {c : FabricCall} (hsafe : Safe digest fingerprint f c) :
    Upholds (h ++ [(c, (call digest fingerprint f c).1)]) f (call digest fingerprint f c).2 := by
  have hs' := hs.append [(c, (call digest fingerprint f c).1)]
  cases c <;> simp only [call, Prod.map_snd, Prod.map_fst, id_eq] at hs' ⊢
  case beginTransaction session execution task before steps payload metadata given now =>
    exact upholds_begin hs' session execution task before steps payload metadata given
  case prepareTransaction tid now => exact upholds_prepare hs'
  case executeTransaction tid runner stop now =>
    refine upholds_execute hs' runner stop ?_
    intro r completed heq
    refine ⟨_, List.mem_append_right h (List.mem_singleton.mpr rfl), ?_⟩
    exact ⟨tid, runner, stop, now, r, completed, by rw [heq], rfl⟩
  case verifyConsistency tid expected actual reason now =>
    exact upholds_verify hs' expected actual reason
  case commitTransaction tid expected actual requireConsistency now =>
    exact upholds_commit hs' hsafe
  case rollbackTransaction tid runner reason now => exact upholds_rollback hs' hsafe
  case queueRecovery tid currentTick reason now => exact upholds_queue hs' hsafe
  case consumeRecoveryAndContinue tid runner currentTick limit now =>
    exact upholds_consume hs' hsafe

end Step

/-! ## Whole runs -/

/-- Every transaction with a terminal status still has it. -/
def StaysTerminal (f f' : RuntimeTransactionFabric) : Prop :=
  ∀ id r, f.getTransaction id = .ok r → r.status.terminal = true →
    ∃ r', f'.getTransaction id = .ok r' ∧ r'.status = r.status

/-- Every committed transaction was executed, and all of its steps completed. -/
def CommittedRan (h : History) (f : RuntimeTransactionFabric) : Prop :=
  ∀ id r, f.getTransaction id = .ok r → r.status = .committed →
    Ran h (Text.strip id) ∧ AllCompleted r

theorem TerminalKept.stays {f' : RuntimeTransactionFabric} (h : TerminalKept f f') :
    StaysTerminal f f' := by
  intro id r hr ht
  obtain ⟨r', hr', hst⟩ :=
    h (Text.strip id) r (Text.strip_strip id) (getTransaction_ok hr) ht
  exact ⟨r', getTransaction_replaced hr hr', hst⟩

theorem Sound.committedRan {h : History} (hs : Sound h f) : CommittedRan h f := by
  intro id r hr hst
  have hset := hs.read (getTransaction_ok hr)
  exact hset.sealed (hset.committed hst)

theorem sound_init (orchestrator : Option RuntimeRecoveryOrchestrator) :
    Sound [] ⟨.empty, orchestrator⟩ := by
  intro id r _ hr
  cases hr

section Runs

variable {digest fingerprint : Val → String}

variable {calls : List FabricCall}

theorem sound_run {orchestrator : Option RuntimeRecoveryOrchestrator}
    (hg : (machine digest fingerprint).Guarded (Safe digest fingerprint) ⟨.empty, orchestrator⟩
      calls) :
    Sound ((machine digest fingerprint).outputs ⟨.empty, orchestrator⟩ calls)
      ((machine digest fingerprint).run ⟨.empty, orchestrator⟩ calls) := by
  have hstep : ∀ h f c, Sound h f → Safe digest fingerprint f c →
      Sound (h ++ [(c, ((machine digest fingerprint).step f c).1)])
        ((machine digest fingerprint).step f c).2 :=
    fun h f c hs hsafe => (sound_call hs hsafe).sound
  exact Machine.Guarded.invariant_outputs hstep hg (sound_init orchestrator)

theorem Sound.kept_run {h : History} {f : RuntimeTransactionFabric} (hs : Sound h f)
    (hg : (machine digest fingerprint).Guarded (Safe digest fingerprint) f calls) :
    TerminalKept f ((machine digest fingerprint).run f calls) := by
  induction calls generalizing h f with
  | nil => exact .refl f
  | cons c calls ih =>
    have hup := sound_call hs hg.1
    exact hup.kept.trans (ih hup.sound hg.2)

/-- All along a run, a terminal status once reached stays, and a transaction is committed only after
an execution that completed all of its steps. -/
def TerminalLaw (digest fingerprint : Val → String)
    (orchestrator : Option RuntimeRecoveryOrchestrator) (calls : List FabricCall) : Prop :=
  ∀ before after, calls = before ++ after →
    StaysTerminal ((machine digest fingerprint).run ⟨.empty, orchestrator⟩ before)
      ((machine digest fingerprint).run ⟨.empty, orchestrator⟩ calls) ∧
    CommittedRan ((machine digest fingerprint).outputs ⟨.empty, orchestrator⟩ before)
      ((machine digest fingerprint).run ⟨.empty, orchestrator⟩ before)

/-- Every run of safe calls from an empty fabric obeys the law. -/
theorem guarded_terminal (digest fingerprint : Val → String)
    (orchestrator : Option RuntimeRecoveryOrchestrator) (calls : List FabricCall)
    (hg : (machine digest fingerprint).Guarded (Safe digest fingerprint) ⟨.empty, orchestrator⟩
      calls) : TerminalLaw digest fingerprint orchestrator calls := by
  rintro before after rfl
  obtain ⟨hbefore, hafter⟩ := Machine.guarded_append.mp hg
  have hs := sound_run hbefore
  rw [Machine.run_append]
  exact ⟨(hs.kept_run hafter).stays, hs.committedRan⟩

/-- A transaction that is executed, checked and committed, and one that fails and is rolled back. -/
def sampleCalls : List FabricCall :=
  [.beginTransaction "s" "" "" [] [.str "write"] [] [] (some "a") "0",
   .beginTransaction "s" "" "" [] [.str "write"] [] [] (some "b") "0",
   .executeTransaction "a" none true "1", .verifyConsistency "a" none none "" "2",
   .commitTransaction "a" none none false "3",
   .executeTransaction "b" (some fun _ => .ok (.dict [("failed", .bool true)])) true "4",
   .commitTransaction "b" none none false "5", .rollbackTransaction "b" none "" "6",
   .queueRecovery "a" 0 "" "7"]

theorem guarded_terminal_sample : TerminalLaw (fun _ => "0") (fun _ => "0") none sampleCalls :=
  guarded_terminal (fun _ => "0") (fun _ => "0") none sampleCalls (by decide)

def statusOf (f : RuntimeTransactionFabric) (id : String) : Option TransactionStatus :=
  (f.getTransaction id).toOption.map fun r => r.status

def committedA : List FabricCall :=
  [.beginTransaction "s" "" "" [] [.str "write"] [] [] (some "a") "0",
   .executeTransaction "a" none true "1", .commitTransaction "a" none none false "2"]

/-- `rollback_transaction` asks nothing about the status: `a` is committed and then rolled back. -/
theorem commit_rolled_back :
    ¬ TerminalLaw (fun _ => "0") (fun _ => "0") none
      (committedA ++ [.rollbackTransaction "a" none "" "3"]) := by
  intro h
  have hstays := (h committedA [.rollbackTransaction "a" none "" "3"] rfl).1
  have hbefore : statusOf ((machine (fun _ => "0") fun _ => "0").run ⟨.empty, none⟩ committedA)
      "a" = some .committed := by decide
  have hafter : statusOf ((machine (fun _ => "0") fun _ => "0").run ⟨.empty, none⟩
      (committedA ++ [.rollbackTransaction "a" none "" "3"])) "a" = some .rolledBack := by decide
  cases hget : ((machine (fun _ => "0") fun _ => "0").run ⟨.empty, none⟩ committedA).getTransaction
      "a" with
  | error e =>
    rw [statusOf, hget] at hbefore
    cases hbefore
  | ok r =>
    have hst : r.status = .committed := by
      simpa [statusOf, hget, Except.toOption] using hbefore
    obtain ⟨r', hr', hst'⟩ := hstays "a" r hget (by rw [hst]; rfl)
    rw [statusOf, hr'] at hafter
    have hrolled : r'.status = .rolledBack := by simpa [Except.toOption] using hafter
    rw [hst', hst] at hrolled
    cases hrolled

end Runs

end RuntimeTransactionFabric
end Fabric
end ZeroRuntime
