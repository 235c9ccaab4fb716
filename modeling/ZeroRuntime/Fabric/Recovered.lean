import ZeroRuntime.Fabric.Transactions

/-!
# ZeroRuntime.Fabric.Recovered

Whose recovery result a transaction takes, over whole runs of the transaction fabric with one
recovery orchestrator.

`consume_recovery_and_continue` runs every ready ticket, keeps one result, the first when its own is
not among them, and never looks at the `ok` flag of what it keeps.

* `Books`: tickets are filed under their own ids, the ticket a record names was made for it, and a
  recovered record holds a success of that ticket.
* `books_call`: a call that `takesOwn` keeps `Books`, and delivers what it consumes.
* `guarded_recovery`: the same for runs of such calls.
* `crossed_recovery`: a transaction recovered with the result of another.
-/

namespace ZeroRuntime
namespace Fabric
namespace RuntimeTransactionFabric

open Lib Goals

/-! ## Reading tickets and results -/

/-- `ticket_id` of a ticket's dictionary. -/
def ticketIdIn (ticket : Entries) : Option String :=
  match Val.find "ticket_id" ticket with
  | some (.str s) => some s
  | _ => none

def incidentTransaction (t : RuntimeRecoveryTicket) : Option String :=
  match Val.find "transaction_id" (Val.getIn "incident" t.payload).entries with
  | some (.str s) => some s
  | _ => none

/-- The recovery result is a success of the transaction's own ticket. -/
def OwnSuccess (r : RuntimeTransactionRecord) : Prop :=
  Val.find "ok" r.recoveryResult = some (.bool true) ∧
  ∃ id, ticketIdIn r.recoveryTicket = some id ∧
    ticketIdIn (Val.getIn "ticket" r.recoveryResult).entries = some id

@[simp] theorem ticketIdIn_toEntries (t : RuntimeRecoveryTicket) :
    ticketIdIn t.toEntries = some t.ticketId := rfl

theorem incidentTransaction_payload {t t' : RuntimeRecoveryTicket} (h : t'.payload = t.payload) :
    incidentTransaction t' = incidentTransaction t := by
  unfold incidentTransaction
  rw [h]

section Incident

theorem lineageFields_fst (l : GoalLineage) :
    ∀ e ∈ lineageFields l, e.1 ≠ "transaction_id" := by
  intro e he
  have hmem := List.mem_of_mem_filter he
  simp only [List.mem_cons, List.not_mem_nil, or_false] at hmem
  rcases hmem with rfl | rfl | rfl | rfl | rfl | rfl | rfl | rfl <;> simp

theorem createRecoveryIncident_names {digest fingerprint : Val → String}
    {r : RuntimeTransactionRecord} {transactionId reason : String} {currentTick : ℤ}
    {incident : Entries}
    (h : createRecoveryIncident digest fingerprint r transactionId currentTick reason =
      .ok incident) :
    Val.find "transaction_id" incident = some (.str r.transactionId) := by
  unfold createRecoveryIncident at h
  obtain ⟨identity, -, h⟩ := bind_eq_ok.mp h
  obtain ⟨lineage, -, h⟩ := bind_eq_ok.mp h
  cases h
  rw [Val.find_append, Val.find_foldl_put (lineageFields_fst lineage)]
  rfl

end Incident

/-! ## The invariant -/

structure Books (f : RuntimeTransactionFabric) : Prop where
  filed : ∀ id r, Text.strip id = id → f.transactions.get? id = some r → r.transactionId = id
  queue : ∀ o, f.recoveryOrchestrator = some o → o.queue.Filed
  owned : ∀ o id r ticketId, f.recoveryOrchestrator = some o → Text.strip id = id →
    f.transactions.get? id = some r → ticketIdIn r.recoveryTicket = some ticketId →
    ∃ t, o.queue.tickets.get? ticketId = some t ∧ incidentTransaction t = some id
  recovered : ∀ id r, Text.strip id = id → f.transactions.get? id = some r →
    r.status = .recovered → OwnSuccess r

section Fabric

variable {f f' : RuntimeTransactionFabric} {tid now : String} {r r' : RuntimeTransactionRecord}

/-- A record written under an id that matters only when it has no blanks around it. -/
theorem Books.write (hb : Books f) (hid : Text.strip tid = tid → r'.transactionId = tid)
    (howned : ∀ o ticketId, Text.strip tid = tid → f.recoveryOrchestrator = some o →
      ticketIdIn r'.recoveryTicket = some ticketId →
      ∃ t, o.queue.tickets.get? ticketId = some t ∧ incidentTransaction t = some tid)
    (hrec : Text.strip tid = tid → r'.status = .recovered → OwnSuccess r') :
    Books (f.write tid r') := by
  have hget : ∀ id r₀, (f.write tid r').transactions.get? id = some r₀ →
      (id = tid ∧ r₀ = r') ∨ f.transactions.get? id = some r₀ := by
    intro id r₀ h
    simp only [RuntimeTransactionFabric.write, Dict.get?_set] at h
    split at h
    · rename_i heq
      exact .inl ⟨heq, (Option.some.inj h).symm⟩
    · exact .inr h
  constructor
  · intro id r₀ hs h
    rcases hget id r₀ h with ⟨rfl, rfl⟩ | h
    · exact hid hs
    · exact hb.filed id r₀ hs h
  · exact hb.queue
  · intro o id r₀ ticketId ho hs h
    rcases hget id r₀ h with ⟨rfl, rfl⟩ | h
    · exact howned o ticketId hs ho
    · exact hb.owned o id r₀ ticketId ho hs h
  · intro id r₀ hs h
    rcases hget id r₀ h with ⟨rfl, rfl⟩ | h
    · exact hrec hs
    · exact hb.recovered id r₀ hs h

/-- A change that keeps the ticket, and the recovery result of a record that stays recovered. -/
theorem Books.quiet (hb : Books f) (hr : f.transactions.get? (Text.strip tid) = some r)
    (hid : r'.transactionId = r.transactionId) (hticket : r'.recoveryTicket = r.recoveryTicket)
    (hst : r'.status = .recovered →
      r.status = .recovered ∧ r'.recoveryResult = r.recoveryResult) :
    Books (f.write tid r') := by
  have hown : Text.strip tid = tid → f.transactions.get? tid = some r := fun hs => hs ▸ hr
  refine hb.write ?_ ?_ ?_
  · intro hs
    rw [hid]
    exact hb.filed tid r hs (hown hs)
  · intro o ticketId hs ho hticketId
    rw [hticket] at hticketId
    exact hb.owned o tid r ticketId ho hs (hown hs) hticketId
  · intro hs hrec
    obtain ⟨hwas, hresult⟩ := hst hrec
    have hsuccess := hb.recovered tid r hs (hown hs) hwas
    unfold OwnSuccess at hsuccess ⊢
    rw [hresult, hticket]
    exact hsuccess

theorem Books.read (hb : Books f) (hr : f.transactions.get? (Text.strip tid) = some r) :
    r.transactionId = Text.strip tid :=
  hb.filed (Text.strip tid) r (Text.strip_strip tid) hr

theorem Books.prepared (hb : Books f) (hr : f.transactions.get? (Text.strip tid) = some r) :
    Books (f.write r.transactionId (RuntimeTransactionFabric.prepared r now)) := by
  have hfiled := hb.read hr
  rw [← hfiled] at hr
  have hs : Text.strip r.transactionId = r.transactionId := by
    rw [hfiled, Text.strip_strip]
  have hr' : f.transactions.get? (Text.strip r.transactionId) = some r := by
    rw [hs]
    exact hr
  refine hb.quiet hr' rfl rfl ?_
  intro hrec
  cases hrec

theorem Executes.books {r₁ : RuntimeTransactionRecord} {f₁ : RuntimeTransactionFabric}
    (he : Executes f tid now r r₁ f₁) (hb : Books f) :
    Books f₁ ∧ f₁.transactions.get? (Text.strip tid) = some r₁ := by
  rcases he.start with ⟨-, rfl, rfl⟩ | ⟨-, rfl, rfl⟩
  · refine ⟨hb.prepared he.read, ?_⟩
    simp [RuntimeTransactionFabric.write, hb.read he.read]
  · exact ⟨hb, he.read⟩

/-- The orchestrator takes in a new ticket. -/
theorem Books.submitted (hb : Books f) {o : RuntimeRecoveryOrchestrator}
    (ho : f.recoveryOrchestrator = some o) {t : RuntimeRecoveryTicket}
    (hnew : o.queue.tickets.get? t.ticketId = none)
    (hstrip : Text.strip t.ticketId = t.ticketId) (hne : t.ticketId ≠ "") :
    Books { f with recoveryOrchestrator := some (o.withQueue (o.queue.setTicket t)) } := by
  constructor
  · exact hb.filed
  · rintro o' ⟨⟩ id t' ht'
    simp only [RuntimeRecoveryOrchestrator.withQueue_queue, RuntimeRecoveryQueue.setTicket,
      Dict.get?_set] at ht'
    split at ht'
    · rename_i heq
      cases ht'
      exact ⟨heq.symm, heq ▸ hstrip, heq ▸ hne⟩
    · exact hb.queue o ho id t' ht'
  · rintro o' id r ticketId ⟨⟩ hs hr hticket
    obtain ⟨t', ht', htx⟩ := hb.owned o id r ticketId ho hs hr hticket
    refine ⟨t', ?_, htx⟩
    simp only [RuntimeRecoveryOrchestrator.withQueue_queue, RuntimeRecoveryQueue.setTicket,
      Dict.get?_set]
    split
    · rename_i heq
      rw [← heq, ht'] at hnew
      cases hnew
    · exact ht'
  · exact hb.recovered

theorem Books.ran (hb : Books f) {o o' : RuntimeRecoveryOrchestrator}
    (ho : f.recoveryOrchestrator = some o) (hsame : o.queue.SameTickets o'.queue) :
    Books { f with recoveryOrchestrator := some o' } := by
  constructor
  · exact hb.filed
  · rintro _ ⟨⟩
    exact (hb.queue o ho).same hsame
  · rintro _ id r ticketId ⟨⟩ hs hr hticket
    obtain ⟨t, ht, htx⟩ := hb.owned o id r ticketId ho hs hr hticket
    obtain ⟨t', ht', -, hpayload⟩ := hsame.get ht
    exact ⟨t', ht', (incidentTransaction_payload hpayload).trans htx⟩
  · exact hb.recovered

end Fabric

/-! ## Calls that take their own result -/

section Guard

open RuntimeRecoveryQueue RuntimeRecoveryOrchestrator

/-- No ticket is ready, the first one's run raises, or the only ready ticket is the transaction's
own and its run reports success. -/
def takesOwnOf (r : RuntimeTransactionRecord) (tid : String) (runner : RecoveryRunner)
    (currentTick : ℤ) (now : String) : List RuntimeRecoveryTicket → Bool
  | [] => true
  | t :: ts =>
    match runner (started t currentTick now) with
    | .error _ => false
    | .ok v => refused (normalizeResult v) || (succeeded (normalizeResult v) && ts.isEmpty &&
        Text.strip tid = tid && ticketIdIn r.recoveryTicket = some t.ticketId)

def TakesOwn (f : RuntimeTransactionFabric) : FabricCall → Prop
  | .consumeRecoveryAndContinue tid runner currentTick limit now =>
    ∀ r ∈ f.transactions.get? (Text.strip tid), ∀ o ∈ f.recoveryOrchestrator,
      takesOwnOf r tid runner currentTick now (o.queue.peekReady currentTick limit) = true
  | _ => True

instance (f : RuntimeTransactionFabric) : (c : FabricCall) → Decidable (TakesOwn f c)
  | .consumeRecoveryAndContinue tid runner currentTick limit now =>
    inferInstanceAs (Decidable (∀ r ∈ f.transactions.get? (Text.strip tid),
      ∀ o ∈ f.recoveryOrchestrator,
        takesOwnOf r tid runner currentTick now (o.queue.peekReady currentTick limit) = true))
  | .beginTransaction .. | .prepareTransaction .. | .executeTransaction ..
  | .verifyConsistency .. | .commitTransaction .. | .rollbackTransaction ..
  | .queueRecovery .. => .isTrue trivial

/-- What such a call gets from the queue: nothing, or one success of its own ticket. -/
theorem consumeReady_own {o o' : RuntimeRecoveryOrchestrator} (hf : o.queue.Filed)
    {r : RuntimeTransactionRecord} {tid now : String} {runner : RecoveryRunner}
    {currentTick limit : ℤ} {results : List RuntimeRecoveryOrchestratorResult}
    (htakes : takesOwnOf r tid runner currentTick now (o.queue.peekReady currentTick limit) = true)
    (hrun : o.consumeReady runner currentTick limit now = (.ok results, o')) :
    results = [] ∨ ∃ result t, results = [result] ∧ Text.strip tid = tid ∧
      ticketIdIn r.recoveryTicket = some t.ticketId ∧
      o.queue.tickets.get? t.ticketId = some t ∧ result.ok = true ∧
      result.ticket.ticketId = t.ticketId ∧ result.ticket.payload = t.payload := by
  unfold consumeReady at hrun
  cases hready : o.queue.peekReady currentTick limit with
  | nil =>
    rw [hready] at hrun
    cases hrun
    exact .inl rfl
  | cons t ts =>
    obtain ⟨⟨id, ht⟩, hst⟩ := mem_peekReady (by rw [hready]; exact List.mem_cons_self)
    have hid := (hf id t ht).1
    rw [hready] at htakes hrun
    simp only [takesOwnOf] at htakes
    unfold runTickets at hrun
    cases hv : runner (started t currentTick now) with
    | error e =>
      rw [hv] at htakes
      cases htakes
    | ok v =>
      rw [hv] at htakes
      cases hrefused : refused (normalizeResult v) with
      | true =>
        obtain ⟨e, herr⟩ := runTicket_refused hf ht hst hv hrefused
        cases hone : o.runTicket runner t.ticketId currentTick now with
        | mk answer o₁ =>
          rw [hone] at herr hrun
          simp only at herr
          subst herr
          cases hrun
      | false =>
        simp only [hrefused, Bool.false_or, Bool.and_eq_true, decide_eq_true_eq,
          List.isEmpty_iff] at htakes
        obtain ⟨⟨⟨hok, rfl⟩, hstrip⟩, hticket⟩ := htakes
        obtain ⟨result, hres, hflag, hticketId, hpayload⟩ :=
          runTicket_succeeded hf ht hst hv hrefused hok
        cases hone : o.runTicket runner t.ticketId currentTick now with
        | mk answer o₁ =>
          rw [hone] at hres hrun
          simp only at hres
          subst hres
          cases hrun
          exact .inr ⟨result, t, rfl, hstrip, hticket, hid ▸ ht, hflag, hticketId, hpayload⟩

end Guard

/-! ## What a call keeps -/

section Step

variable {digest fingerprint : Val → String} {f : RuntimeTransactionFabric} {tid now : String}

theorem books_begin (hb : Books f) (sourceSessionId executionId taskId : String)
    (beforeSnapshot : Entries) (steps : List Val) (payload metadata : Entries)
    (given : Option String) :
    Books (f.beginTransaction fingerprint sourceSessionId executionId taskId beforeSnapshot steps
      payload metadata given now).2 := by
  rcases beginTransaction_cases f now fingerprint sourceSessionId executionId taskId
    beforeSnapshot steps payload metadata given with heq | ⟨id, session, -, -, -, heq⟩
  · rw [heq]
    exact hb
  · rw [heq]
    refine hb.write (fun _ => rfl) ?_ ?_
    · intro o ticketId _ _ hticket
      cases hticket
    · intro _ hst
      cases hst

theorem books_prepare (hb : Books f) : Books (f.prepareTransaction tid now).2 := by
  rcases prepareTransaction_cases f now tid with ⟨e, heq⟩ | ⟨r, hr, -, heq⟩
  · rw [heq]
    exact hb
  · rw [heq]
    exact hb.prepared hr

theorem books_execute (hb : Books f) (runner : Option StepRunner) (stop : Bool) :
    Books (f.executeTransaction tid runner stop now).2 := by
  rcases executeTransaction_cases f now tid runner stop with
    ⟨e, heq⟩ | ⟨r, r₁, f₁, he, ⟨e, -, heq⟩ | ⟨steps, failed, -, heq⟩⟩
  · rw [heq]
    exact hb
  · rw [heq]
    exact (he.books hb).1
  · obtain ⟨hb₁, hr₁⟩ := he.books hb
    rw [heq]
    refine hb₁.quiet hr₁ rfl rfl ?_
    intro hst
    cases failed with
    | false => cases hst
    | true => cases hst

theorem books_reported (hb : Books f) {r : RuntimeTransactionRecord}
    (hr : f.transactions.get? (Text.strip tid) = some r) (report : RuntimeConsistencyReport) :
    Books (f.write tid (reported r report now)) :=
  hb.quiet hr rfl rfl fun hst => ⟨hst, rfl⟩

theorem books_verify (hb : Books f) (expected actual : Option Entries) (reason : String) :
    Books (f.verifyConsistency fingerprint tid expected actual reason now).2 := by
  rcases verifyConsistency_cases f now fingerprint tid expected actual reason with
    ⟨e, heq⟩ | ⟨r, report, hr, -, heq⟩
  · rw [heq]
    exact hb
  · rw [heq]
    exact books_reported hb hr report

theorem books_commit (hb : Books f) (expected actual : Option Entries)
    (requireConsistency : Bool) :
    Books (f.commitTransaction fingerprint tid expected actual requireConsistency now).2 := by
  rcases commitTransaction_cases f now fingerprint tid expected actual requireConsistency with
    heq | ⟨r, hr, ⟨report, heq⟩ | ⟨f₁, hc, -, -, hrest⟩⟩
  · rw [heq]
    exact hb
  · rw [heq]
    exact books_reported hb hr report
  · have hb₁ : Books f₁ := by
      rcases hc with rfl | ⟨report, rfl⟩
      · exact hb
      · exact books_reported hb hr report
    rcases hrest with heq | ⟨r₁, hr₁, heq⟩
    · rw [heq]
      exact hb₁
    · rw [heq]
      refine hb₁.quiet hr₁ rfl rfl ?_
      intro hst
      cases hst

theorem books_rollback (hb : Books f) (runner : Option StepRunner) (reason : String) :
    Books (f.rollbackTransaction tid runner reason now).2 := by
  rcases rollbackTransaction_cases f now tid runner reason with
    ⟨-, e, heq⟩ | ⟨r, hr, ⟨e, -, heq⟩ | ⟨results, -, heq⟩⟩
  · rw [heq]
    exact hb
  · rw [heq]
    exact hb
  · rw [heq]
    refine hb.quiet hr rfl rfl ?_
    intro hst
    cases hst

theorem books_queue (hb : Books f) (currentTick : ℤ) (reason : String) :
    Books (f.queueRecovery digest fingerprint tid currentTick reason now).2 := by
  rcases queueRecovery_cases f now digest fingerprint tid currentTick reason with
    heq | ⟨r, o, incident, ticket, o', ho, hr, hincident, hsub, heq⟩
  · rw [heq]
    exact hb
  · rw [heq]
    rcases o.submitIncident_cases fingerprint incident currentTick now with
      ⟨e, herr⟩ | ⟨t, hok, hnew, hstrip, hne, hpayload⟩
    · rw [herr] at hsub
      cases hsub
    · rw [hok] at hsub
      cases hsub
      refine (hb.submitted ho hnew hstrip hne).write ?_ ?_ ?_
      · intro hs
        exact (hb.read hr).trans hs
      · rintro o' ticketId hs ⟨⟩ hticket
        cases hticket
        refine ⟨ticket, by simp [RuntimeRecoveryQueue.setTicket], ?_⟩
        have hnames := createRecoveryIncident_names hincident
        rw [hb.read hr, hs] at hnames
        simp only [incidentTransaction, hpayload, Val.getIn, Val.find, if_true,
          Option.getD_some, Val.entries, hnames]
      · intro _ hst
        cases hst

/-- A call that takes its own result keeps the books. -/
theorem books_consume (hb : Books f) {runner : RecoveryRunner} {currentTick limit : ℤ}
    (htakes : TakesOwn f (.consumeRecoveryAndContinue tid runner currentTick limit now)) :
    Books (f.consumeRecoveryAndContinue fingerprint tid runner currentTick limit now).2 := by
  rcases consumeRecovery_cases f now fingerprint tid runner currentTick limit with
    heq | ⟨r, o, answer, o', ho, hr, hrun, hout⟩
  · rw [heq]
    exact hb
  · have hsame := RuntimeRecoveryOrchestrator.consumeReady_same (hb.queue o ho) runner currentTick
      limit now
    rw [hrun] at hsame
    have hb' := hb.ran ho hsame
    rcases hout with ⟨-, heq⟩ | ⟨results, result, rfl, hm, heq⟩
    · rw [heq]
      exact hb'
    · rw [heq]
      rcases consumeReady_own (hb.queue o ho) (htakes r hr o ho) hrun with
        rfl | ⟨result', t, rfl, hs, hticket, ht, hok, hticketId, -⟩
      · cases hm
      · have hres : result = result' := List.mem_singleton.mp (matchingResult_mem hm)
        subst hres
        refine hb'.write ?_ ?_ ?_
        · intro _
          exact (hb.read hr).trans hs
        · intro o₁ ticketId _ ho₁ hid
          rw [hs] at hr
          exact hb'.owned o₁ tid r ticketId ho₁ hs hr hid
        · intro _ _
          refine ⟨?_, t.ticketId, hticket, ?_⟩
          · simp [recovered, RuntimeRecoveryOrchestratorResult.toEntries, Val.find, hok]
          · have hentries : (Val.getIn "ticket" result.toEntries).entries =
                result.ticket.toEntries := rfl
            simp only [recovered, hentries, ticketIdIn_toEntries, hticketId]

theorem books_call (hb : Books f) {c : FabricCall} (htakes : TakesOwn f c) :
    Books (call digest fingerprint f c).2 := by
  cases c <;> simp only [call, Prod.map_snd, id_eq]
  case beginTransaction session execution task before steps payload metadata given now =>
    exact books_begin hb session execution task before steps payload metadata given
  case prepareTransaction tid now => exact books_prepare hb
  case executeTransaction tid runner stop now => exact books_execute hb runner stop
  case verifyConsistency tid expected actual reason now =>
    exact books_verify hb expected actual reason
  case commitTransaction tid expected actual requireConsistency now =>
    exact books_commit hb expected actual requireConsistency
  case rollbackTransaction tid runner reason now => exact books_rollback hb runner reason
  case queueRecovery tid currentTick reason now => exact books_queue hb currentTick reason
  case consumeRecoveryAndContinue tid runner currentTick limit now =>
    exact books_consume hb htakes

end Step

/-! ## Whole runs -/

/-- Every recovered transaction holds a success of its own ticket. -/
def RecoveredOwn (f : RuntimeTransactionFabric) : Prop :=
  ∀ id r, f.getTransaction id = .ok r → r.status = .recovered → OwnSuccess r

/-- Every result the call gets from the queue is afterwards the recovery result of the transaction
its ticket is about. -/
def Delivers (fingerprint : Val → String) (f : RuntimeTransactionFabric) (tid : String)
    (runner : RecoveryRunner) (currentTick limit : ℤ) (now : String) : Prop :=
  ∀ r o results o', f.getTransaction tid = .ok r → f.recoveryOrchestrator = some o →
    o.consumeReady runner currentTick limit now = (.ok results, o') →
    ∀ result ∈ results, ∃ id r', incidentTransaction result.ticket = some id ∧
      (f.consumeRecoveryAndContinue fingerprint tid runner currentTick limit now).2.getTransaction
        id = .ok r' ∧ r'.recoveryResult = result.toEntries

variable {f : RuntimeTransactionFabric}

theorem Books.recoveredOwn (hb : Books f) : RecoveredOwn f := by
  intro id r hr hst
  exact hb.recovered (Text.strip id) r (Text.strip_strip id) (getTransaction_ok hr) hst

theorem Books.delivers (hb : Books f) {fingerprint : Val → String} {tid now : String}
    {runner : RecoveryRunner} {currentTick limit : ℤ}
    (htakes : TakesOwn f (.consumeRecoveryAndContinue tid runner currentTick limit now)) :
    Delivers fingerprint f tid runner currentTick limit now := by
  intro r o results o' hget ho hrun result hmem
  have hr := getTransaction_ok hget
  rcases consumeReady_own (hb.queue o ho) (htakes r hr o ho) hrun with
    rfl | ⟨result', t, rfl, hs, hticket, ht, -, -, hpayload⟩
  · cases hmem
  · rw [List.mem_singleton.mp hmem]
    rw [hs] at hr
    obtain ⟨t', ht', htx⟩ := hb.owned o tid r t.ticketId ho hs hr hticket
    rw [ht] at ht'
    cases ht'
    refine ⟨tid,
      RuntimeTransactionFabric.recovered fingerprint r tid (ownRecoveryId r) result' now,
      (incidentTransaction_payload hpayload).trans htx, ?_, rfl⟩
    have hm : matchingResult (ownRecoveryId r) [result'] = some result' := by
      cases hm : matchingResult (ownRecoveryId r) [result'] with
      | none => cases matchingResult_none hm
      | some x => rw [List.mem_singleton.mp (matchingResult_mem hm)]
    have hf' : (f.consumeRecoveryAndContinue fingerprint tid runner currentTick limit now).2 =
        { f with recoveryOrchestrator := some o' }.write tid
          (RuntimeTransactionFabric.recovered fingerprint r tid (ownRecoveryId r) result' now) := by
      unfold consumeRecoveryAndContinue
      rw [ho, hget]
      simp only [hrun, hm]
    rw [hf']
    refine getTransaction_replaced hget ?_
    simp [RuntimeTransactionFabric.write, hs]

/-- All along a run, recovered transactions hold successes of their own tickets, and every call
that takes results from the queue delivers them. -/
def RecoveryLaw (digest fingerprint : Val → String) (orchestrator : RuntimeRecoveryOrchestrator)
    (calls : List FabricCall) : Prop :=
  ∀ before after, calls = before ++ after →
    RecoveredOwn ((machine digest fingerprint).run ⟨.empty, some orchestrator⟩ before) ∧
    ∀ tid runner currentTick limit now rest,
      after = .consumeRecoveryAndContinue tid runner currentTick limit now :: rest →
      Delivers fingerprint ((machine digest fingerprint).run ⟨.empty, some orchestrator⟩ before) tid
        runner currentTick limit now

section Runs

theorem books_init (orchestrator : RuntimeRecoveryOrchestrator) :
    Books ⟨.empty, some (orchestrator.withQueue ⟨.empty⟩)⟩ := by
  constructor
  · intro id r _ hr
    cases hr
  · rintro o ⟨⟩ id t ht
    cases ht
  · intro o id r ticketId _ _ hr
    cases hr
  · intro id r _ hr
    cases hr

/-- The orchestrator starts with an empty queue, whatever its settings. -/
theorem guarded_recovery (digest fingerprint : Val → String)
    (orchestrator : RuntimeRecoveryOrchestrator) (calls : List FabricCall)
    (hg : (machine digest fingerprint).Guarded TakesOwn
      ⟨.empty, some (orchestrator.withQueue ⟨.empty⟩)⟩ calls) :
    RecoveryLaw digest fingerprint (orchestrator.withQueue ⟨.empty⟩) calls := by
  rintro before after rfl
  obtain ⟨hbefore, hafter⟩ := Machine.guarded_append.mp hg
  have hstep : ∀ f c, Books f → TakesOwn f c → Books ((machine digest fingerprint).step f c).2 :=
    fun f c hb htakes => books_call hb htakes
  have hb := hbefore.invariant hstep (books_init orchestrator)
  refine ⟨hb.recoveredOwn, ?_⟩
  rintro tid runner currentTick limit now rest rfl
  exact hb.delivers hafter.1

/-- Ends in the last character of the first field. -/
def lastChar : Val → String
  | .dict ((_, .str s) :: _) => String.ofList (s.toList.reverse.take 1)
  | _ => "0"

/-- `a` and `b` are queued for recovery, `b` five ticks later. -/
def queuedBoth : List FabricCall :=
  [.beginTransaction "s" "" "" [] [] [] [] (some "a") "0",
   .beginTransaction "s" "" "" [] [] [] [] (some "b") "0",
   .queueRecovery "a" 0 "" "1", .queueRecovery "b" 5 "" "1"]

def repaired : RecoveryRunner := fun _ => .ok (.dict [("ok", .bool true)])

theorem guarded_recovery_sample :
    RecoveryLaw lastChar lastChar (RuntimeRecoveryOrchestrator.withQueue {} ⟨.empty⟩)
      (queuedBoth ++ [.consumeRecoveryAndContinue "a" repaired 0 10 "2",
        .consumeRecoveryAndContinue "a" repaired 4 10 "3",
        .consumeRecoveryAndContinue "b" repaired 5 10 "4"]) :=
  guarded_recovery lastChar lastChar {} _ (by decide +kernel)

def recoveryOf (f : RuntimeTransactionFabric) (id : String) :
    Option (TransactionStatus × Option String × Option String) :=
  (f.getTransaction id).toOption.map fun r => (r.status, ticketIdIn r.recoveryTicket,
    ticketIdIn (Val.getIn "ticket" r.recoveryResult).entries)

/-- `b` asks while only the ticket of `a` is ready, and is recovered with its result. -/
theorem crossed_recovery :
    ¬ RecoveryLaw lastChar lastChar (RuntimeRecoveryOrchestrator.withQueue {} ⟨.empty⟩)
      (queuedBoth ++ [.consumeRecoveryAndContinue "b" repaired 0 10 "2"]) := by
  intro h
  let f := (machine lastChar lastChar).run
    ⟨.empty, some (RuntimeRecoveryOrchestrator.withQueue {} ⟨.empty⟩)⟩
    (queuedBoth ++ [.consumeRecoveryAndContinue "b" repaired 0 10 "2"])
  have hown := (h _ [] (List.append_nil _).symm).1
  have hcrossed : recoveryOf f "b" =
      some (.recovered, some "recovery-ticket-b", some "recovery-ticket-a") := by decide +kernel
  cases hget : f.getTransaction "b" with
  | error e =>
    rw [recoveryOf, hget] at hcrossed
    cases hcrossed
  | ok r =>
    simp only [recoveryOf, hget, Except.toOption, Option.map_some, Option.some.injEq,
      Prod.mk.injEq] at hcrossed
    obtain ⟨hst, hb, ha⟩ := hcrossed
    obtain ⟨-, id, hid, hid'⟩ := hown "b" r hget hst
    have hsame := (hb.symm.trans hid).trans (ha.symm.trans hid').symm
    exact absurd hsame (by decide)

end Runs

end RuntimeTransactionFabric
end Fabric
end ZeroRuntime
