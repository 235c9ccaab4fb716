import Mathlib.Algebra.Group.Int.Defs
import ZeroRuntime.Fabric.Records

/-!
# ZeroRuntime.Fabric.Recovery

The recovery queue (`core/runtime/runtime_recovery_queue.py`) and the orchestrator that runs its
tickets (`core/runtime/runtime_recovery_orchestrator.py`).

What a recovery run does is the argument `runner`: it answers with plain data or raises, with a type
name and a message. The lineage graph and the supervisor are left out, but for what can make them
raise: a reference that is blank and not empty.
-/

namespace ZeroRuntime
namespace Fabric

open Lib Goals

structure RuntimeRecoveryQueue where
  tickets : Dict String RuntimeRecoveryTicket

namespace RuntimeRecoveryQueue

def setTicket (q : RuntimeRecoveryQueue) (t : RuntimeRecoveryTicket) : RuntimeRecoveryQueue :=
  ⟨q.tickets.set t.ticketId t⟩

section Enqueue

variable (fingerprint : Val → String)

def ticketIdOf (recoveryId sourceSessionId incidentId taskId : String) (payload metadata : Entries) :
    String :=
  "recovery-ticket-" ++ Text.take 16 (fingerprint (.dict [("recovery_id", .str recoveryId),
    ("source_session_id", .str sourceSessionId), ("incident_id", .str incidentId),
    ("task_id", .str taskId), ("payload", .dict payload), ("metadata", .dict metadata)]))

def enqueue (q : RuntimeRecoveryQueue) (recoveryId sourceSessionId incidentId taskId : String)
    (payload metadata : Entries) (priority maxAttempts currentTick : ℤ) (now : String) :
    Except Err RuntimeRecoveryTicket × RuntimeRecoveryQueue :=
  match validateText "recovery_id" recoveryId with
  | .error e => (.error e, q)
  | .ok recoveryId =>
    match validateText "ticket_id" (ticketIdOf fingerprint recoveryId sourceSessionId incidentId
        taskId payload metadata) with
    | .error e => (.error e, q)
    | .ok ticketId =>
      if q.tickets.contains ticketId then
        (.error (.rejected ("recovery ticket already exists: " ++ Text.quoted ticketId)), q)
      else
        let ticket : RuntimeRecoveryTicket :=
          { ticketId := ticketId, recoveryId := recoveryId, sourceSessionId := sourceSessionId
            incidentId := incidentId, taskId := taskId, priority := priority
            maxAttempts := max 1 maxAttempts, nextRunTick := currentTick
            createdTick := currentTick, updatedTick := currentTick, createdAt := now
            updatedAt := now, payload := payload, metadata := metadata }
        (.ok ticket, q.setTicket ticket)

end Enqueue

def isReady (currentTick : ℤ) (t : RuntimeRecoveryTicket) : Bool :=
  t.status = .queued && t.nextRunTick ≤ currentTick

/-- The order of `peek_ready`: priority, next run tick, creation tick, ticket id. -/
def before (a b : RuntimeRecoveryTicket) : Bool :=
  if a.priority ≠ b.priority then a.priority < b.priority
  else if a.nextRunTick ≠ b.nextRunTick then a.nextRunTick < b.nextRunTick
  else if a.createdTick ≠ b.createdTick then a.createdTick < b.createdTick
  else TextLe a.ticketId b.ticketId

def insertTicket (t : RuntimeRecoveryTicket) :
    List RuntimeRecoveryTicket → List RuntimeRecoveryTicket
  | [] => [t]
  | x :: xs => if before t x then t :: x :: xs else x :: insertTicket t xs

def sortTickets : List RuntimeRecoveryTicket → List RuntimeRecoveryTicket
  | [] => []
  | t :: ts => insertTicket t (sortTickets ts)

def peekReady (q : RuntimeRecoveryQueue) (currentTick limit : ℤ) : List RuntimeRecoveryTicket :=
  (sortTickets (q.tickets.values.filter (isReady currentTick))).take limit.toNat

def getTicket (q : RuntimeRecoveryQueue) (ticketId : String) : Except Err RuntimeRecoveryTicket :=
  match validateText "ticket_id" ticketId with
  | .error e => .error e
  | .ok ticketId =>
    match q.tickets.get? ticketId with
    | none => .error (.rejected ("recovery ticket does not exist: " ++ Text.quoted ticketId))
    | some t => .ok t

/-- The `mark_*` methods: fetch the ticket and store a changed copy. -/
def mark (q : RuntimeRecoveryQueue) (ticketId : String)
    (f : RuntimeRecoveryTicket → RuntimeRecoveryTicket) :
    Except Err RuntimeRecoveryTicket × RuntimeRecoveryQueue :=
  match q.getTicket ticketId with
  | .error e => (.error e, q)
  | .ok t => (.ok (f t), q.setTicket (f t))

def markRunning (q : RuntimeRecoveryQueue) (ticketId : String) (currentTick : ℤ) (now : String) :
    Except Err RuntimeRecoveryTicket × RuntimeRecoveryQueue :=
  match q.getTicket ticketId with
  | .error e => (.error e, q)
  | .ok t =>
    if t.status ≠ .queued then
      (.error (.rejected
        ("recovery ticket cannot run from status: " ++ Text.quoted t.status.text)), q)
    else q.mark ticketId fun t => { t with
      status := .running, attempt := t.attempt + 1, updatedTick := currentTick, updatedAt := now }

def markCompleted (q : RuntimeRecoveryQueue) (ticketId : String) (currentTick : ℤ) (result : Val)
    (now : String) : Except Err RuntimeRecoveryTicket × RuntimeRecoveryQueue :=
  q.mark ticketId fun t => { t with
    status := .completed, updatedTick := currentTick, updatedAt := now
    metadata := Val.put "last_result" result t.metadata }

def markFailed (q : RuntimeRecoveryQueue) (ticketId : String) (currentTick : ℤ) (error : Val)
    (nextRunTick : ℤ) (now : String) : Except Err RuntimeRecoveryTicket × RuntimeRecoveryQueue :=
  q.mark ticketId fun t => { t with
    status := if t.maxAttempts ≤ t.attempt then .escalated else .queued
    nextRunTick := nextRunTick, updatedTick := currentTick, updatedAt := now
    metadata := Val.put "last_error" error t.metadata }

def markEscalated (q : RuntimeRecoveryQueue) (ticketId : String) (currentTick : ℤ)
    (reason : String) (now : String) : Except Err RuntimeRecoveryTicket × RuntimeRecoveryQueue :=
  q.mark ticketId fun t => { t with
    status := .escalated, updatedTick := currentTick, updatedAt := now
    metadata := Val.put "escalation_reason" (.str reason) t.metadata }

end RuntimeRecoveryQueue

structure RuntimeRecoveryOrchestratorResult where
  ok : Bool
  status : String
  ticket : RuntimeRecoveryTicket
  recoveryResult : Entries := []
  message : String := ""

def RuntimeRecoveryOrchestratorResult.toEntries (r : RuntimeRecoveryOrchestratorResult) : Entries :=
  [("ok", .bool r.ok), ("status", .str r.status), ("ticket", .dict r.ticket.toEntries),
    ("recovery_result", .dict r.recoveryResult), ("message", .str r.message)]

structure RuntimeRecoveryOrchestrator where
  queue : RuntimeRecoveryQueue := ⟨.empty⟩
  baseDelayTicks : ℤ := 1
  multiplier : ℤ := 2
  maxDelayTicks : ℤ := 60
  cooldownTicks : ℤ := 0
  maxAttempts : ℤ := 3

/-- What runs a recovery: its answer, or the type name and the message of what it raised. -/
abbrev RecoveryRunner := RuntimeRecoveryTicket → Except (String × String) Val

namespace RuntimeRecoveryOrchestrator

abbrev RunM := Except Err RuntimeRecoveryOrchestratorResult × RuntimeRecoveryOrchestrator

def withQueue (o : RuntimeRecoveryOrchestrator) (q : RuntimeRecoveryQueue) :
    RuntimeRecoveryOrchestrator := { o with queue := q }

def recoveryIdOf (fingerprint : Val → String) (incidentId sourceSessionId taskId : String)
    (incident : Entries) : String :=
  "runtime-recovery-" ++ Text.take 16 (fingerprint (.dict [("incident_id", .str incidentId),
    ("source_session_id", .str sourceSessionId), ("task_id", .str taskId),
    ("root_event", Val.getIn "root_event" incident),
    ("latest_event", Val.getIn "latest_event" incident)]))

def submitIncident (fingerprint : Val → String) (o : RuntimeRecoveryOrchestrator)
    (incident : Entries) (currentTick : ℤ) (now : String) :
    Except Err RuntimeRecoveryTicket × RuntimeRecoveryOrchestrator :=
  let incidentId := (((Val.getIn "incident_id" incident).orElse (Val.getIn "id" incident)).orElse
    (Val.getIn "task_id" incident)).orElse (.str "runtime-global")
  match extractRuntimeIdentity true (.dict incident) with
  | .error e => (.error e, o)
  | .ok identity =>
    let taskId := ((Val.getIn "task_id" incident).orElse (.str "")).toText
    let given := (Val.getIn "recovery_id" incident).text
    let recoveryId := if given ≠ "" then given
      else recoveryIdOf fingerprint incidentId.toText identity.sourceSessionId taskId incident
    (o.queue.enqueue fingerprint recoveryId identity.sourceSessionId incidentId.toText taskId
      [("incident", .dict incident)] [("submitted_by", .str "runtime_recovery_orchestrator")] 100
      o.maxAttempts currentTick now).map id o.withQueue

def delayForAttempt (o : RuntimeRecoveryOrchestrator) (attempt : ℕ) : ℤ :=
  max 0 (min (o.baseDelayTicks * o.multiplier ^ (max 1 attempt - 1)) o.maxDelayTicks)

def nextRetryTick (o : RuntimeRecoveryOrchestrator) (ticket : RuntimeRecoveryTicket)
    (currentTick : ℤ) : ℤ :=
  max (currentTick + o.delayForAttempt ticket.attempt) (currentTick + max 0 o.cooldownTicks)

def normalizeResult : Val → Entries
  | .dict kvs => kvs
  | v => [("ok", .bool true), ("result", v)]

def flag (result : Entries) (name : String) (default : Bool) : Bool :=
  ((Val.find name result).getD (.bool default)).truthy

/-- `str(a or b or c or "")` -/
def firstText (result : Entries) (names : List String) : String :=
  ((names.map fun n => Val.getIn n result).foldr Val.orElse (.str "")).toText

/-- The lineage graph refuses a reference that is blank and not empty. -/
def blankRef (ref : String) : Bool := ref ≠ "" && Text.strip ref = ""

/-- `_escalate_ticket`: the ticket is escalated, and the result says so. -/
def escalateTicket (o : RuntimeRecoveryOrchestrator) (ticketId reason : String)
    (currentTick : ℤ) (recoveryResult : Entries) (now : String) : RunM :=
  match o.queue.markEscalated ticketId currentTick reason now with
  | (.error e, q) => (.error e, o.withQueue q)
  | (.ok ticket, q) =>
    (.ok { ok := false, status := TicketStatus.escalated.text, ticket := ticket
           recoveryResult := recoveryResult, message := reason }, o.withQueue q)

/-- A run that failed: the ticket is queued again, or escalated when its attempts are used up. -/
def failTicket (o : RuntimeRecoveryOrchestrator) (running : RuntimeRecoveryTicket)
    (currentTick : ℤ) (error : Val) (recoveryResult : Entries) (message : String) (now : String) :
    RunM :=
  match o.queue.markFailed running.ticketId currentTick error (o.nextRetryTick running currentTick)
      now with
  | (.error e, q) => (.error e, o.withQueue q)
  | (.ok failed, q) =>
    if failed.status = .escalated then
      (o.withQueue q).escalateTicket failed.ticketId "recovery retry depth exhausted" currentTick
        recoveryResult now
    else (.ok { ok := false, status := failed.status.text, ticket := failed
                recoveryResult := recoveryResult, message := message }, o.withQueue q)

/-- `run_ticket` once the runner has answered. -/
def settleTicket (o : RuntimeRecoveryOrchestrator) (running : RuntimeRecoveryTicket)
    (result : Entries) (currentTick : ℤ) (now : String) : RunM :=
  let replayId := firstText result ["replay_id", "runtime_replay_id", "recovery_replay_id"]
  let executionId := firstText result ["execution_id", "recovery_execution_id", "id"]
  if blankRef executionId || blankRef replayId then (.error (.rejected "ref_id_required"), o)
  else if flag result "blocked" false || flag result "requires_review" false ||
      flag result "review_required" false then
    match o.queue.markEscalated running.ticketId currentTick "recovery requires supervisor review"
        now with
    | (.error e, q) => (.error e, o.withQueue q)
    | (.ok escalated, q) => (o.withQueue q).escalateTicket escalated.ticketId
        "recovery requires supervisor review" currentTick result now
  else if flag result "failed" false || !flag result "ok" true then
    o.failTicket running currentTick (.dict result) result
      "runtime recovery attempt failed; retry scheduled" now
  else
    match o.queue.markCompleted running.ticketId currentTick (.dict result) now with
    | (.error e, q) => (.error e, o.withQueue q)
    | (.ok completed, q) =>
      (.ok { ok := true, status := TicketStatus.completed.text, ticket := completed
             recoveryResult := result, message := "runtime recovery completed" }, o.withQueue q)

def runTicket (o : RuntimeRecoveryOrchestrator) (runner : RecoveryRunner) (ticketId : String)
    (currentTick : ℤ) (now : String) : RunM :=
  match o.queue.markRunning ticketId currentTick now with
  | (.error e, q) => (.error e, o.withQueue q)
  | (.ok running, q) =>
    match runner running with
    | .error (kind, message) =>
      (o.withQueue q).failTicket running currentTick
        (.dict [("type", .str kind), ("message", .str message)]) [] message now
    | .ok v => (o.withQueue q).settleTicket running (normalizeResult v) currentTick now

/-- The results so far of a loop of `consume_ready`, and how it ended. -/
def runTickets (runner : RecoveryRunner) (currentTick : ℤ) (now : String) :
    List RuntimeRecoveryTicket → RuntimeRecoveryOrchestrator →
      Except Err (List RuntimeRecoveryOrchestratorResult) × RuntimeRecoveryOrchestrator
  | [], o => (.ok [], o)
  | t :: ts, o =>
    match o.runTicket runner t.ticketId currentTick now with
    | (.error e, o) => (.error e, o)
    | (.ok r, o) =>
      let more := runTickets runner currentTick now ts o
      (more.1.map fun rs => r :: rs, more.2)

def consumeReady (o : RuntimeRecoveryOrchestrator) (runner : RecoveryRunner)
    (currentTick limit : ℤ) (now : String) :
    Except Err (List RuntimeRecoveryOrchestratorResult) × RuntimeRecoveryOrchestrator :=
  runTickets runner currentTick now (o.queue.peekReady currentTick limit) o

end RuntimeRecoveryOrchestrator
/-! ## What the queue keeps -/

namespace RuntimeRecoveryQueue

/-- Tickets are filed under their own ids, which are stripped and not blank. -/
def Filed (q : RuntimeRecoveryQueue) : Prop :=
  ∀ id t, q.tickets.get? id = some t → t.ticketId = id ∧ Text.strip id = id ∧ id ≠ ""

/-- The same tickets, whatever their progress. -/
def SameTickets (q q' : RuntimeRecoveryQueue) : Prop :=
  ∀ id, (q'.tickets.get? id).map (fun t => (t.ticketId, t.payload)) =
    (q.tickets.get? id).map fun t => (t.ticketId, t.payload)

theorem SameTickets.refl (q : RuntimeRecoveryQueue) : SameTickets q q := fun _ => rfl

theorem SameTickets.trans {q q' q'' : RuntimeRecoveryQueue} (h : SameTickets q q')
    (h' : SameTickets q' q'') : SameTickets q q'' := fun id => (h' id).trans (h id)

variable {t : RuntimeRecoveryTicket}

variable {id : String}

/-- A ticket is still there, with its id and payload. -/
theorem SameTickets.get {q q' : RuntimeRecoveryQueue} (h : SameTickets q q')
    (ht : q.tickets.get? id = some t) :
    ∃ t', q'.tickets.get? id = some t' ∧ t'.ticketId = t.ticketId ∧ t'.payload = t.payload := by
  have hid := h id
  rw [ht, Option.map_some, Option.map_eq_some_iff] at hid
  obtain ⟨t', ht', heq⟩ := hid
  obtain ⟨hticket, hpayload⟩ := Prod.mk.injEq .. ▸ heq
  exact ⟨t', ht', hticket, hpayload⟩

theorem Filed.same {q q' : RuntimeRecoveryQueue} (hf : q.Filed) (h : SameTickets q q') :
    q'.Filed := by
  intro id t' ht'
  have hid := h id
  rw [ht', Option.map_some] at hid
  obtain ⟨t, ht, heq⟩ := Option.map_eq_some_iff.mp hid.symm
  obtain ⟨hticket, -⟩ := Prod.mk.injEq .. ▸ heq
  obtain ⟨hown, hstrip, hne⟩ := hf id t ht
  exact ⟨hticket.symm.trans hown, hstrip, hne⟩

variable {q : RuntimeRecoveryQueue}

theorem getTicket_ok {ticketId : String} (h : q.getTicket ticketId = .ok t) :
    q.tickets.get? (Text.strip ticketId) = some t := by
  unfold getTicket at h
  split at h
  · cases h
  · rename_i id hid
    obtain rfl := validateText_ok hid
    split at h
    · cases h
    · rename_i t' ht
      cases h
      exact ht

theorem Filed.getTicket (hf : q.Filed) (ht : q.tickets.get? id = some t) :
    q.getTicket t.ticketId = .ok t := by
  obtain ⟨hown, hstrip, hne⟩ := hf id t ht
  unfold RuntimeRecoveryQueue.getTicket validateText
  simp only [hown, hstrip, hne, if_false, ht]

theorem mark_same (hf : q.Filed) (ticketId : String) {f : RuntimeRecoveryTicket → RuntimeRecoveryTicket}
    (hkeeps : ∀ t, (f t).ticketId = t.ticketId ∧ (f t).payload = t.payload) :
    SameTickets q (q.mark ticketId f).2 := by
  unfold mark
  cases ht : q.getTicket ticketId with
  | error e => exact .refl q
  | ok t =>
    have hget := getTicket_ok ht
    have hown := (hf _ t hget).1
    intro id
    simp only [setTicket, (hkeeps t).1, hown, Dict.get?_set]
    split
    · rename_i hid
      rw [hid, hget, Option.map_some, Option.map_some, (hkeeps t).1, (hkeeps t).2]
    · rfl

theorem markRunning_same (hf : q.Filed) (ticketId now : String) (currentTick : ℤ) :
    SameTickets q (q.markRunning ticketId currentTick now).2 := by
  unfold markRunning
  split
  · exact .refl q
  · split
    · exact .refl q
    · exact mark_same hf ticketId fun _ => ⟨rfl, rfl⟩

theorem markCompleted_same (hf : q.Filed) (ticketId now : String) (currentTick : ℤ)
    (result : Val) :
    SameTickets q (q.markCompleted ticketId currentTick result now).2 :=
  mark_same hf ticketId fun _ => ⟨rfl, rfl⟩

theorem markFailed_same (hf : q.Filed) (ticketId now : String) (currentTick : ℤ) (error : Val)
    (nextRunTick : ℤ) :
    SameTickets q (q.markFailed ticketId currentTick error nextRunTick now).2 :=
  mark_same hf ticketId fun _ => ⟨rfl, rfl⟩

theorem markEscalated_same (hf : q.Filed) (ticketId now : String) (currentTick : ℤ)
    (reason : String) :
    SameTickets q (q.markEscalated ticketId currentTick reason now).2 :=
  mark_same hf ticketId fun _ => ⟨rfl, rfl⟩

variable {x : RuntimeRecoveryTicket} {ts : List RuntimeRecoveryTicket}

theorem mem_insertTicket (h : x ∈ insertTicket t ts) : x = t ∨ x ∈ ts := by
  induction ts with
  | nil => exact .inl (List.mem_singleton.mp h)
  | cons y ys ih =>
    unfold insertTicket at h
    split at h
    · exact List.mem_cons.mp h
    · rcases List.mem_cons.mp h with rfl | h
      · exact .inr List.mem_cons_self
      · exact (ih h).imp_right (List.mem_cons_of_mem _)

theorem mem_sortTickets (h : x ∈ sortTickets ts) : x ∈ ts := by
  induction ts with
  | nil => cases h
  | cons t ts ih =>
    rcases mem_insertTicket h with rfl | h
    · exact List.mem_cons_self
    · exact List.mem_cons_of_mem _ (ih h)

theorem mem_peekReady {currentTick limit : ℤ} (h : t ∈ q.peekReady currentTick limit) :
    (∃ id, q.tickets.get? id = some t) ∧ t.status = .queued := by
  have hmem := mem_sortTickets (List.mem_of_mem_take h)
  obtain ⟨hvalue, hready⟩ := List.mem_filter.mp hmem
  refine ⟨Dict.mem_values.mp hvalue, ?_⟩
  simp only [isReady, Bool.and_eq_true, decide_eq_true_eq] at hready
  exact hready.1

/-- The ticket `mark_running` makes of a queued one. -/
def started (t : RuntimeRecoveryTicket) (currentTick : ℤ) (now : String) : RuntimeRecoveryTicket :=
  { t with status := .running, attempt := t.attempt + 1, updatedTick := currentTick
           updatedAt := now }

theorem markRunning_queued (hf : q.Filed) (ht : q.tickets.get? id = some t)
    (hst : t.status = .queued) (currentTick : ℤ) (now : String) :
    q.markRunning t.ticketId currentTick now =
      (.ok (started t currentTick now), q.setTicket (started t currentTick now)) := by
  unfold markRunning mark
  rw [hf.getTicket ht]
  simp only [hst, ne_eq, not_true_eq_false, if_false]
  rfl

theorem enqueue_cases (fingerprint : Val → String) (q : RuntimeRecoveryQueue)
    (recoveryId sourceSessionId incidentId taskId : String) (payload metadata : Entries)
    (priority maxAttempts currentTick : ℤ) (now : String) :
    (∃ e, q.enqueue fingerprint recoveryId sourceSessionId incidentId taskId payload metadata
      priority maxAttempts currentTick now = (.error e, q)) ∨
    ∃ t, q.enqueue fingerprint recoveryId sourceSessionId incidentId taskId payload metadata
        priority maxAttempts currentTick now = (.ok t, q.setTicket t) ∧
      q.tickets.get? t.ticketId = none ∧ Text.strip t.ticketId = t.ticketId ∧ t.ticketId ≠ "" ∧
      t.payload = payload := by
  unfold enqueue
  split
  · exact .inl ⟨_, rfl⟩
  · split
    · exact .inl ⟨_, rfl⟩
    · rename_i id hid
      have hstrip : Text.strip id = id := by rw [validateText_ok hid, Text.strip_strip]
      have hne := validateText_ne hid
      split
      · exact .inl ⟨_, rfl⟩
      · rename_i hnew
        refine .inr ⟨_, rfl, ?_, hstrip, hne, rfl⟩
        simpa [Dict.contains] using hnew

end RuntimeRecoveryQueue

namespace RuntimeRecoveryOrchestrator

open RuntimeRecoveryQueue

theorem submitIncident_cases (fingerprint : Val → String) (o : RuntimeRecoveryOrchestrator)
    (incident : Entries) (currentTick : ℤ) (now : String) :
    (∃ e, o.submitIncident fingerprint incident currentTick now = (.error e, o)) ∨
    ∃ t, o.submitIncident fingerprint incident currentTick now =
        (.ok t, o.withQueue (o.queue.setTicket t)) ∧
      o.queue.tickets.get? t.ticketId = none ∧ Text.strip t.ticketId = t.ticketId ∧
      t.ticketId ≠ "" ∧ t.payload = [("incident", .dict incident)] := by
  unfold submitIncident
  simp only
  split
  · exact .inl ⟨_, rfl⟩
  · rename_i identity _
    rcases enqueue_cases fingerprint o.queue _ identity.sourceSessionId _ _ _ _ 100 o.maxAttempts
      currentTick now with ⟨e, heq⟩ | ⟨t, heq, hspec⟩
    · rw [heq]
      exact .inl ⟨e, rfl⟩
    · rw [heq]
      exact .inr ⟨t, rfl, hspec⟩

variable {o : RuntimeRecoveryOrchestrator}

@[simp] theorem withQueue_queue (o : RuntimeRecoveryOrchestrator) (q : RuntimeRecoveryQueue) :
    (o.withQueue q).queue = q := rfl

theorem escalateTicket_same (hf : o.queue.Filed) (ticketId reason : String) (currentTick : ℤ)
    (recoveryResult : Entries) (now : String) :
    SameTickets o.queue
      (o.escalateTicket ticketId reason currentTick recoveryResult now).2.queue := by
  have hmark := markEscalated_same hf ticketId now currentTick reason
  unfold escalateTicket
  split
  · rename_i heq
    rw [heq] at hmark
    exact hmark
  · rename_i heq
    rw [heq] at hmark
    exact hmark

theorem failTicket_same (hf : o.queue.Filed) (running : RuntimeRecoveryTicket) (currentTick : ℤ)
    (error : Val) (recoveryResult : Entries) (message now : String) :
    SameTickets o.queue
      (o.failTicket running currentTick error recoveryResult message now).2.queue := by
  have hmark := markFailed_same hf running.ticketId now currentTick error
    (o.nextRetryTick running currentTick)
  unfold failTicket
  split
  · rename_i heq
    rw [heq] at hmark
    exact hmark
  · rename_i failed q heq
    rw [heq] at hmark
    split
    · have hf' : (o.withQueue q).queue.Filed := hf.same hmark
      exact hmark.trans (escalateTicket_same hf' failed.ticketId "recovery retry depth exhausted"
        currentTick recoveryResult now)
    · exact hmark

/-! The references a result names, and what it reports, as `run_ticket` reads them. -/

def replayIdOf (result : Entries) : String :=
  firstText result ["replay_id", "runtime_replay_id", "recovery_replay_id"]

def executionIdOf (result : Entries) : String :=
  firstText result ["execution_id", "recovery_execution_id", "id"]

/-- The lineage graph refuses a reference of the result, so the run raises. -/
def refused (result : Entries) : Bool :=
  blankRef (executionIdOf result) || blankRef (replayIdOf result)

/-- Neither blocked, nor up for review, nor failed. -/
def succeeded (result : Entries) : Bool :=
  !(flag result "blocked" false || flag result "requires_review" false ||
    flag result "review_required" false) && !(flag result "failed" false || !flag result "ok" true)

theorem settleTicket_same (hf : o.queue.Filed) (running : RuntimeRecoveryTicket)
    (result : Entries) (currentTick : ℤ) (now : String) :
    SameTickets o.queue (o.settleTicket running result currentTick now).2.queue := by
  unfold settleTicket
  simp only
  split
  · exact .refl _
  · split
    · have hmark := markEscalated_same hf running.ticketId now currentTick
        "recovery requires supervisor review"
      split
      · rename_i heq
        rw [heq] at hmark
        exact hmark
      · rename_i escalated q heq
        rw [heq] at hmark
        have hf' : (o.withQueue q).queue.Filed := hf.same hmark
        exact hmark.trans (escalateTicket_same hf' escalated.ticketId
          "recovery requires supervisor review" currentTick result now)
    · split
      · exact failTicket_same hf running currentTick _ result _ now
      · have hmark := markCompleted_same hf running.ticketId now currentTick (.dict result)
        split
        · rename_i heq
          rw [heq] at hmark
          exact hmark
        · rename_i heq
          rw [heq] at hmark
          exact hmark

theorem runTicket_same (hf : o.queue.Filed) (runner : RecoveryRunner) (ticketId : String)
    (currentTick : ℤ) (now : String) :
    SameTickets o.queue (o.runTicket runner ticketId currentTick now).2.queue := by
  have hmark := markRunning_same hf ticketId now currentTick
  unfold runTicket
  split
  · rename_i heq
    rw [heq] at hmark
    exact hmark
  · rename_i running q heq
    rw [heq] at hmark
    have hf' : (o.withQueue q).queue.Filed := hf.same hmark
    split
    · exact hmark.trans (failTicket_same hf' running currentTick _ [] _ now)
    · exact hmark.trans (settleTicket_same hf' running _ currentTick now)

theorem runTickets_same (hf : o.queue.Filed) (runner : RecoveryRunner) (currentTick : ℤ)
    (now : String) (ts : List RuntimeRecoveryTicket) :
    SameTickets o.queue (runTickets runner currentTick now ts o).2.queue := by
  induction ts generalizing o with
  | nil => exact .refl _
  | cons t ts ih =>
    have hrun := runTicket_same hf runner t.ticketId currentTick now
    unfold runTickets
    split
    · rename_i heq
      rw [heq] at hrun
      exact hrun
    · rename_i r o' heq
      rw [heq] at hrun
      exact hrun.trans (ih (hf.same hrun))

theorem consumeReady_same (hf : o.queue.Filed) (runner : RecoveryRunner)
    (currentTick limit : ℤ) (now : String) :
    SameTickets o.queue (o.consumeReady runner currentTick limit now).2.queue :=
  runTickets_same hf runner currentTick now _

variable {runner : RecoveryRunner} {t : RuntimeRecoveryTicket}

/-- A run whose result names a blank reference raises. -/
theorem runTicket_refused (hf : o.queue.Filed) {id now : String} {currentTick : ℤ} {v : Val}
    (ht : o.queue.tickets.get? id = some t) (hst : t.status = .queued)
    (hv : runner (started t currentTick now) = .ok v)
    (hrefused : refused (normalizeResult v) = true) :
    ∃ e, (o.runTicket runner t.ticketId currentTick now).1 = .error e := by
  unfold runTicket
  rw [markRunning_queued hf ht hst]
  simp only [hv]
  unfold settleTicket
  unfold refused executionIdOf replayIdOf at hrefused
  simp only [hrefused, if_true]
  exact ⟨_, rfl⟩

/-- A run that reports success completes its ticket and answers with it. -/
theorem runTicket_succeeded (hf : o.queue.Filed) {id now : String} {currentTick : ℤ} {v : Val}
    (ht : o.queue.tickets.get? id = some t) (hst : t.status = .queued)
    (hv : runner (started t currentTick now) = .ok v)
    (hrefused : refused (normalizeResult v) = false) (hok : succeeded (normalizeResult v) = true) :
    ∃ r, (o.runTicket runner t.ticketId currentTick now).1 = .ok r ∧ r.ok = true ∧
      r.ticket.ticketId = t.ticketId ∧ r.ticket.payload = t.payload := by
  have hf' : (q : RuntimeRecoveryQueue) → q = o.queue.setTicket (started t currentTick now) →
      q.getTicket t.ticketId = .ok (started t currentTick now) := by
    rintro q rfl
    have hself : (o.queue.setTicket (started t currentTick now)).tickets.get? id =
        some (started t currentTick now) := by
      simp [setTicket, started, (hf id t ht).1]
    obtain ⟨hown, hstrip, hne⟩ := hf id t ht
    unfold getTicket validateText
    simp only [hown, hstrip, hne, if_false, hself]
  unfold runTicket
  rw [markRunning_queued hf ht hst]
  simp only [hv]
  unfold settleTicket
  unfold refused executionIdOf replayIdOf at hrefused
  simp only [succeeded, Bool.and_eq_true, Bool.not_eq_true'] at hok
  have hid : (started t currentTick now).ticketId = t.ticketId := rfl
  simp only [hrefused, hok.1, hok.2, Bool.false_eq_true, if_false, markCompleted, mark,
    withQueue_queue, hid, hf' _ rfl]
  exact ⟨_, rfl, rfl, rfl, rfl⟩

end RuntimeRecoveryOrchestrator

end Fabric
end ZeroRuntime
