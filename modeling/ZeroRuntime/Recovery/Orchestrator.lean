import ZeroRuntime.Lib.Logged
import ZeroRuntime.Recovery.Tickets

/-!
# ZeroRuntime.Recovery.Orchestrator

The orchestrator (`core/runtime/runtime_recovery_orchestrator.py`) with everything that can end one
of its calls early: the runner, the lineage graph and the supervisor may raise, and the process may
stop after any save.

* `Event`: a save of the queue, or an invocation of the runner. Every change of a ticket is saved at
  once, so the queue of a process and its stored file are the same after each event.
* `Surroundings`: what the collaborators do during one `consume_ready`, which runs a ticket at most
  once, for each ticket id. An error there ends the call; a process that stops ends it in the same
  way.
* `RuntimeRecoveryOrchestrator` gives the policies; the queue is passed on its own.
* `World` is the queue with the events so far, and `orchestration` takes one call after the other.
-/

namespace ZeroRuntime
namespace Recovery

open Lib Goals Fabric

inductive Event where
  | saved (q : RuntimeRecoveryQueue)
  | invoked (ticket : RuntimeRecoveryTicket) (currentTick : ℤ)

/-- What comes of `_run_recovery_for_ticket` and the reading of its result: a value, an exception
that `except Exception` catches, by its type name and message, or one that it does not, as when the
process stops. -/
inductive Answer where
  | returns (v : Val)
  | raises (kind message : String)
  | escapes (e : Err)

structure Surroundings where
  now : String
  /-- The process stops once the ticket is saved as running. -/
  stopsBefore : String → Option Err := fun _ => none
  runner : RuntimeRecoveryTicket → Answer
  /-- `link_recovery_chain` after the runner has answered. -/
  link : String → Option Err := fun _ => none
  escalate : String → Except Err Entries := fun _ => .ok []
  /-- `link_recovery_chain` after the ticket was handed to the supervisor. -/
  linkEscalated : String → Option Err := fun _ => none
  /-- The process stops once the outcome of the run is saved. -/
  stopsAfter : String → Option Err := fun _ => none

structure RunResult where
  ok : Bool
  status : String
  ticket : RuntimeRecoveryTicket
  recoveryResult : Entries := []
  supervisorHandoff : Entries := []
  message : String := ""

/-- A call of the queue, which saves what it changes. -/
def save (answer : Except Err RuntimeRecoveryTicket × RuntimeRecoveryQueue) :
    Logged Event (RuntimeRecoveryTicket × RuntimeRecoveryQueue) :=
  match answer with
  | (.error e, _) => Logged.raise e
  | (.ok ticket, q) => do
    Logged.write (.saved q)
    pure (ticket, q)

/-- The call goes on if nothing ends it here. -/
def proceed : Option Err → Logged Event Unit
  | none => pure ()
  | some e => Logged.raise e

section Ticket

variable (o : RuntimeRecoveryOrchestrator) (s : Surroundings) (currentTick : ℤ)

def escalateTicket (q : RuntimeRecoveryQueue) (ticket : RuntimeRecoveryTicket) (reason : String)
    (recoveryResult : Entries) : Logged Event (RunResult × RuntimeRecoveryQueue) := do
  let handoff ← Logged.ofExcept (s.escalate ticket.ticketId)
  let (escalated, q) ← save
    (markEscalatedWith q ticket.ticketId currentTick reason (some handoff) s.now)
  proceed (s.linkEscalated escalated.ticketId)
  pure ({ ok := false, status := TicketStatus.escalated.text, ticket := escalated
          recoveryResult := recoveryResult, supervisorHandoff := handoff, message := reason }, q)

/-- A run that failed: the ticket is queued again, or escalated when its attempts are used up. -/
def failTicket (q : RuntimeRecoveryQueue) (running : RuntimeRecoveryTicket) (error : Val)
    (recoveryResult : Entries) (message : String) :
    Logged Event (RunResult × RuntimeRecoveryQueue) := do
  let (failed, q) ← save (q.markFailed running.ticketId currentTick error
    (o.nextRetryTick running currentTick) s.now)
  if failed.status = .escalated then
    escalateTicket s currentTick q failed "recovery retry depth exhausted" recoveryResult
  else
    proceed (s.stopsAfter failed.ticketId)
    pure ({ ok := false, status := failed.status.text, ticket := failed
            recoveryResult := recoveryResult, message := message }, q)

def needsReview (result : Entries) : Bool :=
  RuntimeRecoveryOrchestrator.flag result "blocked" false ||
    RuntimeRecoveryOrchestrator.flag result "requires_review" false ||
    RuntimeRecoveryOrchestrator.flag result "review_required" false

def hasFailed (result : Entries) : Bool :=
  RuntimeRecoveryOrchestrator.flag result "failed" false ||
    !RuntimeRecoveryOrchestrator.flag result "ok" true

/-- `run_ticket` once the runner has answered with a result. -/
def settleTicket (q : RuntimeRecoveryQueue) (running : RuntimeRecoveryTicket) (result : Entries) :
    Logged Event (RunResult × RuntimeRecoveryQueue) := do
  proceed (s.link running.ticketId)
  if needsReview result then
    let (escalated, q) ← save (markEscalatedWith q running.ticketId currentTick
      "recovery requires supervisor review" none s.now)
    escalateTicket s currentTick q escalated "recovery requires supervisor review" result
  else if hasFailed result then
    failTicket o s currentTick q running (.dict result) result
      "runtime recovery attempt failed; retry scheduled"
  else
    let (completed, q) ← save
      (q.markCompleted running.ticketId currentTick (.dict result) s.now)
    proceed (s.stopsAfter completed.ticketId)
    pure ({ ok := true, status := TicketStatus.completed.text, ticket := completed
            recoveryResult := result, message := "runtime recovery completed" }, q)

/-- `run_ticket` from the invocation of the runner on. -/
def answerTicket (q : RuntimeRecoveryQueue) (running : RuntimeRecoveryTicket) :
    Logged Event (RunResult × RuntimeRecoveryQueue) :=
  match s.runner running with
  | .raises kind message =>
    failTicket o s currentTick q running
      (.dict [("type", .str kind), ("message", .str message)]) [] message
  | .escapes e => Logged.raise e
  | .returns v =>
    settleTicket o s currentTick q running (RuntimeRecoveryOrchestrator.normalizeResult v)

def runTicket (q : RuntimeRecoveryQueue) (ticketId : String) :
    Logged Event (RunResult × RuntimeRecoveryQueue) := do
  let (running, q) ← save (q.markRunning ticketId currentTick s.now)
  proceed (s.stopsBefore running.ticketId)
  Logged.write (.invoked running currentTick)
  answerTicket o s currentTick q running

/-- The loop of `consume_ready`. -/
def runTickets : List RuntimeRecoveryTicket → RuntimeRecoveryQueue →
    Logged Event (List RunResult × RuntimeRecoveryQueue)
  | [], q => pure ([], q)
  | t :: ts, q => do
    let (result, q) ← runTicket o s currentTick q t.ticketId
    let (results, q) ← runTickets ts q
    pure (result :: results, q)

def consumeReady (limit : ℤ) (q : RuntimeRecoveryQueue) :
    Logged Event (List RunResult × RuntimeRecoveryQueue) :=
  runTickets o s currentTick (q.peekReady currentTick limit) q

end Ticket

section Calls

variable (fingerprint : Val → String) (o : RuntimeRecoveryOrchestrator)

/-- The ticket that `submit_incident` asks the queue for. -/
def incidentRequest (incident : Entries) (currentTick priority : ℤ) (maxAttempts : Option ℤ) :
    Except Err TicketRequest := do
  let incidentId := (((Val.getIn "incident_id" incident).orElse (Val.getIn "id" incident)).orElse
    (Val.getIn "task_id" incident)).orElse (.str "runtime-global")
  let identity ← extractRuntimeIdentity true (.dict incident)
  let taskId := ((Val.getIn "task_id" incident).orElse (.str "")).toText
  let given := (Val.getIn "recovery_id" incident).text
  let recoveryId := if given ≠ "" then given
    else RuntimeRecoveryOrchestrator.recoveryIdOf fingerprint incidentId.toText
      identity.sourceSessionId taskId incident
  .ok { recoveryId := recoveryId, sourceSessionId := identity.sourceSessionId
        incidentId := incidentId.toText, taskId := taskId
        payload := [("incident", .dict incident)]
        metadata := [("submitted_by", .str "runtime_recovery_orchestrator")]
        priority := priority, maxAttempts := maxAttempts.getD (max 1 o.maxAttempts)
        currentTick := currentTick }

def submitIncident (q : RuntimeRecoveryQueue) (incident : Entries) (currentTick priority : ℤ)
    (maxAttempts : Option ℤ) (link : Option Err) (now : String) :
    Logged Event (RuntimeRecoveryTicket × RuntimeRecoveryQueue) := do
  let request ← Logged.ofExcept (incidentRequest fingerprint o incident currentTick priority
    maxAttempts)
  let (ticket, q) ← save (enqueueTicket fingerprint q request now)
  proceed link
  pure (ticket, q)

/-- The tickets as `save` stores them, in order. -/
def stored (q : RuntimeRecoveryQueue) : List RuntimeRecoveryTicket := q.tickets.values

def load (file : List RuntimeRecoveryTicket) : RuntimeRecoveryQueue :=
  file.foldl (fun q t => if t.ticketId = "" then q else q.setTicket t) noTickets

/-- `restart`: a new process loads the stored file. -/
inductive Call where
  | submit (incident : Entries) (currentTick priority : ℤ) (maxAttempts : Option ℤ)
      (link : Option Err) (now : String)
  | consume (currentTick limit : ℤ) (s : Surroundings)
  | restart

structure World where
  queue : RuntimeRecoveryQueue := noTickets
  events : List Event := []

def lastSaved (q : RuntimeRecoveryQueue) : List Event → RuntimeRecoveryQueue
  | [] => q
  | .saved q' :: es => lastSaved q' es
  | .invoked _ _ :: es => lastSaved q es

def World.happen (w : World) (es : List Event) : World where
  queue := lastSaved w.queue es
  events := w.events ++ es

inductive Response where
  | ticket (t : RuntimeRecoveryTicket)
  | results (rs : List RunResult)
  | restarted

/-- The orchestrator takes calls; what was saved stays saved, however a call ends. -/
def orchestration : Machine World Call (Except Err Response) where
  step w
    | .submit incident currentTick priority maxAttempts link now =>
      let call := submitIncident fingerprint o w.queue incident currentTick priority maxAttempts
        link now
      (call.result.map fun a => .ticket a.1, w.happen call.writes)
    | .consume currentTick limit s =>
      let call := consumeReady o s currentTick limit w.queue
      (call.result.map fun a => .results a.1, w.happen call.writes)
    | .restart => (.ok .restarted, { w with queue := load (stored w.queue) })

end Calls

end Recovery
end ZeroRuntime
