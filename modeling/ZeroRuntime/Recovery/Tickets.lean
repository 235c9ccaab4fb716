import ZeroRuntime.Fabric.Recovery
import ZeroRuntime.Lib.Machine

/-!
# ZeroRuntime.Recovery.Tickets

The recovery queue under any calls (`core/runtime/runtime_recovery_queue.py`): callers other than
the orchestrator may give their own ticket ids and report on any ticket at any time.

* `QueueCall` is one call; `ticketQueue` takes one call after the other.
* `Kept` is what every call keeps: tickets stand under their own ids, and a ticket that is queued
  has attempts left.
* `Reopens` is the one kind of call that takes a ticket out of the terminal statuses: a failure
  reported late, on a ticket with attempts left.
* `final_iff_no_reopening`: terminal tickets stay terminal in exactly the runs without such a call.
-/

namespace ZeroRuntime
namespace Recovery

open Lib Goals Fabric

/-- `TERMINAL_RECOVERY_TICKET_STATUSES` -/
def terminal : TicketStatus → Bool
  | .completed | .failed | .escalated | .blocked => true
  | .queued | .running => false

/-! ## The calls -/

/-- What `enqueue` is given. -/
structure TicketRequest where
  recoveryId : String
  sourceSessionId : String := ""
  incidentId : String := ""
  taskId : String := ""
  payload : Entries := []
  metadata : Entries := []
  priority : ℤ := 100
  maxAttempts : ℤ := 3
  currentTick : ℤ := 0
  nextRunTick : Option ℤ := none
  ticketId : Option String := none

def newTicket (r : TicketRequest) (recoveryId ticketId now : String) : RuntimeRecoveryTicket :=
  { ticketId := ticketId, recoveryId := recoveryId, sourceSessionId := r.sourceSessionId
    incidentId := r.incidentId, taskId := r.taskId, priority := r.priority
    maxAttempts := max 1 r.maxAttempts, nextRunTick := r.nextRunTick.getD r.currentTick
    createdTick := r.currentTick, updatedTick := r.currentTick, createdAt := now
    updatedAt := now, payload := r.payload, metadata := r.metadata }

/-- `enqueue`, with all its arguments. -/
def enqueueTicket (fingerprint : Val → String) (q : RuntimeRecoveryQueue) (r : TicketRequest)
    (now : String) : Except Err RuntimeRecoveryTicket × RuntimeRecoveryQueue :=
  match validateText "recovery_id" r.recoveryId with
  | .error e => (.error e, q)
  | .ok recoveryId =>
    match validateText "ticket_id" (r.ticketId.getD (RuntimeRecoveryQueue.ticketIdOf fingerprint
        recoveryId r.sourceSessionId r.incidentId r.taskId r.payload r.metadata)) with
    | .error e => (.error e, q)
    | .ok ticketId =>
      if q.tickets.contains ticketId then
        (.error (.rejected ("recovery ticket already exists: " ++ Text.quoted ticketId)), q)
      else
        let ticket := newTicket r recoveryId ticketId now
        (.ok ticket, q.setTicket ticket)

/-- `mark_escalated`, with the handoff. -/
def markEscalatedWith (q : RuntimeRecoveryQueue) (ticketId : String) (currentTick : ℤ)
    (reason : String) (handoff : Option Entries) (now : String) :
    Except Err RuntimeRecoveryTicket × RuntimeRecoveryQueue :=
  q.mark ticketId fun t => { t with
    status := .escalated, updatedTick := currentTick, updatedAt := now
    metadata :=
      let metadata := Val.put "escalation_reason" (.str reason) t.metadata
      match handoff with
      | none => metadata
      | some handoff => Val.put "supervisor_handoff" (.dict handoff) metadata }

inductive QueueCall where
  | enqueue (r : TicketRequest) (now : String)
  | markRunning (ticketId : String) (currentTick : ℤ) (now : String)
  | markCompleted (ticketId : String) (currentTick : ℤ) (result : Val) (now : String)
  | markFailed (ticketId : String) (currentTick : ℤ) (error : Val) (nextRunTick : Option ℤ)
      (now : String)
  | markEscalated (ticketId : String) (currentTick : ℤ) (reason : String)
      (handoff : Option Entries) (now : String)

section Queue

variable (fingerprint : Val → String)

/-- The queue takes calls; every change is saved at once. -/
def ticketQueue : Machine RuntimeRecoveryQueue QueueCall (Except Err RuntimeRecoveryTicket) where
  step q
    | .enqueue r now => enqueueTicket fingerprint q r now
    | .markRunning ticketId currentTick now => q.markRunning ticketId currentTick now
    | .markCompleted ticketId currentTick result now =>
      q.markCompleted ticketId currentTick result now
    | .markFailed ticketId currentTick error nextRunTick now =>
      q.markFailed ticketId currentTick error (nextRunTick.getD currentTick) now
    | .markEscalated ticketId currentTick reason handoff now =>
      markEscalatedWith q ticketId currentTick reason handoff now

def noTickets : RuntimeRecoveryQueue := ⟨.empty⟩

end Queue

/-! ## What every call keeps -/

variable {fingerprint : Val → String} {q : RuntimeRecoveryQueue}

/-- A ticket never had more attempts than it may have, and has one left while it is queued. -/
def Bounded (t : RuntimeRecoveryTicket) : Prop :=
  (t.attempt : ℤ) ≤ t.maxAttempts ∧ (t.status = .queued → (t.attempt : ℤ) < t.maxAttempts)

structure Kept (q : RuntimeRecoveryQueue) : Prop where
  filed : q.Filed
  bounded : ∀ id t, q.tickets.get? id = some t → Bounded t

theorem kept_noTickets : Kept noTickets :=
  ⟨fun _ _ h => absurd h (by simp [noTickets]), fun _ _ h => absurd h (by simp [noTickets])⟩

theorem get?_setTicket (q : RuntimeRecoveryQueue) (t : RuntimeRecoveryTicket) (id : String) :
    (q.setTicket t).tickets.get? id = if id = t.ticketId then some t else q.tickets.get? id :=
  Dict.get?_set ..

variable {t : RuntimeRecoveryTicket}

/-- A ticket is stored under its id. -/
theorem Kept.set (h : Kept q) (hid : Text.strip t.ticketId = t.ticketId ∧ t.ticketId ≠ "")
    (hbounded : Bounded t) : Kept (q.setTicket t) := by
  constructor
  · intro id t' ht'
    rw [get?_setTicket] at ht'
    split at ht'
    · rename_i hown
      cases ht'
      exact ⟨hown.symm, hown ▸ hid⟩
    · exact h.filed id t' ht'
  · intro id t' ht'
    rw [get?_setTicket] at ht'
    split at ht'
    · cases ht'
      exact hbounded
    · exact h.bounded id t' ht'

/-- What `enqueue` does: it refuses, or files a new ticket. -/
theorem enqueueTicket_cases (fingerprint : Val → String) (q : RuntimeRecoveryQueue)
    (r : TicketRequest) (now : String) :
    (∃ e, enqueueTicket fingerprint q r now = (.error e, q)) ∨
      ∃ recoveryId ticketId,
        enqueueTicket fingerprint q r now = (.ok (newTicket r recoveryId ticketId now),
          q.setTicket (newTicket r recoveryId ticketId now)) ∧
        q.tickets.get? ticketId = none ∧ Text.strip ticketId = ticketId ∧ ticketId ≠ "" := by
  unfold enqueueTicket
  cases validateText "recovery_id" r.recoveryId with
  | error e => exact .inl ⟨e, rfl⟩
  | ok recoveryId =>
    dsimp only
    cases hid : validateText "ticket_id" (r.ticketId.getD (RuntimeRecoveryQueue.ticketIdOf
        fingerprint recoveryId r.sourceSessionId r.incidentId r.taskId r.payload r.metadata)) with
    | error e => exact .inl ⟨e, rfl⟩
    | ok ticketId =>
      dsimp only
      split
      · exact .inl ⟨_, rfl⟩
      · rename_i hnew
        refine .inr ⟨recoveryId, ticketId, rfl, ?_, ?_, validateText_ne hid⟩
        · simpa [Dict.contains] using hnew
        · rw [validateText_ok hid, Text.strip_strip]

/-- What a report does: it is refused, or changes the ticket that has the id. -/
theorem mark_cases (h : q.Filed) (ticketId : String)
    (f : RuntimeRecoveryTicket → RuntimeRecoveryTicket) :
    (∃ e, q.getTicket ticketId = .error e ∧ q.mark ticketId f = (.error e, q)) ∨
      ∃ t, q.getTicket ticketId = .ok t ∧ q.tickets.get? t.ticketId = some t ∧
        q.mark ticketId f = (.ok (f t), q.setTicket (f t)) := by
  unfold RuntimeRecoveryQueue.mark
  cases ht : q.getTicket ticketId with
  | error e => exact .inl ⟨e, rfl, rfl⟩
  | ok t =>
    have hget := RuntimeRecoveryQueue.getTicket_ok ht
    refine .inr ⟨t, rfl, ?_, rfl⟩
    rw [(h _ t hget).1]
    exact hget

/-- `mark_running` is the one report that looks at the status. -/
theorem markRunning_cases (h : q.Filed) (ticketId : String) (currentTick : ℤ) (now : String) :
    (∃ e, q.markRunning ticketId currentTick now = (.error e, q)) ∨
      ∃ t, q.tickets.get? t.ticketId = some t ∧ t.status = .queued ∧
        q.markRunning ticketId currentTick now =
          (.ok (RuntimeRecoveryQueue.started t currentTick now),
            q.setTicket (RuntimeRecoveryQueue.started t currentTick now)) := by
  unfold RuntimeRecoveryQueue.markRunning
  rcases mark_cases h ticketId (fun t => RuntimeRecoveryQueue.started t currentTick now) with
    ⟨e, hget, -⟩ | ⟨t, hget, ht, hmark⟩
  · rw [hget]
    exact .inl ⟨e, rfl⟩
  · rw [hget]
    dsimp only
    split
    · exact .inl ⟨_, rfl⟩
    · rename_i hqueued
      exact .inr ⟨t, ht, not_not.mp hqueued, hmark⟩

/-- A report changes one ticket of the queue, to one with the same id. -/
theorem Kept.changed (h : Kept q) {t' : RuntimeRecoveryTicket}
    (ht : q.tickets.get? t.ticketId = some t) (hid : t'.ticketId = t.ticketId)
    (hbounded : Bounded t → Bounded t') : Kept (q.setTicket t') := by
  obtain ⟨-, hstrip, hne⟩ := h.filed _ t ht
  refine h.set ?_ (hbounded (h.bounded _ t ht))
  rw [hid]
  exact ⟨hstrip, hne⟩

theorem bounded_failed (h : Bounded t) (error : Val) (nextRunTick currentTick : ℤ) (now : String) :
    Bounded { t with
      status := if t.maxAttempts ≤ t.attempt then .escalated else .queued
      nextRunTick := nextRunTick, updatedTick := currentTick, updatedAt := now
      metadata := Val.put "last_error" error t.metadata } := by
  refine ⟨h.1, fun hqueued => ?_⟩
  dsimp only at hqueued ⊢
  split at hqueued
  · cases hqueued
  · omega

theorem kept_step (h : Kept q) (c : QueueCall) : Kept ((ticketQueue fingerprint).step q c).2 := by
  cases c with
  | enqueue r now =>
    change Kept (enqueueTicket fingerprint q r now).2
    rcases enqueueTicket_cases fingerprint q r now with
      ⟨e, heq⟩ | ⟨recoveryId, ticketId, heq, -, hid⟩
    · rw [heq]
      exact h
    · rw [heq]
      have hone : 1 ≤ max 1 r.maxAttempts := Int.le_max_left 1 r.maxAttempts
      refine h.set hid ⟨?_, fun _ => ?_⟩
      · change (0 : ℤ) ≤ max 1 r.maxAttempts
        omega
      · change (0 : ℤ) < max 1 r.maxAttempts
        omega
  | markRunning ticketId currentTick now =>
    change Kept (q.markRunning ticketId currentTick now).2
    rcases markRunning_cases h.filed ticketId currentTick now with
      ⟨e, heq⟩ | ⟨t, ht, hqueued, heq⟩
    · rw [heq]
      exact h
    · rw [heq]
      refine h.changed ht rfl fun hb => ⟨?_, fun hne => by cases hne⟩
      have hlt := hb.2 hqueued
      change ((t.attempt + 1 : ℕ) : ℤ) ≤ t.maxAttempts
      omega
  | markCompleted ticketId currentTick result now =>
    change Kept (q.markCompleted ticketId currentTick result now).2
    unfold RuntimeRecoveryQueue.markCompleted
    rcases mark_cases h.filed ticketId _ with ⟨e, -, heq⟩ | ⟨t, -, ht, heq⟩
    · rw [heq]
      exact h
    · rw [heq]
      exact h.changed ht rfl fun hb => ⟨hb.1, fun hne => by cases hne⟩
  | markFailed ticketId currentTick error nextRunTick now =>
    change Kept (q.markFailed ticketId currentTick error (nextRunTick.getD currentTick) now).2
    unfold RuntimeRecoveryQueue.markFailed
    rcases mark_cases h.filed ticketId _ with ⟨e, -, heq⟩ | ⟨t, -, ht, heq⟩
    · rw [heq]
      exact h
    · rw [heq]
      exact h.changed ht rfl fun hb => bounded_failed hb _ _ _ _
  | markEscalated ticketId currentTick reason handoff now =>
    change Kept (markEscalatedWith q ticketId currentTick reason handoff now).2
    unfold markEscalatedWith
    rcases mark_cases h.filed ticketId _ with ⟨e, -, heq⟩ | ⟨t, -, ht, heq⟩
    · rw [heq]
      exact h
    · rw [heq]
      exact h.changed ht rfl fun hb => ⟨hb.1, fun hne => by cases hne⟩

/-! ## Terminal tickets -/

/-- A failure is reported on a terminal ticket that has attempts left. -/
def Reopens (q : RuntimeRecoveryQueue) : QueueCall → Prop
  | .markFailed ticketId _ _ _ _ =>
    ∃ t, q.getTicket ticketId = .ok t ∧ terminal t.status = true ∧
      (t.attempt : ℤ) < t.maxAttempts
  | _ => False

/-- The ticket is there, in a terminal status. -/
def Closed (q : RuntimeRecoveryQueue) (id : String) : Prop :=
  ∃ t, q.tickets.get? id = some t ∧ terminal t.status = true

variable {id : String}

/-- A change to a terminal status keeps what is closed. -/
theorem closed_set (h : Closed q id) (hterminal : t.ticketId = id → terminal t.status = true) :
    Closed (q.setTicket t) id := by
  obtain ⟨t₀, ht₀, hclosed⟩ := h
  unfold Closed
  rw [get?_setTicket]
  split
  · rename_i hown
    exact ⟨t, rfl, hterminal hown.symm⟩
  · exact ⟨t₀, ht₀, hclosed⟩

theorem closed_step (h : Kept q) {c : QueueCall} (hc : ¬Reopens q c) (hclosed : Closed q id) :
    Closed ((ticketQueue fingerprint).step q c).2 id := by
  obtain ⟨t₀, ht₀, hterminal⟩ := hclosed
  have hclosed : Closed q id := ⟨t₀, ht₀, hterminal⟩
  cases c with
  | enqueue r now =>
    change Closed (enqueueTicket fingerprint q r now).2 id
    rcases enqueueTicket_cases fingerprint q r now with
      ⟨e, heq⟩ | ⟨recoveryId, ticketId, heq, hnew, -⟩
    · rw [heq]
      exact hclosed
    · rw [heq]
      refine closed_set hclosed ?_
      rintro rfl
      rw [show (newTicket r recoveryId ticketId now).ticketId = ticketId from rfl, hnew] at ht₀
      cases ht₀
  | markRunning ticketId currentTick now =>
    change Closed (q.markRunning ticketId currentTick now).2 id
    rcases markRunning_cases h.filed ticketId currentTick now with
      ⟨e, heq⟩ | ⟨t, ht, hqueued, heq⟩
    · rw [heq]
      exact hclosed
    · rw [heq]
      refine closed_set hclosed ?_
      rintro rfl
      -- The ticket would be queued and terminal.
      obtain rfl := Option.some.inj (ht.symm.trans ht₀)
      rw [hqueued] at hterminal
      cases hterminal
  | markCompleted ticketId currentTick result now =>
    change Closed (q.markCompleted ticketId currentTick result now).2 id
    unfold RuntimeRecoveryQueue.markCompleted
    rcases mark_cases h.filed ticketId _ with ⟨e, -, heq⟩ | ⟨t, -, -, heq⟩
    · rw [heq]
      exact hclosed
    · rw [heq]
      exact closed_set hclosed fun _ => rfl
  | markFailed ticketId currentTick error nextRunTick now =>
    change Closed (q.markFailed ticketId currentTick error (nextRunTick.getD currentTick) now).2 id
    unfold RuntimeRecoveryQueue.markFailed
    rcases mark_cases h.filed ticketId _ with ⟨e, -, heq⟩ | ⟨t, hget, ht, heq⟩
    · rw [heq]
      exact hclosed
    · rw [heq]
      refine closed_set hclosed ?_
      rintro rfl
      obtain rfl := Option.some.inj (ht.symm.trans ht₀)
      have hexhausted : t.maxAttempts ≤ t.attempt := by
        by_contra hleft
        exact hc ⟨t, hget, hterminal, by omega⟩
      change terminal (if t.maxAttempts ≤ t.attempt then .escalated else .queued) = true
      rw [if_pos hexhausted]
      rfl
  | markEscalated ticketId currentTick reason handoff now =>
    change Closed (markEscalatedWith q ticketId currentTick reason handoff now).2 id
    unfold markEscalatedWith
    rcases mark_cases h.filed ticketId _ with ⟨e, -, heq⟩ | ⟨t, -, -, heq⟩
    · rw [heq]
      exact hclosed
    · rw [heq]
      exact closed_set hclosed fun _ => rfl

/-- A late failure report queues the ticket again. -/
theorem reopened (h : Kept q) {c : QueueCall} (hc : Reopens q c) :
    ∃ id, Closed q id ∧ ¬Closed ((ticketQueue fingerprint).step q c).2 id := by
  cases c with
  | markFailed ticketId currentTick error nextRunTick now =>
    obtain ⟨t, hget, hterminal, hleft⟩ := hc
    have ht := RuntimeRecoveryQueue.getTicket_ok hget
    obtain ⟨hown, -⟩ := h.filed _ t ht
    refine ⟨t.ticketId, ⟨t, hown ▸ ht, hterminal⟩, ?_⟩
    change ¬Closed (q.markFailed ticketId currentTick error (nextRunTick.getD currentTick) now).2 _
    unfold RuntimeRecoveryQueue.markFailed RuntimeRecoveryQueue.mark
    rw [hget]
    rintro ⟨t', ht', hclosed⟩
    rw [get?_setTicket, if_pos rfl] at ht'
    cases ht'
    change terminal (if t.maxAttempts ≤ t.attempt then .escalated else .queued) = true at hclosed
    rw [if_neg (by omega)] at hclosed
    cases hclosed
  | _ => exact hc.elim

theorem closed_run {calls : List QueueCall} (h : Kept q)
    (hcalls : (ticketQueue fingerprint).Guarded (fun q c => ¬Reopens q c) q calls)
    (hclosed : Closed q id) : Closed ((ticketQueue fingerprint).run q calls) id := by
  induction calls generalizing q with
  | nil => exact hclosed
  | cons c calls ih => exact ih (kept_step h c) hcalls.2 (closed_step h hcalls.1 hclosed)

variable (fingerprint) in
/-- Through the calls, a ticket that is terminal stays so. -/
def StaysFinal (calls : List QueueCall) : Prop :=
  ∀ before after, before ++ after <+: calls → ∀ id,
    Closed ((ticketQueue fingerprint).run noTickets before) id →
      Closed ((ticketQueue fingerprint).run noTickets (before ++ after)) id

variable (fingerprint) in
/-- After any of the calls, no ticket has had more attempts than it may have. -/
def StaysBounded (calls : List QueueCall) : Prop :=
  ∀ before, before <+: calls → ∀ id t,
    ((ticketQueue fingerprint).run noTickets before).tickets.get? id = some t →
      (t.attempt : ℤ) ≤ t.maxAttempts

theorem kept_run (fingerprint : Val → String) (calls : List QueueCall) :
    Kept ((ticketQueue fingerprint).run noTickets calls) :=
  @Machine.run_invariant _ _ _ (ticketQueue fingerprint) Kept (fun _ c h => kept_step h c) _ calls
    kept_noTickets

theorem final_iff_no_reopening (fingerprint : Val → String) (calls : List QueueCall) :
    (StaysFinal fingerprint calls ∧ StaysBounded fingerprint calls) ↔
      (ticketQueue fingerprint).Guarded (fun q c => ¬Reopens q c) noTickets calls := by
  constructor
  · rintro ⟨hfinal, -⟩
    rw [Machine.guarded_iff_prefix]
    intro before c hprefix hreopens
    obtain ⟨id, hclosed, hopen⟩ := @reopened fingerprint _ (kept_run fingerprint before) c hreopens
    have hstill := hfinal before [c] hprefix id hclosed
    rw [Machine.run_snoc] at hstill
    exact hopen hstill
  · intro hcalls
    constructor
    · rintro before after ⟨rest, rfl⟩ id hclosed
      obtain ⟨-, hafter⟩ := Machine.guarded_append.mp (Machine.guarded_append.mp hcalls).1
      rw [Machine.run_append]
      exact closed_run (kept_run fingerprint before) hafter hclosed
    · intro before _ id t ht
      exact ((kept_run fingerprint before).bounded id t ht).1

/-! A ticket that was completed on its first attempt is queued again by a late failure report. -/

def lateReport : List QueueCall :=
  [.enqueue { recoveryId := "recovery", ticketId := some "ticket" } "now",
    .markRunning "ticket" 0 "now", .markCompleted "ticket" 0 .none "now",
    .markFailed "ticket" 1 .none none "now"]

theorem late_report_reopens :
    ¬(StaysFinal (fun _ => "") lateReport ∧ StaysBounded (fun _ => "") lateReport) := by
  rintro ⟨hfinal, -⟩
  obtain ⟨t, ht, hterminal⟩ := hfinal (lateReport.take 3) (lateReport.drop 3)
    (List.take_append_drop 3 lateReport ▸ List.prefix_rfl) "ticket" ⟨_, rfl, rfl⟩
  cases ht
  cases hterminal

end Recovery
end ZeroRuntime
