import ZeroRuntime.Recovery.Orchestrator

/-!
# ZeroRuntime.Recovery.Attempts

How often, when, and for how long the runner of a recovery ticket is invoked.

* `Move` lists what one event can do to the queue, after the events before it; `Traced` is a log of
  such events. `traced_runTicket` and `traced_orchestration`: the calls of the orchestrator, however
  they end, only make such logs.
* `Progress` is the invariant of one ticket, with the ticks of its invocations.
* `attempts_bounded`: at most as many invocations as attempts, none before the next tick of the
  ticket, each far enough from the one before, and none once the ticket is completed or escalated.
-/

namespace ZeroRuntime
namespace Recovery

open Lib Goals Fabric

def ticks (id : String) (log : List Event) : List ℤ :=
  log.filterMap fun
    | .saved _ => none
    | .invoked t currentTick => if t.ticketId = id then some currentTick else none

/-- The ticks that must lie between invocation `k` of a ticket and the next one. -/
def gap (o : RuntimeRecoveryOrchestrator) (k : ℕ) : ℤ :=
  max (o.delayForAttempt k) o.cooldownTicks

/-- Consecutive ticks, counted from one, are as far from each other as `gap` says. -/
def Spaced (gap : ℕ → ℤ) (ts : List ℤ) : Prop :=
  ∀ k a b, ts[k]? = some a → ts[k + 1]? = some b → a + gap (k + 1) ≤ b

def current (log : List Event) : RuntimeRecoveryQueue := lastSaved noTickets log

/-! ## Logs -/

theorem lastSaved_append (q : RuntimeRecoveryQueue) (es es' : List Event) :
    lastSaved q (es ++ es') = lastSaved (lastSaved q es) es' := by
  induction es generalizing q with
  | nil => rfl
  | cons e es ih =>
    cases e with
    | saved q' => exact ih q'
    | invoked t currentTick => exact ih q

@[simp] theorem current_saved (log : List Event) (q : RuntimeRecoveryQueue) :
    current (log ++ [.saved q]) = q := lastSaved_append ..

@[simp] theorem current_invoked (log : List Event) (t : RuntimeRecoveryTicket) (currentTick : ℤ) :
    current (log ++ [.invoked t currentTick]) = current log := lastSaved_append ..

@[simp] theorem ticks_saved (id : String) (log : List Event) (q : RuntimeRecoveryQueue) :
    ticks id (log ++ [.saved q]) = ticks id log := by
  unfold ticks
  rw [List.filterMap_append]
  exact List.append_nil _

theorem ticks_invoked (id : String) (log : List Event) (t : RuntimeRecoveryTicket)
    (currentTick : ℤ) :
    ticks id (log ++ [.invoked t currentTick]) =
      if t.ticketId = id then ticks id log ++ [currentTick] else ticks id log := by
  unfold ticks
  rw [List.filterMap_append]
  by_cases hid : t.ticketId = id
  · rw [if_pos hid]
    simp only [List.filterMap_cons, if_pos hid, List.filterMap_nil]
  · rw [if_neg hid]
    simp only [List.filterMap_cons, if_neg hid, List.filterMap_nil, List.append_nil]

theorem spaced_nil (gap : ℕ → ℤ) : Spaced gap [] := by
  intro k a b ha
  cases ha

theorem spaced_snoc {gap : ℕ → ℤ} {ts : List ℤ} {b : ℤ} (h : Spaced gap ts)
    (hb : ∀ a, ts.getLast? = some a → a + gap ts.length ≤ b) : Spaced gap (ts ++ [b]) := by
  intro k a b' ha hb'
  rw [List.getElem?_append] at ha hb'
  split at hb'
  · rename_i hk
    rw [if_pos (by omega)] at ha
    exact h k a b' ha hb'
  · rename_i hk
    obtain ⟨hlt, hb'⟩ := List.getElem?_eq_some_iff.mp hb'
    rw [List.length_singleton] at hlt
    have hlength : ts.length = k + 1 := by omega
    rw [if_pos (by omega)] at ha
    rw [List.getElem_singleton] at hb'
    subst hb'
    rw [← hlength]
    refine hb a ?_
    rw [List.getLast?_eq_getElem?, hlength]
    exact ha

/-! ## The moves -/

/-- What an event can do after a log. -/
inductive Move (o : RuntimeRecoveryOrchestrator) (log : List Event) : Event → Prop
  | submitted {t : RuntimeRecoveryTicket}
      (hnew : (current log).tickets.get? t.ticketId = none)
      (hid : Text.strip t.ticketId = t.ticketId ∧ t.ticketId ≠ "")
      (hstatus : t.status = .queued) (hattempt : t.attempt = 0)
      (hmax : 0 < t.maxAttempts) : Move o log (.saved ((current log).setTicket t))
  | started {t : RuntimeRecoveryTicket} {currentTick : ℤ} {now : String}
      (ht : (current log).tickets.get? t.ticketId = some t) (hstatus : t.status = .queued)
      (hdue : t.nextRunTick ≤ currentTick) :
      Move o log (.saved ((current log).setTicket (RuntimeRecoveryQueue.started t currentTick now)))
  | invoked {t : RuntimeRecoveryTicket} {currentTick : ℤ}
      (ht : (current log).tickets.get? t.ticketId = some t) (hstatus : t.status = .running)
      (hdue : t.nextRunTick ≤ currentTick) (hattempt : (ticks t.ticketId log).length < t.attempt) :
      Move o log (.invoked t currentTick)
  | retried {t t' : RuntimeRecoveryTicket} {currentTick : ℤ}
      (ht : (current log).tickets.get? t.ticketId = some t)
      (hlast : (ticks t.ticketId log).getLast? = some currentTick)
      (hlength : (ticks t.ticketId log).length = t.attempt)
      (hleft : (t.attempt : ℤ) < t.maxAttempts) (hid : t'.ticketId = t.ticketId)
      (hattempt : t'.attempt = t.attempt) (hmax : t'.maxAttempts = t.maxAttempts)
      (hstatus : t.status = .running) (hqueued : t'.status = .queued)
      (hnext : t'.nextRunTick = o.nextRetryTick t currentTick) :
      Move o log (.saved ((current log).setTicket t'))
  | ended {t t' : RuntimeRecoveryTicket}
      (ht : (current log).tickets.get? t.ticketId = some t) (hstatus : t.status ≠ .queued)
      (hid : t'.ticketId = t.ticketId) (hattempt : t'.attempt = t.attempt)
      (hmax : t'.maxAttempts = t.maxAttempts)
      (hended : t'.status = .completed ∨ t'.status = .escalated) :
      Move o log (.saved ((current log).setTicket t'))

inductive Traced (o : RuntimeRecoveryOrchestrator) : List Event → Prop
  | nil : Traced o []
  | snoc {log : List Event} {e : Event} (h : Traced o log) (hmove : Move o log e) :
      Traced o (log ++ [e])

/-! ## Progress of a ticket -/

/-- The ticket has had the attempts made at `ts`. -/
structure Progress (o : RuntimeRecoveryOrchestrator) (t : RuntimeRecoveryTicket) (ts : List ℤ) :
    Prop where
  counted : ts.length ≤ t.attempt
  started : t.attempt ≤ ts.length + 1
  bounded : (t.attempt : ℤ) ≤ t.maxAttempts
  spaced : Spaced (gap o) ts
  queued : t.status = .queued → ts.length = t.attempt ∧ (t.attempt : ℤ) < t.maxAttempts
  due : t.status = .queued ∨ t.status = .running ∧ ts.length < t.attempt →
    ∀ a, ts.getLast? = some a → a + gap o ts.length ≤ t.nextRunTick

structure Good (o : RuntimeRecoveryOrchestrator) (log : List Event) : Prop where
  filed : (current log).Filed
  fresh : ∀ id, (current log).tickets.get? id = none → ticks id log = []
  progress : ∀ id t, (current log).tickets.get? id = some t → Progress o t (ticks id log)

variable {o : RuntimeRecoveryOrchestrator} {log : List Event}

theorem good_nil : Good o [] :=
  ⟨kept_noTickets.filed, fun _ _ => rfl, fun _ _ h => by cases h⟩

variable {t : RuntimeRecoveryTicket}

/-- A save of one ticket. -/
theorem Good.saved (h : Good o log) (hid : Text.strip t.ticketId = t.ticketId ∧ t.ticketId ≠ "")
    (hprogress : Progress o t (ticks t.ticketId log)) :
    Good o (log ++ [.saved ((current log).setTicket t)]) := by
  refine ⟨?_, fun id hnone => ?_, fun id t' ht' => ?_⟩
  · rw [current_saved]
    intro id t' ht'
    rw [get?_setTicket] at ht'
    split at ht'
    · rename_i hown
      cases ht'
      exact ⟨hown.symm, hown ▸ hid⟩
    · exact h.filed id t' ht'
  · rw [current_saved, get?_setTicket] at hnone
    rw [ticks_saved]
    split at hnone
    · cases hnone
    · exact h.fresh id hnone
  · rw [current_saved, get?_setTicket] at ht'
    rw [ticks_saved]
    split at ht'
    · rename_i hown
      cases ht'
      rw [hown]
      exact hprogress
    · exact h.progress id t' ht'

theorem Good.id (h : Good o log) (ht : (current log).tickets.get? t.ticketId = some t) :
    Text.strip t.ticketId = t.ticketId ∧ t.ticketId ≠ "" := (h.filed _ t ht).2

/-- The next tick after a failed attempt leaves the gap that the attempt asks for. -/
theorem gap_le_nextRetryTick (o : RuntimeRecoveryOrchestrator) (t : RuntimeRecoveryTicket)
    (currentTick : ℤ) : currentTick + gap o t.attempt ≤ o.nextRetryTick t currentTick := by
  unfold gap RuntimeRecoveryOrchestrator.nextRetryTick
  omega

variable {e : Event}

theorem good_move (h : Good o log) (hmove : Move o log e) : Good o (log ++ [e]) := by
  cases hmove with
  | submitted hnew hid hstatus hattempt hmax =>
    refine h.saved hid ?_
    rw [h.fresh _ hnew]
    refine ⟨Nat.zero_le _, by omega, by omega, spaced_nil _,
      fun _ => ⟨hattempt.symm, by omega⟩, ?_⟩
    intro _ a ha
    cases ha
  | @started t currentTick now ht hstatus hdue =>
    have hp := h.progress _ t ht
    obtain ⟨hlength, hleft⟩ := hp.queued hstatus
    have hid := h.id ht
    refine h.saved hid ⟨?_, ?_, ?_, hp.spaced, fun hne => (by cases hne), fun _ => ?_⟩
    · change (ticks t.ticketId log).length ≤ t.attempt + 1
      omega
    · change t.attempt + 1 ≤ (ticks t.ticketId log).length + 1
      omega
    · change ((t.attempt + 1 : ℕ) : ℤ) ≤ t.maxAttempts
      omega
    · exact hp.due (.inl hstatus)
  | @invoked t currentTick ht hstatus hdue hattempt =>
    have hp := h.progress _ t ht
    refine ⟨?_, fun id hnone => ?_, fun id t' ht' => ?_⟩
    · rw [current_invoked]
      exact h.filed
    · rw [current_invoked] at hnone
      rw [ticks_invoked, if_neg]
      · exact h.fresh id hnone
      · rintro rfl
        rw [ht] at hnone
        cases hnone
    · rw [current_invoked] at ht'
      rw [ticks_invoked]
      split
      · rename_i hid
        subst hid
        rw [ht] at ht'
        cases ht'
        have hlength : (ticks t.ticketId log ++ [currentTick]).length = t.attempt := by
          have hstarted := hp.started
          rw [List.length_append, List.length_singleton]
          omega
        refine ⟨le_of_eq hlength, by omega, hp.bounded, ?_, fun hqueued => ?_, ?_⟩
        · refine spaced_snoc hp.spaced fun a ha => ?_
          have hspace := hp.due (.inr ⟨hstatus, hattempt⟩) a ha
          omega
        · rw [hstatus] at hqueued
          cases hqueued
        · rintro (hqueued | ⟨-, hlt⟩)
          · rw [hstatus] at hqueued
            cases hqueued
          · omega
      · exact h.progress id t' ht'
  | @retried t t' currentTick ht hlast hlength hleft hid hattempt hmax hstatus hqueued hnext =>
    have hp := h.progress _ t ht
    refine h.saved (by rw [hid]; exact h.id ht) ?_
    rw [hid]
    refine ⟨by omega, by omega, by omega, hp.spaced, fun _ => ⟨by omega, by omega⟩,
      fun _ a ha => ?_⟩
    rw [hlast] at ha
    cases ha
    rw [hlength, hnext]
    exact gap_le_nextRetryTick o t currentTick
  | @ended t t' ht hstatus hid hattempt hmax hended =>
    have hp := h.progress _ t ht
    refine h.saved (by rw [hid]; exact h.id ht) ?_
    rw [hid]
    obtain ⟨hcounted, hstarted, hbounded, hspaced, -, -⟩ := hp
    refine ⟨by omega, by omega, by omega, hspaced, ?_, ?_⟩
    · intro hqueued
      rcases hended with hended | hended <;> (rw [hqueued] at hended; cases hended)
    · rintro (hqueued | ⟨hrunning, -⟩)
      · rcases hended with hended | hended <;> (rw [hqueued] at hended; cases hended)
      · rcases hended with hended | hended <;> (rw [hrunning] at hended; cases hended)

theorem Traced.good (h : Traced o log) : Good o log := by
  induction h with
  | nil => exact good_nil
  | snoc _ hmove ih => exact good_move ih hmove

/-! ## The calls -/

open RuntimeRecoveryQueue (started)

/-- Only the ticket with this id is changed. -/
def Elsewhere (id : String) (log log' : List Event) : Prop :=
  ∀ id', id' ≠ id → (current log').tickets.get? id' = (current log).tickets.get? id'

/-- The ticket with this id is there, in a status that has `P`; the others are unchanged. -/
def Leaves (P : TicketStatus → Prop) (id : String) (log log' : List Event) : Prop :=
  Elsewhere id log log' ∧ ∃ t, (current log').tickets.get? id = some t ∧ P t.status

theorem Elsewhere.refl (id : String) (log : List Event) : Elsewhere id log log := fun _ _ => rfl

variable {id : String} {log' : List Event}

theorem Elsewhere.trans {log log'' : List Event} (h : Elsewhere id log log')
    (h' : Elsewhere id log' log'') : Elsewhere id log log'' :=
  fun id' hne => (h' id' hne).trans (h id' hne)

theorem Leaves.after {P : TicketStatus → Prop} {log log'' : List Event} (h : Elsewhere id log log')
    (h' : Leaves P id log' log'') : Leaves P id log log'' :=
  ⟨h.trans h'.1, h'.2⟩

theorem elsewhere_saved (log : List Event) (t : RuntimeRecoveryTicket) :
    Elsewhere t.ticketId log (log ++ [.saved ((current log).setTicket t)]) := by
  intro id hne
  rw [current_saved, get?_setTicket, if_neg hne]

theorem elsewhere_invoked (id : String) (log : List Event) (t : RuntimeRecoveryTicket)
    (currentTick : ℤ) : Elsewhere id log (log ++ [.invoked t currentTick]) := by
  intro id' _
  rw [current_invoked]

theorem get?_saved (log : List Event) (t : RuntimeRecoveryTicket) :
    (current (log ++ [.saved ((current log).setTicket t)])).tickets.get? t.ticketId = some t := by
  rw [current_saved, get?_setTicket, if_pos rfl]

theorem leaves_saved {P : TicketStatus → Prop} (log : List Event) {t : RuntimeRecoveryTicket}
    (h : P t.status) : Leaves P t.ticketId log (log ++ [.saved ((current log).setTicket t)]) :=
  ⟨elsewhere_saved log t, t, get?_saved log t, h⟩

variable {q : RuntimeRecoveryQueue}

variable {T R : List Event → Prop}

theorem along_save {Q : RuntimeRecoveryTicket × RuntimeRecoveryQueue → List Event → Prop}
    (hT : T log) (hsaved : T (log ++ [.saved q])) (hQ : Q (t, q) (log ++ [.saved q])) :
    Logged.Along T log (save (.ok t, q)) Q R := by
  refine Logged.Along.bind (S := fun _ log' => log' = log ++ [.saved q])
    (.write hT hsaved rfl) ?_
  rintro _ _ - rfl
  exact .pure hsaved hQ

theorem along_proceed {e : Option Err} {Q : Unit → List Event → Prop} (hT : T log)
    (hQ : e = none → Q () log) (hR : e.isSome → R log) : Logged.Along T log (proceed e) Q R := by
  cases e with
  | none => exact .pure hT (hQ rfl)
  | some e => exact .raise hT (hR rfl)

theorem mark_filed (h : q.Filed) (ht : q.tickets.get? t.ticketId = some t)
    (f : RuntimeRecoveryTicket → RuntimeRecoveryTicket) :
    q.mark t.ticketId f = (.ok (f t), q.setTicket (f t)) := by
  unfold RuntimeRecoveryQueue.mark
  rw [h.getTicket ht]

/-! ## How the run of a ticket ends -/

/-- The run of a ticket leaves it running, or ends the call later, or comes to a result. -/
inductive Ending where
  | stuck | raises | finishes
deriving DecidableEq

section Endings

variable (s : Surroundings)

def stopEnding (stops : Option Err) : Ending := if stops.isNone then .finishes else .raises

/-- The supervisor or the lineage graph may end the call at an escalation. -/
def escalationEnding (id : String) : Ending :=
  match s.escalate id with
  | .ok _ => stopEnding (s.linkEscalated id)
  | .error _ => .raises

def failEnding (running : RuntimeRecoveryTicket) : Ending :=
  if running.maxAttempts ≤ running.attempt then escalationEnding s running.ticketId
  else stopEnding (s.stopsAfter running.ticketId)

def settleEnding (running : RuntimeRecoveryTicket) (result : Entries) : Ending :=
  if (s.link running.ticketId).isSome then .stuck
  else if needsReview result then escalationEnding s running.ticketId
  else if hasFailed result then failEnding s running
  else stopEnding (s.stopsAfter running.ticketId)

def answerEnding (running : RuntimeRecoveryTicket) : Ending :=
  match s.runner running with
  | .raises _ _ => failEnding s running
  | .escapes _ => .stuck
  | .returns v => settleEnding s running (RuntimeRecoveryOrchestrator.normalizeResult v)

def runEnding (running : RuntimeRecoveryTicket) : Ending :=
  if (s.stopsBefore running.ticketId).isSome then .stuck else answerEnding s running

end Endings

/-- The program ends as `ending` says, and leaves the ticket with this id in such a status. -/
def Comes {α : Type} (o : RuntimeRecoveryOrchestrator) (ending : Ending) (id : String)
    (log : List Event) (m : Logged Event (α × RuntimeRecoveryQueue)) : Prop :=
  Logged.Along (Traced o) log m
    (fun a log' => a.2 = current log' ∧ ending = .finishes ∧ Leaves (· ≠ .running) id log log')
    fun log' => ending = .raises ∧ Leaves (· ≠ .running) id log log' ∨
      ending = .stuck ∧ Leaves (· = .running) id log log'

/-- The same after earlier events. -/
theorem Comes.after {α : Type} {ending : Ending} {m : Logged Event (α × RuntimeRecoveryQueue)}
    (h : Elsewhere id log log') (hm : Comes o ending id log' m) :
    Logged.Along (Traced o) log' m
      (fun a log'' => a.2 = current log'' ∧ ending = .finishes ∧
        Leaves (· ≠ .running) id log log'')
      fun log'' => ending = .raises ∧ Leaves (· ≠ .running) id log log'' ∨
        ending = .stuck ∧ Leaves (· = .running) id log log'' :=
  hm.conseq (fun _ _ ⟨hq, hending, hleaves⟩ => ⟨hq, hending, hleaves.after h⟩)
    fun _ hends => hends.imp (fun ⟨hending, hleaves⟩ => ⟨hending, hleaves.after h⟩)
      fun ⟨hending, hleaves⟩ => ⟨hending, hleaves.after h⟩

/-- The last save of a run, after which only a stop can end the call. -/
theorem comes_last {α : Type} (h : Traced o log) (hid : t.ticketId = id)
    (hq : q = (current log).setTicket t) (hmove : Move o log (.saved q))
    (hstatus : t.status ≠ .running) {stops : Option Err}
    {rest : RuntimeRecoveryTicket × RuntimeRecoveryQueue →
      Logged Event (α × RuntimeRecoveryQueue)} {a : α}
    (hrest : rest (t, q) = proceed stops >>= fun _ => pure (a, q)) :
    Comes o (stopEnding stops) id log (save (.ok t, q) >>= rest) := by
  subst hq hid
  have hsaved := h.snoc hmove
  have hleaves := @leaves_saved (· ≠ .running) log t hstatus
  refine Logged.Along.bind (S := fun r log' => r = (t, (current log).setTicket t) ∧
    log' = log ++ [.saved ((current log).setTicket t)]) (along_save h hsaved ⟨rfl, rfl⟩) ?_
  rintro _ _ - ⟨rfl, rfl⟩
  rw [hrest]
  refine Logged.Along.bind (S := fun _ log' => log' = log ++ [.saved
    ((current log).setTicket t)] ∧ stops = none)
    (along_proceed hsaved (fun hnone => ⟨rfl, hnone⟩) fun hsome => .inl ⟨?_, hleaves⟩) ?_
  · obtain ⟨e, rfl⟩ := Option.isSome_iff_exists.mp hsome
    rfl
  · rintro _ _ - ⟨rfl, rfl⟩
    exact .pure hsaved ⟨(current_saved _ _).symm, rfl, hleaves⟩

theorem comes_escalate (s : Surroundings) (currentTick : ℤ) (reason : String)
    (recoveryResult : Entries) (h : Traced o log) {ticket : RuntimeRecoveryTicket}
    (ht : (current log).tickets.get? ticket.ticketId = some ticket)
    (hstatus : ticket.status = .escalated) :
    Comes o (escalationEnding s ticket.ticketId) ticket.ticketId log
      (escalateTicket s currentTick (current log) ticket reason recoveryResult) := by
  unfold escalationEnding escalateTicket
  cases hhandoff : s.escalate ticket.ticketId with
  | error e =>
    refine .raise h (.inl ⟨rfl, .refl _ _, ticket, ht, ?_⟩)
    rw [hstatus]
    exact fun hne => by cases hne
  | ok handoff =>
    rw [Logged.ofExcept_bind_ok]
    unfold markEscalatedWith
    rw [mark_filed h.good.filed ht]
    have hqueued : ticket.status ≠ .queued := by
      rw [hstatus]
      exact fun hne => by cases hne
    -- The ticket is escalated again, with the handoff.
    let escalated : RuntimeRecoveryTicket :=
      { ticket with
        status := .escalated, updatedTick := currentTick, updatedAt := s.now
        metadata := Val.put "supervisor_handoff" (.dict handoff)
          (Val.put "escalation_reason" (.str reason) ticket.metadata) }
    have hescalated : TicketStatus.escalated ≠ .running := fun hne => by cases hne
    exact comes_last (t := escalated) h rfl rfl (.ended ht hqueued rfl rfl rfl (.inr rfl))
      hescalated rfl

/-- The runner has just been invoked for the ticket. -/
structure Attempted (log : List Event) (currentTick : ℤ) (t : RuntimeRecoveryTicket) : Prop where
  ticket : (current log).tickets.get? t.ticketId = some t
  status : t.status = .running
  last : (ticks t.ticketId log).getLast? = some currentTick
  length : (ticks t.ticketId log).length = t.attempt

variable {currentTick : ℤ} {running : RuntimeRecoveryTicket}

theorem comes_fail (o : RuntimeRecoveryOrchestrator) (s : Surroundings) (h : Traced o log)
    (hattempted : Attempted log currentTick running) (error : Val) (recoveryResult : Entries)
    (message : String) :
    Comes o (failEnding s running) running.ticketId log
      (failTicket o s currentTick (current log) running error recoveryResult message) := by
  obtain ⟨ht, hstatus, hlast, hlength⟩ := hattempted
  unfold failEnding failTicket RuntimeRecoveryQueue.markFailed
  rw [mark_filed h.good.filed ht]
  by_cases hexhausted : running.maxAttempts ≤ running.attempt
  · rw [if_pos hexhausted]
    simp only [if_pos hexhausted]
    let failed : RuntimeRecoveryTicket :=
      { running with
        status := .escalated, nextRunTick := o.nextRetryTick running currentTick
        updatedTick := currentTick, updatedAt := s.now
        metadata := Val.put "last_error" error running.metadata }
    have hqueued : running.status ≠ .queued := by
      rw [hstatus]
      exact fun hne => by cases hne
    have hsaved : Traced o (log ++ [.saved ((current log).setTicket failed)]) :=
      h.snoc (.ended ht hqueued rfl rfl rfl (.inr rfl))
    refine Logged.Along.bind (S := fun r log' => r = (failed, (current log).setTicket failed) ∧
      log' = log ++ [.saved ((current log).setTicket failed)]) (along_save h hsaved ⟨rfl, rfl⟩) ?_
    rintro _ _ - ⟨rfl, rfl⟩
    have hescalate := comes_escalate s currentTick "recovery retry depth exhausted" recoveryResult
      hsaved (get?_saved log failed) rfl
    rw [current_saved] at hescalate
    exact Comes.after (elsewhere_saved log failed) hescalate
  · rw [if_neg hexhausted]
    simp only [if_neg hexhausted]
    let failed : RuntimeRecoveryTicket :=
      { running with
        status := .queued, nextRunTick := o.nextRetryTick running currentTick
        updatedTick := currentTick, updatedAt := s.now
        metadata := Val.put "last_error" error running.metadata }
    have hwaiting : TicketStatus.queued ≠ .running := fun hne => by cases hne
    exact comes_last (t := failed) h rfl rfl
      (.retried ht hlast hlength (by omega) rfl rfl rfl hstatus rfl rfl) hwaiting rfl

theorem comes_settle (o : RuntimeRecoveryOrchestrator) (s : Surroundings) (h : Traced o log)
    (hattempted : Attempted log currentTick running) (result : Entries) :
    Comes o (settleEnding s running result) running.ticketId log
      (settleTicket o s currentTick (current log) running result) := by
  have ht := hattempted.ticket
  have hstatus := hattempted.status
  have hqueued : running.status ≠ .queued := by
    rw [hstatus]
    exact fun hne => by cases hne
  unfold settleEnding settleTicket
  cases hlink : s.link running.ticketId with
  | some e => exact .raise h (.inr ⟨rfl, .refl _ _, running, ht, hstatus⟩)
  | none =>
    change Comes o (if needsReview result then _ else _) _ _ (if needsReview result then _ else _)
    by_cases hreview : needsReview result = true
    · rw [if_pos hreview, if_pos hreview]
      unfold markEscalatedWith
      rw [mark_filed h.good.filed ht]
      let escalated : RuntimeRecoveryTicket :=
        { running with
          status := .escalated, updatedTick := currentTick, updatedAt := s.now
          metadata := Val.put "escalation_reason" (.str "recovery requires supervisor review")
            running.metadata }
      have hsaved : Traced o (log ++ [.saved ((current log).setTicket escalated)]) :=
        h.snoc (.ended ht hqueued rfl rfl rfl (.inr rfl))
      refine Logged.Along.bind (S := fun r log' =>
        r = (escalated, (current log).setTicket escalated) ∧
          log' = log ++ [.saved ((current log).setTicket escalated)])
        (along_save h hsaved ⟨rfl, rfl⟩) ?_
      rintro _ _ - ⟨rfl, rfl⟩
      have hescalate := comes_escalate s currentTick "recovery requires supervisor review" result
        hsaved (get?_saved log escalated) rfl
      rw [current_saved] at hescalate
      exact Comes.after (elsewhere_saved log escalated) hescalate
    · rw [if_neg hreview, if_neg hreview]
      by_cases hfailed : hasFailed result = true
      · rw [if_pos hfailed, if_pos hfailed]
        exact comes_fail o s h hattempted _ _ _
      · rw [if_neg hfailed, if_neg hfailed]
        unfold RuntimeRecoveryQueue.markCompleted
        rw [mark_filed h.good.filed ht]
        let completed : RuntimeRecoveryTicket :=
          { running with
            status := .completed, updatedTick := currentTick, updatedAt := s.now
            metadata := Val.put "last_result" (.dict result) running.metadata }
        have hcompleted : TicketStatus.completed ≠ .running := fun hne => by cases hne
        exact comes_last (t := completed) h rfl rfl (.ended ht hqueued rfl rfl rfl (.inl rfl))
          hcompleted rfl

theorem comes_answer (o : RuntimeRecoveryOrchestrator) (s : Surroundings) (h : Traced o log)
    (hattempted : Attempted log currentTick running) :
    Comes o (answerEnding s running) running.ticketId log
      (answerTicket o s currentTick (current log) running) := by
  unfold answerEnding answerTicket
  cases s.runner running with
  | raises kind message => exact comes_fail o s h hattempted _ _ _
  | escapes e =>
    exact .raise h (.inr ⟨rfl, .refl _ _, running, hattempted.ticket, hattempted.status⟩)
  | returns v => exact comes_settle o s h hattempted _

theorem comes_run (o : RuntimeRecoveryOrchestrator) (s : Surroundings) (h : Traced o log)
    (ht : (current log).tickets.get? t.ticketId = some t) (hqueued : t.status = .queued)
    (hdue : t.nextRunTick ≤ currentTick) :
    Comes o (runEnding s (started t currentTick s.now)) t.ticketId log
      (runTicket o s currentTick (current log) t.ticketId) := by
  unfold runEnding runTicket
  rw [RuntimeRecoveryQueue.markRunning_queued h.good.filed ht hqueued]
  have hstarted : Traced o (log ++ [.saved ((current log).setTicket
      (started t currentTick s.now))]) := h.snoc (.started ht hqueued hdue)
  have hrunning := get?_saved log (started t currentTick s.now)
  have helsewhere := elsewhere_saved log (started t currentTick s.now)
  generalize hlog₁ : log ++ [.saved ((current log).setTicket (started t currentTick s.now))] = log₁
    at hstarted hrunning helsewhere
  refine Logged.Along.bind (S := fun r log' =>
    r = (started t currentTick s.now, (current log).setTicket (started t currentTick s.now)) ∧
      log₁ = log') (along_save h (hlog₁ ▸ hstarted) ⟨rfl, hlog₁.symm⟩) ?_
  rintro _ _ - ⟨rfl, rfl⟩
  have hqueue : (current log).setTicket (started t currentTick s.now) = current log₁ := by
    rw [← hlog₁, current_saved]
  refine Logged.Along.bind (S := fun _ log' => log₁ = log' ∧
    s.stopsBefore (started t currentTick s.now).ticketId = none)
    (along_proceed hstarted (fun hnone => ⟨rfl, hnone⟩) fun hsome => .inr ⟨if_pos hsome,
      helsewhere, _, hrunning, rfl⟩) ?_
  rintro _ _ - ⟨rfl, hgo⟩
  rw [if_neg (by rw [hgo]; exact Bool.false_ne_true)]
  -- The runner is invoked once more than before the ticket was started.
  obtain ⟨hlength, -⟩ := (h.good.progress _ t ht).queued hqueued
  have hticks : ticks t.ticketId log₁ = ticks t.ticketId log := by
    rw [← hlog₁, ticks_saved]
  have hinvoked : Traced o (log₁ ++ [.invoked (started t currentTick s.now) currentTick]) := by
    refine hstarted.snoc (.invoked hrunning rfl hdue ?_)
    change (ticks t.ticketId log₁).length < t.attempt + 1
    rw [hticks]
    omega
  refine Logged.Along.bind (S := fun _ log' =>
    log' = log₁ ++ [.invoked (started t currentTick s.now) currentTick])
    (.write hstarted hinvoked rfl) ?_
  rintro _ _ - rfl
  have hattempted : Attempted (log₁ ++ [.invoked (started t currentTick s.now) currentTick])
      currentTick (started t currentTick s.now) := by
    have hnow : ticks t.ticketId
        (log₁ ++ [.invoked (started t currentTick s.now) currentTick]) =
          ticks t.ticketId log ++ [currentTick] := by
      rw [ticks_invoked, hticks]
      exact if_pos rfl
    refine ⟨(current_invoked ..).symm ▸ hrunning, rfl, ?_, ?_⟩
    · change (ticks t.ticketId _).getLast? = _
      rw [hnow, List.getLast?_concat]
    · change (ticks t.ticketId _).length = t.attempt + 1
      rw [hnow, List.length_append, hlength]
      rfl
  have hanswer := comes_answer o s hinvoked hattempted
  rw [current_invoked] at hanswer
  rw [hqueue]
  exact Comes.after (helsewhere.trans (elsewhere_invoked _ _ _ _)) hanswer

/-- The run of one of the tickets leaves it running, after those before it came to a result. -/
def Strands (s : Surroundings) (currentTick : ℤ) : List RuntimeRecoveryTicket → Prop
  | [] => False
  | t :: ts =>
    match runEnding s (started t currentTick s.now) with
    | .stuck => True
    | .raises => False
    | .finishes => Strands s currentTick ts

/-- A ticket that is running was running before. -/
def NoNewRunning (log log' : List Event) : Prop :=
  ∀ id t, (current log').tickets.get? id = some t → t.status = .running →
    (current log).tickets.get? id = some t

def SomeRunning (log : List Event) : Prop :=
  ∃ id t, (current log).tickets.get? id = some t ∧ t.status = .running

theorem Leaves.noNewRunning (h : Leaves (· ≠ .running) id log log') : NoNewRunning log log' := by
  intro id' t ht hrunning
  obtain ⟨helse, t', ht', hnot⟩ := h
  by_cases hid : id' = id
  · rw [hid, ht'] at ht
    cases ht
    exact absurd hrunning hnot
  · rw [← helse id' hid]
    exact ht

/-- Ready tickets of the queue, each with its own id. -/
structure Ready (log : List Event) (currentTick : ℤ) (ts : List RuntimeRecoveryTicket) : Prop where
  ids : (ts.map RuntimeRecoveryTicket.ticketId).Nodup
  mem : ∀ t ∈ ts, (current log).tickets.get? t.ticketId = some t
  queued : ∀ t ∈ ts, t.status = .queued ∧ t.nextRunTick ≤ currentTick

theorem Ready.tail {currentTick : ℤ} {t : RuntimeRecoveryTicket}
    {ts : List RuntimeRecoveryTicket} {log' : List Event} (h : Ready log currentTick (t :: ts))
    (helse : Elsewhere t.ticketId log log') : Ready log' currentTick ts := by
  obtain ⟨hids, hmem, hqueued⟩ := h
  obtain ⟨hnot, hids⟩ := List.nodup_cons.mp hids
  refine ⟨hids, fun t' ht' => ?_, fun t' ht' => hqueued t' (List.mem_cons_of_mem t ht')⟩
  rw [helse t'.ticketId]
  · exact hmem t' (List.mem_cons_of_mem t ht')
  · rintro hid
    exact hnot (hid ▸ List.mem_map_of_mem ht')

theorem along_runTickets (o : RuntimeRecoveryOrchestrator) (s : Surroundings)
    {ts : List RuntimeRecoveryTicket} (h : Traced o log) (hready : Ready log currentTick ts) :
    Logged.Along (Traced o) log (runTickets o s currentTick ts (current log))
      (fun a log' => a.2 = current log' ∧ ¬Strands s currentTick ts ∧ NoNewRunning log log')
      fun log' => Strands s currentTick ts ∧ SomeRunning log' ∨
        ¬Strands s currentTick ts ∧ NoNewRunning log log' := by
  induction ts generalizing log with
  | nil => exact .pure h ⟨rfl, id, fun _ _ ht _ => ht⟩
  | cons t ts ih =>
    have ht := hready.mem t List.mem_cons_self
    obtain ⟨hqueued, hdue⟩ := hready.queued t List.mem_cons_self
    unfold runTickets Strands
    refine Logged.Along.bind ((comes_run o s h ht hqueued hdue).conseq (fun _ _ hr => hr) ?_) ?_
    · rintro log' (⟨hending, hleaves⟩ | ⟨hending, hleaves⟩)
      · rw [hending]
        exact .inr ⟨id, hleaves.noNewRunning⟩
      · rw [hending]
        obtain ⟨-, t', ht', hrunning⟩ := hleaves
        exact .inl ⟨trivial, _, t', ht', hrunning⟩
    · rintro ⟨result, q⟩ log' h' ⟨rfl, hending, hleaves⟩
      rw [hending]
      have hnone := hleaves.noNewRunning
      refine Logged.Along.bind (S := fun a log'' => a.2 = current log'' ∧
        ¬Strands s currentTick ts ∧ NoNewRunning log log'')
        ((ih h' (hready.tail hleaves.1)).conseq ?_ ?_) ?_
      · rintro _ log'' ⟨hq, hstrands, hlater⟩
        exact ⟨hq, hstrands, fun id t' ht' hrunning =>
          hnone id t' (hlater id t' ht' hrunning) hrunning⟩
      · rintro log'' (hstuck | ⟨hstrands, hlater⟩)
        · exact .inl hstuck
        · exact .inr ⟨hstrands, fun id t' ht' hrunning =>
            hnone id t' (hlater id t' ht' hrunning) hrunning⟩
      · rintro ⟨results, q⟩ log'' h'' hends
        exact .pure h'' hends

/-! ## What is ready -/

theorem insertTicket_perm (t : RuntimeRecoveryTicket) (ts : List RuntimeRecoveryTicket) :
    (RuntimeRecoveryQueue.insertTicket t ts).Perm (t :: ts) := by
  induction ts with
  | nil => exact .refl _
  | cons x xs ih =>
    unfold RuntimeRecoveryQueue.insertTicket
    split
    · exact .refl _
    · exact (ih.cons x).trans (.swap t x xs)

theorem sortTickets_perm (ts : List RuntimeRecoveryTicket) :
    (RuntimeRecoveryQueue.sortTickets ts).Perm ts := by
  induction ts with
  | nil => exact .refl _
  | cons t ts ih => exact (insertTicket_perm t _).trans (ih.cons t)

/-- The tickets of a queue have the keys they are filed under. -/
theorem ids_values (h : q.Filed) :
    q.tickets.values.map RuntimeRecoveryTicket.ticketId = q.tickets.keys := by
  unfold Dict.values Dict.keys
  rw [List.map_map]
  refine List.map_congr_left fun e he => ?_
  exact (h e.1 e.2 (Dict.mem_entries.mp he)).1

theorem ready_peekReady (h : (current log).Filed) (currentTick limit : ℤ) :
    Ready log currentTick ((current log).peekReady currentTick limit) := by
  have hmem : ∀ t ∈ (current log).peekReady currentTick limit,
      t ∈ (current log).tickets.values ∧ RuntimeRecoveryQueue.isReady currentTick t = true := by
    intro t ht
    exact List.mem_filter.mp ((sortTickets_perm _).mem_iff.mp (List.mem_of_mem_take ht))
  refine ⟨?_, fun t ht => ?_, fun t ht => ?_⟩
  · have hnodup : ((current log).tickets.values.map RuntimeRecoveryTicket.ticketId).Nodup := by
      rw [ids_values h]
      exact (current log).tickets.nodup
    have hperm := sortTickets_perm
      ((current log).tickets.values.filter (RuntimeRecoveryQueue.isReady currentTick))
    have hsorted := (hperm.map RuntimeRecoveryTicket.ticketId).nodup_iff.mpr
      (hnodup.sublist (List.filter_sublist.map _))
    exact hsorted.sublist ((List.take_sublist _ _).map _)
  · obtain ⟨id, hid⟩ := Dict.mem_values.mp (hmem t ht).1
    rw [(h id t hid).1]
    exact hid
  · have hready := (hmem t ht).2
    simp only [RuntimeRecoveryQueue.isReady, Bool.and_eq_true, decide_eq_true_eq] at hready
    exact hready

theorem along_consumeReady (o : RuntimeRecoveryOrchestrator) (s : Surroundings)
    (currentTick limit : ℤ) (h : Traced o log) :
    Logged.Along (Traced o) log (consumeReady o s currentTick limit (current log))
      (fun _ log' => ¬Strands s currentTick ((current log).peekReady currentTick limit) ∧
        NoNewRunning log log')
      fun log' =>
        Strands s currentTick ((current log).peekReady currentTick limit) ∧ SomeRunning log' ∨
          ¬Strands s currentTick ((current log).peekReady currentTick limit) ∧
            NoNewRunning log log' :=
  (along_runTickets o s h (ready_peekReady h.good.filed currentTick limit)).conseq
    (fun _ _ hdone => hdone.2) fun _ hends => hends

theorem along_submitIncident (fingerprint : Val → String) (o : RuntimeRecoveryOrchestrator)
    (h : Traced o log) (incident : Entries) (currentTick priority : ℤ) (maxAttempts : Option ℤ)
    (link : Option Err) (now : String) :
    Logged.Along (Traced o) log
      (submitIncident fingerprint o (current log) incident currentTick priority maxAttempts link now)
      (fun _ log' => NoNewRunning log log') fun log' => NoNewRunning log log' := by
  have hsame : NoNewRunning log log := fun _ _ ht _ => ht
  refine Logged.Along.bind (S := fun _ log' => log = log')
    (.ofExcept h (fun _ _ => rfl) fun _ _ => hsame) ?_
  rintro request _ - rfl
  rcases enqueueTicket_cases fingerprint (current log) request now with
    ⟨e, heq⟩ | ⟨recoveryId, ticketId, heq, hnew, hid⟩
  · rw [heq]
    exact .raise h hsame
  · rw [heq]
    have hone : 1 ≤ max 1 request.maxAttempts := Int.le_max_left 1 request.maxAttempts
    have hmax : 0 < (newTicket request recoveryId ticketId now).maxAttempts := by
      change 0 < max 1 request.maxAttempts
      omega
    have hsaved := h.snoc (.submitted (t := newTicket request recoveryId ticketId now) hnew hid rfl
      rfl hmax)
    have hqueued : (newTicket request recoveryId ticketId now).status ≠ .running :=
      fun hne => by cases hne
    have hleaves := (leaves_saved (P := (· ≠ .running)) log hqueued).noNewRunning
    refine Logged.Along.bind (S := fun _ log' => log' = log ++ [.saved ((current log).setTicket
      (newTicket request recoveryId ticketId now))]) (along_save h hsaved rfl) ?_
    rintro _ _ - rfl
    refine Logged.Along.bind (S := fun _ log' => log' = log ++ [.saved ((current log).setTicket
      (newTicket request recoveryId ticketId now))])
      (along_proceed hsaved (fun _ => rfl) fun _ => hleaves) ?_
    rintro _ _ - rfl
    exact .pure hsaved hleaves

/-- A file with the tickets of a queue is loaded as that queue. -/
theorem load_stored (h : q.Filed) : load (stored q) = q := by
  have hids : ∀ t ∈ stored q, t.ticketId ≠ "" := by
    intro t ht
    obtain ⟨id, hid⟩ := Dict.mem_values.mp ht
    obtain ⟨hown, -, hne⟩ := h id t hid
    exact hown ▸ hne
  have hfold : ∀ (ts : List RuntimeRecoveryTicket) (q₀ : RuntimeRecoveryQueue),
      (∀ t ∈ ts, t.ticketId ≠ "") →
      (ts.foldl (fun q t => if t.ticketId = "" then q else q.setTicket t) q₀).tickets =
        ts.foldl (fun d t => d.set t.ticketId t) q₀.tickets := by
    intro ts
    induction ts with
    | nil => exact fun _ _ => rfl
    | cons t ts ih =>
      intro q₀ hne
      rw [List.foldl_cons, List.foldl_cons, if_neg (hne t List.mem_cons_self)]
      exact ih _ fun t' ht' => hne t' (List.mem_cons_of_mem t ht')
  have htickets : (load (stored q)).tickets = q.tickets := by
    refine (hfold _ _ hids).trans (Dict.ext_entries ?_)
    rw [Dict.entries_foldl_set]
    · change [] ++ _ = _
      unfold stored Dict.values
      rw [List.nil_append, List.map_map]
      refine (List.map_congr_left fun e he => ?_).trans (List.map_id _)
      exact Prod.ext (h e.1 e.2 (Dict.mem_entries.mp he)).1 rfl
    · rw [stored, ids_values h]
      exact q.tickets.nodup
    · exact fun t _ => List.not_mem_nil
  cases hload : load (stored q) with
  | mk tickets =>
    rw [hload] at htickets
    cases q
    cases htickets
    rfl

/-! ## Whole runs -/

/-- The queue is the one last saved, and only moves were made. -/
structure Followed (o : RuntimeRecoveryOrchestrator) (w : World) : Prop where
  queue : w.queue = current w.events
  traced : Traced o w.events

theorem followed_start (o : RuntimeRecoveryOrchestrator) : Followed o {} := ⟨rfl, .nil⟩

theorem Followed.happen {w : World} {es : List Event} (h : Followed o w)
    (hes : Traced o (w.events ++ es)) : Followed o (w.happen es) := by
  refine ⟨?_, hes⟩
  change lastSaved w.queue es = lastSaved noTickets (w.events ++ es)
  rw [lastSaved_append, h.queue]
  rfl

theorem followed_step (fingerprint : Val → String) {w : World} (h : Followed o w) (c : Call) :
    Followed o ((orchestration fingerprint o).step w c).2 := by
  cases c with
  | submit incident currentTick priority maxAttempts link now =>
    refine h.happen ?_
    rw [h.queue]
    exact (along_submitIncident fingerprint o h.traced incident currentTick priority maxAttempts
      link now).last
  | consume currentTick limit s =>
    refine h.happen ?_
    rw [h.queue]
    exact (along_consumeReady o s currentTick limit h.traced).last
  | restart =>
    have hfiled : w.queue.Filed := h.queue ▸ h.traced.good.filed
    refine ⟨?_, h.traced⟩
    exact (load_stored hfiled).trans h.queue

theorem followed_run (fingerprint : Val → String) (o : RuntimeRecoveryOrchestrator)
    (calls : List Call) : Followed o ((orchestration fingerprint o).run {} calls) :=
  @Machine.run_invariant _ _ _ (orchestration fingerprint o) (Followed o)
    (fun _ c h => followed_step fingerprint h c) _ calls (followed_start o)

theorem Traced.last (h : Traced o (log ++ [e])) : Traced o log ∧ Move o log e := by
  generalize hlog : log ++ [e] = log' at h
  cases h with
  | nil => exact absurd hlog (by simp)
  | snoc h' hmove =>
    obtain ⟨rfl, he⟩ := List.append_inj' hlog rfl
    cases he
    exact ⟨h', hmove⟩

theorem Traced.before (h : Traced o (log ++ log')) : Traced o log := by
  induction log' using List.reverseRecOn with
  | nil => rwa [List.append_nil] at h
  | append_singleton es e ih =>
    rw [← List.append_assoc] at h
    exact ih h.last.1

/-- A move keeps terminal tickets terminal. -/
theorem closed_move (hmove : Move o log e) (h : Closed (current log) id) :
    Closed (current (log ++ [e])) id := by
  cases hmove with
  | submitted hnew =>
    rw [current_saved]
    refine closed_set h ?_
    rintro rfl
    obtain ⟨t, ht, -⟩ := h
    rw [hnew] at ht
    cases ht
  | @started t currentTick now ht hstatus =>
    rw [current_saved]
    refine closed_set h ?_
    rintro rfl
    obtain ⟨t', ht', hclosed⟩ := h
    obtain rfl := Option.some.inj (ht.symm.trans ht')
    rw [hstatus] at hclosed
    cases hclosed
  | invoked =>
    rw [current_invoked]
    exact h
  | @retried t t' currentTick ht hlast hlength hleft hid hattempt hmax hstatus =>
    rw [current_saved]
    refine closed_set h ?_
    rintro rfl
    obtain ⟨t₀, ht₀, hclosed⟩ := h
    rw [hid] at ht₀
    obtain rfl := Option.some.inj (ht.symm.trans ht₀)
    rw [hstatus] at hclosed
    cases hclosed
  | @ended t t' ht hstatus hid hattempt hmax hended =>
    rw [current_saved]
    refine closed_set h fun _ => ?_
    rcases hended with hended | hended <;> (rw [hended]; rfl)

theorem Traced.closed (h : Traced o log) (hq : .saved q ∈ log) (hclosed : Closed q id) :
    Closed (current log) id := by
  induction h with
  | nil => cases hq
  | snoc h hmove ih =>
    rcases List.mem_append.mp hq with hq | hq
    · exact closed_move hmove (ih hq)
    · obtain rfl := List.mem_singleton.mp hq
      rw [current_saved]
      exact hclosed

/-- Neither restarts nor calls that end early change this, and the ticks may be any. -/
theorem attempts_bounded (fingerprint : Val → String) (o : RuntimeRecoveryOrchestrator)
    (calls : List Call) :
    let w := (orchestration fingerprint o).run {} calls
    (∀ id t, w.queue.tickets.get? id = some t →
        ((ticks id w.events).length : ℤ) ≤ t.maxAttempts) ∧
      (∀ id, Spaced (gap o) (ticks id w.events)) ∧
      ∀ before t currentTick after, w.events = before ++ .invoked t currentTick :: after →
        (current before).tickets.get? t.ticketId = some t ∧ t.nextRunTick ≤ currentTick ∧
          ∀ q, .saved q ∈ before → ∀ t', q.tickets.get? t.ticketId = some t' →
            t'.status ≠ .completed ∧ t'.status ≠ .escalated := by
  intro w
  have hfollowed : Followed o w := followed_run fingerprint o calls
  have hgood := hfollowed.traced.good
  refine ⟨fun id t ht => ?_, fun id => ?_, fun before t currentTick after hevents => ?_⟩
  · rw [hfollowed.queue] at ht
    obtain ⟨hcounted, -, hbounded, -, -, -⟩ := hgood.progress id t ht
    omega
  · cases ht : (current w.events).tickets.get? id with
    | none =>
      rw [hgood.fresh id ht]
      exact spaced_nil _
    | some t => exact (hgood.progress id t ht).spaced
  · have htraced := hfollowed.traced
    rw [hevents, List.append_cons] at htraced
    obtain ⟨hbefore, hmove⟩ := htraced.before.last
    cases hmove with
    | invoked ht hstatus hdue =>
      refine ⟨ht, hdue, fun q hq t' ht' => ?_⟩
      have hopen : ¬Closed q t.ticketId := by
        intro hclosed
        obtain ⟨t₁, ht₁, hterminal⟩ := hbefore.closed hq hclosed
        obtain rfl := Option.some.inj (ht.symm.trans ht₁)
        rw [hstatus] at hterminal
        cases hterminal
      constructor <;> (intro hended; exact hopen ⟨t', ht', by rw [hended]; rfl⟩)

end Recovery
end ZeroRuntime
