import ZeroRuntime.Recovery.Attempts

/-!
# ZeroRuntime.Recovery.Stranded

Whether a ticket that is not terminal can be run again.

* `Recoverable`: whatever is not terminal is ready from its next tick on.
* A ticket that stays `running` is stranded: `mark_running` refuses it, and nothing puts it back.
  That happens exactly when its run is cut short between the save that marks it and the next save,
  by the process or by an exception that nobody catches: `runEnding` is `stuck`.
* `recoverable_iff_not_stranding`: the queue is recoverable after every call of a run if and only
  if no call of it strands a ticket.
-/

namespace ZeroRuntime
namespace Recovery

open Lib Goals Fabric

/-- Every ticket that is not terminal is ready from its next tick on. -/
def Recoverable (q : RuntimeRecoveryQueue) : Prop :=
  ∀ id t, q.tickets.get? id = some t → terminal t.status = false →
    ∀ currentTick, t.nextRunTick ≤ currentTick →
      ∃ enough : ℤ, ∀ limit, enough ≤ limit → t ∈ q.peekReady currentTick limit

/-- One of the ready tickets is left running. -/
def Stranding (w : World) : Call → Prop
  | .consume currentTick limit s => Strands s currentTick (w.queue.peekReady currentTick limit)
  | _ => False

theorem status_cases (status : TicketStatus) :
    terminal status = false ↔ status = .queued ∨ status = .running := by
  cases status <;> simp [terminal]

/-- What can be run again is what is not running. -/
theorem recoverable_iff_none_running {q : RuntimeRecoveryQueue} :
    Recoverable q ↔ ∀ id t, q.tickets.get? id = some t → t.status ≠ .running := by
  constructor
  · intro h id t ht hrunning
    obtain ⟨enough, hready⟩ := h id t ht ((status_cases _).mpr (.inr hrunning)) t.nextRunTick
      (Int.le_refl _)
    have hqueued := (RuntimeRecoveryQueue.mem_peekReady (hready enough (Int.le_refl _))).2
    rw [hrunning] at hqueued
    cases hqueued
  · intro h id t ht hopen currentTick hdue
    have hqueued := ((status_cases _).mp hopen).resolve_right (h id t ht)
    have hmem : t ∈ RuntimeRecoveryQueue.sortTickets
        (q.tickets.values.filter (RuntimeRecoveryQueue.isReady currentTick)) := by
      refine (sortTickets_perm _).mem_iff.mpr
        (List.mem_filter.mpr ⟨Dict.mem_values.mpr ⟨id, ht⟩, ?_⟩)
      unfold RuntimeRecoveryQueue.isReady
      rw [hqueued, Bool.and_eq_true]
      exact ⟨rfl, decide_eq_true hdue⟩
    refine ⟨((RuntimeRecoveryQueue.sortTickets
      (q.tickets.values.filter (RuntimeRecoveryQueue.isReady currentTick))).length : ℤ),
      fun limit hlimit => ?_⟩
    unfold RuntimeRecoveryQueue.peekReady
    rw [List.take_of_length_le (by omega)]
    exact hmem

variable {o : RuntimeRecoveryOrchestrator}

theorem recoverable_current {log log' : List Event} (h : NoNewRunning log log')
    (hlog : Recoverable (current log)) : Recoverable (current log') :=
  recoverable_iff_none_running.mpr fun id t ht hrunning =>
    recoverable_iff_none_running.mp hlog id t (h id t ht hrunning) hrunning

theorem recoverable_step (fingerprint : Val → String) {w : World} (h : Followed o w)
    (hqueue : Recoverable w.queue) {c : Call} (hc : ¬Stranding w c) :
    Recoverable ((orchestration fingerprint o).step w c).2.queue := by
  have hnext := followed_step fingerprint h c
  rw [hnext.queue]
  rw [h.queue] at hqueue
  cases c with
  | submit incident currentTick priority maxAttempts link now =>
    refine recoverable_current ?_ hqueue
    have hsubmit := along_submitIncident fingerprint o h.traced incident currentTick priority
      maxAttempts link now
    rw [← h.queue] at hsubmit
    cases hresult : (submitIncident fingerprint o w.queue incident currentTick priority maxAttempts
        link now).result with
    | ok a => exact hsubmit.done a hresult
    | error e => exact hsubmit.raised e hresult
  | consume currentTick limit s =>
    refine recoverable_current ?_ hqueue
    have hconsume := along_consumeReady o s currentTick limit h.traced
    rw [← h.queue] at hconsume
    cases hresult : (consumeReady o s currentTick limit w.queue).result with
    | ok a => exact (hconsume.done a hresult).2
    | error e => exact ((hconsume.raised e hresult).resolve_left fun hs => hc hs.1).2
  | restart => exact hqueue

theorem not_recoverable_step (fingerprint : Val → String) {w : World} (h : Followed o w)
    {c : Call} (hc : Stranding w c) :
    ¬Recoverable ((orchestration fingerprint o).step w c).2.queue := by
  have hnext := followed_step fingerprint h c
  rw [hnext.queue, recoverable_iff_none_running]
  cases c with
  | submit => exact hc.elim
  | consume currentTick limit s =>
    have hconsume := along_consumeReady o s currentTick limit h.traced
    rw [← h.queue] at hconsume
    intro hall
    cases hresult : (consumeReady o s currentTick limit w.queue).result with
    | ok a => exact (hconsume.done a hresult).1 hc
    | error e =>
      rcases hconsume.raised e hresult with ⟨-, id, t, ht, hrunning⟩ | ⟨hnot, -⟩
      · exact hall id t ht hrunning
      · exact hnot hc
  | restart => exact hc.elim

theorem recoverable_start : Recoverable ({} : World).queue :=
  recoverable_iff_none_running.mpr fun _ _ ht => by cases ht

theorem recoverable_iff_not_stranding (fingerprint : Val → String)
    (o : RuntimeRecoveryOrchestrator) (calls : List Call) :
    (∀ before, before <+: calls →
        Recoverable ((orchestration fingerprint o).run {} before).queue) ↔
      (orchestration fingerprint o).Guarded (fun w c => ¬Stranding w c) {} calls := by
  constructor
  · intro h
    rw [Machine.guarded_iff_prefix]
    intro before c hprefix hstrands
    have hafter := h (before ++ [c]) hprefix
    rw [Machine.run_snoc] at hafter
    exact not_recoverable_step fingerprint (followed_run fingerprint o before) hstrands hafter
  · rintro h before ⟨after, rfl⟩
    have hstep : ∀ w c, Followed o w ∧ Recoverable w.queue → ¬Stranding w c →
        Followed o ((orchestration fingerprint o).step w c).2 ∧
          Recoverable ((orchestration fingerprint o).step w c).2.queue := fun _ c hw hc =>
      ⟨followed_step fingerprint hw.1 c, recoverable_step fingerprint hw.1 hw.2 hc⟩
    exact ((Machine.guarded_append.mp h).1.invariant hstep
      ⟨followed_start o, recoverable_start⟩).2

/-! The lineage graph raises after a run that succeeded: its ticket is never ready again. -/

def linkRaises : List Call :=
  [.submit [("recovery_id", .str "recovery")] 0 100 none none "now",
    .consume 0 1 { now := "now", runner := fun _ => .returns (.dict [])
                   link := fun _ => some .osError }]

theorem ticket_stranded :
    ¬∀ before, before <+: linkRaises →
      Recoverable ((orchestration (fun _ => "") {}).run {} before).queue := by
  intro h
  have hnone := recoverable_iff_none_running.mp (h linkRaises List.prefix_rfl)
  exact hnone "recovery-ticket-" _ rfl rfl

end Recovery
end ZeroRuntime
