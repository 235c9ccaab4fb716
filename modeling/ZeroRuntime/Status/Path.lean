import ZeroRuntime.Status.StateMachine

/-!
# ZeroRuntime.Status.Path

What a task's status and history do over a run of the state machine.

* `transition_cases`: status and history after a call, on each of its three branches. The updates
  of the caller are read last, or last but one.
* `StepLaw` is what one call should keep, `Lawful` what a run should: the statuses are a path in
  the allowed transitions, the history grows at its end, and its last entry names the status.
* `statuses_lawful_iff_careful`: a run is lawful if and only if the updates of its calls write no
  status and no history but those the call would leave.
-/

namespace ZeroRuntime
namespace Status

open Lib RuntimeStatus

/-! ## Reading updates -/

/-- What the updates hold for a key. -/
def named (updates : Entries) (k : String) : Option Val := Val.find k updates.reverse

theorem find_update (k : String) (updates state : Entries) :
    Val.find k (update state updates) = (named updates k).or (Val.find k state) := by
  induction updates generalizing state with
  | nil => rfl
  | cons e updates ih =>
    obtain ⟨k', v⟩ := e
    change Val.find k (update (Val.put k' v state) updates) = _
    rw [ih, Val.find_put, named, named, List.reverse_cons, Val.find_append, Option.or_assoc]
    congr 1
    by_cases h : k = k' <;> simp [Val.find, h]

/-- The value a key has after the updates, when it was `v` before. -/
def written (updates : Entries) (k : String) (v : Val) : Val := (named updates k).getD v

theorem getIn_update (k : String) (updates state : Entries) :
    Val.getIn k (update state updates) = written updates k (Val.getIn k state) := by
  unfold Val.getIn written
  rw [find_update]
  cases named updates k <;> rfl

/-! ## One call -/

variable {now : String} {s : Entries}

theorem getIn_ensure_status :
    Val.getIn "status" (ensureRuntimeStatusFields now s) = .str (statusOf s).value := by
  unfold ensureRuntimeStatusFields
  dsimp only
  split <;> simp

theorem getIn_ensure_history :
    Val.getIn "runtime_status_history" (ensureRuntimeStatusFields now s) =
      .list (openedHistory now s) := by
  unfold ensureRuntimeStatusFields
  dsimp only
  split <;> simp

theorem statusOf_ensure : statusOf (ensureRuntimeStatusFields now s) = statusOf s := by
  rw [statusOf, getIn_ensure_status, canonicalizeStatus_value]

/-- The stamps touch no other field. -/
theorem getIn_stamps {k : String} {t : RuntimeStatus} (hlast : k ≠ "last_status_change_at")
    (hfield : ∀ field, timestampField t = some field → k ≠ field) :
    Val.getIn k (applyStatusTimestamps now s t) = Val.getIn k s := by
  unfold applyStatusTimestamps
  cases h : timestampField t with
  | none => simp [hlast]
  | some field => simp [hlast, hfield field h]

theorem not_stamp {k : String} (hk : k = "status" ∨ k = "runtime_status_history")
    (t : RuntimeStatus) :
    k ≠ "last_status_change_at" ∧ ∀ field, timestampField t = some field → k ≠ field := by
  rcases hk with rfl | rfl <;> refine ⟨by decide, ?_⟩ <;>
    cases t <;> rintro field ⟨⟩ <;> decide

/-- The entry a move leaves in the history. -/
def movedRecord (now : String) (s : Entries) (r : Request) : Val :=
  let target := canonicalizeStatus r.newStatus
  buildHistoryRecord now (statusOf s).value target.value (r.reason.orElse (.str ""))
    (r.message.orElse (.str ((statusOf s).value ++ " -> " ++ target.value)))

/-- Status and history after a call: it leaves the state alone, refuses, or moves. -/
theorem transition_cases (now : String) (s : Entries) (r : Request) :
    let s' := (transition now s r).2
    let target := canonicalizeStatus r.newStatus
    ((statusOf s = target ∧ r.allowNoop = true) ∧
      Val.getIn "status" s' = written r.extraUpdates "status" (.str (statusOf s).value) ∧
      Val.getIn "runtime_status_history" s' =
        written r.extraUpdates "runtime_status_history" (.list (openedHistory now s))) ∨
    (canTransition (statusOf s) target = false ∧
      Val.getIn "status" s' = .str (statusOf s).value ∧
      Val.getIn "runtime_status_history" s' = .list (openedHistory now s)) ∨
    (¬(statusOf s = target ∧ r.allowNoop = true) ∧ canTransition (statusOf s) target = true ∧
      Val.getIn "status" s' = written r.extraUpdates "status" (.str target.value) ∧
      Val.getIn "runtime_status_history" s' =
        .list (listed (written r.extraUpdates "runtime_status_history"
          (.list (openedHistory now s))) ++ [movedRecord now s r])) := by
  dsimp only
  unfold transition
  dsimp only
  rw [statusOf_ensure]
  by_cases hnoop : statusOf s = canonicalizeStatus r.newStatus ∧ r.allowNoop = true
  · rw [if_pos hnoop]
    refine .inl ⟨hnoop, ?_, ?_⟩
    · rw [getIn_update, getIn_ensure_status]
    · rw [getIn_update, getIn_ensure_history]
  rw [if_neg hnoop]
  cases hcan : canTransition (statusOf s) (canonicalizeStatus r.newStatus) with
  | false =>
    rw [if_pos (by rfl)]
    exact .inr (.inl ⟨rfl, getIn_ensure_status, getIn_ensure_history⟩)
  | true =>
    rw [if_neg (by simp)]
    refine .inr (.inr ⟨hnoop, rfl, ?_, ?_⟩)
    · obtain ⟨hlast, hfield⟩ := not_stamp (.inl rfl) (canonicalizeStatus r.newStatus)
      rw [appendHistory, Val.getIn_put, if_neg (by decide), getIn_stamps hlast hfield, getIn_update,
        Val.getIn_put, if_pos rfl]
    · obtain ⟨hlast, hfield⟩ := not_stamp (.inr rfl) (canonicalizeStatus r.newStatus)
      rw [appendHistory, Val.getIn_put, if_pos rfl, historyOf, getIn_stamps hlast hfield,
        getIn_update, Val.getIn_put, if_neg (by decide), getIn_ensure_history]
      rfl

/-! ## The law -/

/-- The last entry of the history names the status. -/
def EndsIn (history : List Val) (st : RuntimeStatus) : Prop :=
  ∃ entry, history.getLast? = some (.dict entry) ∧
    Val.getIn "new_status" entry = .str st.value

/-- Entries are only appended. -/
def Extends (s s' : Entries) : Prop := historyOf s <+: historyOf s'

theorem Extends.trans {s s' s'' : Entries} (h : Extends s s') (h' : Extends s' s'') :
    Extends s s'' :=
  List.IsPrefix.trans h h'

/-- What a call should keep. -/
structure StepLaw (s s' : Entries) : Prop where
  stored : Val.getIn "status" s' = .str (statusOf s').value
  moves : statusOf s' = statusOf s ∨ statusOf s' ∈ (statusOf s).allowed
  last : EndsIn (historyOf s') (statusOf s')
  appended : Extends s s'

/-- What a run should keep, from the state `s`. -/
structure Lawful (s : Entries) (calls : List Call) : Prop where
  stored : ∀ before c, before ++ [c] <+: calls →
    Val.getIn "status" (runtimeStateMachine.run s (before ++ [c])) =
      .str (statusOf (runtimeStateMachine.run s (before ++ [c]))).value
  path : ∀ before c, before ++ [c] <+: calls →
    statusOf (runtimeStateMachine.run s (before ++ [c])) =
        statusOf (runtimeStateMachine.run s before) ∨
      statusOf (runtimeStateMachine.run s (before ++ [c])) ∈
        (statusOf (runtimeStateMachine.run s before)).allowed
  terminal : ∀ before after, before <+: after → after <+: calls →
    (statusOf (runtimeStateMachine.run s before)).terminal = true →
    statusOf (runtimeStateMachine.run s after) = statusOf (runtimeStateMachine.run s before)
  last : ∀ before c, before ++ [c] <+: calls →
    EndsIn (historyOf (runtimeStateMachine.run s (before ++ [c])))
      (statusOf (runtimeStateMachine.run s (before ++ [c])))
  appended : ∀ before after, before <+: after → after <+: calls →
    Extends (runtimeStateMachine.run s before) (runtimeStateMachine.run s after)

variable {st : RuntimeStatus}

theorem allowed_terminal (h : st.terminal = true) : st.allowed = [] := by
  cases st <;> first | rfl | cases h

/-- A terminal status is not left. -/
def Stays (s s' : Entries) : Prop := (statusOf s).terminal = true → statusOf s' = statusOf s

theorem Stays.trans {s s' s'' : Entries} (h : Stays s s') (h' : Stays s' s'') : Stays s s'' := by
  intro hterminal
  have hsame := h hterminal
  rw [← hsame] at hterminal ⊢
  exact h' hterminal

theorem StepLaw.stays {s s' : Entries} (h : StepLaw s s') : Stays s s' := by
  intro hterminal
  rcases h.moves with hsame | hmoved
  · exact hsame
  · rw [allowed_terminal hterminal] at hmoved
    cases hmoved

/-- What every step of a run keeps of the state before it, later states keep. -/
theorem kept_between {R : Entries → Entries → Prop} {s : Entries} {calls before after : List Call}
    (hrefl : ∀ s, R s s) (htrans : ∀ {s s' s''}, R s s' → R s' s'' → R s s'')
    (hsteps : runtimeStateMachine.Guarded (fun s c => R s (runtimeStateMachine.step s c).2) s calls)
    (hbefore : before <+: after) (hafter : after <+: calls) :
    R (runtimeStateMachine.run s before) (runtimeStateMachine.run s after) := by
  obtain ⟨between, rfl⟩ := hbefore
  obtain ⟨rest, rfl⟩ := hafter
  have hbetween := (Machine.guarded_append.mp (Machine.guarded_append.mp hsteps).1).2
  rw [Machine.run_append]
  have hstep : ∀ t c, R (runtimeStateMachine.run s before) t →
      R t (runtimeStateMachine.step t c).2 →
      R (runtimeStateMachine.run s before) (runtimeStateMachine.step t c).2 :=
    fun t c hst hnext => htrans hst hnext
  exact hbetween.invariant hstep (hrefl _)

/-- A run is lawful if and only if each of its steps is. -/
theorem lawful_iff_steps {s : Entries} {calls : List Call} :
    Lawful s calls ↔
      runtimeStateMachine.Guarded (fun s c => StepLaw s (runtimeStateMachine.step s c).2) s calls := by
  constructor
  · intro h
    rw [Machine.guarded_iff_prefix]
    intro before c hpre
    have happended := h.appended before (before ++ [c]) (List.prefix_append _ _) hpre
    have hstored := h.stored before c hpre
    have hpath := h.path before c hpre
    have hlast := h.last before c hpre
    rw [Machine.run_snoc] at happended hstored hpath hlast
    exact ⟨hstored, hpath, hlast, happended⟩
  · intro h
    have hstep := Machine.guarded_iff_prefix.mp h
    refine ⟨fun before c hpre => ?_, fun before c hpre => ?_, fun before after hbefore hafter => ?_,
      fun before c hpre => ?_, fun before after hbefore hafter => ?_⟩
    · rw [Machine.run_snoc]
      exact (hstep before c hpre).stored
    · rw [Machine.run_snoc]
      exact (hstep before c hpre).moves
    · have hkept : runtimeStateMachine.Guarded
          (fun s c => Stays s (runtimeStateMachine.step s c).2) s calls :=
        Machine.guarded_iff_prefix.mpr fun before c hpre => (hstep before c hpre).stays
      exact kept_between (R := Stays) (fun s _ => rfl) Stays.trans hkept hbefore hafter
    · rw [Machine.run_snoc]
      exact (hstep before c hpre).last
    · have hkept : runtimeStateMachine.Guarded
          (fun s c => Extends s (runtimeStateMachine.step s c).2) s calls :=
        Machine.guarded_iff_prefix.mpr fun before c hpre => (hstep before c hpre).appended
      exact kept_between (R := Extends) (fun s => List.prefix_refl (historyOf s)) Extends.trans
        hkept hbefore hafter

/-! ## Careful updates -/

/-- The history a call goes on from, with what the updates hold for it. -/
def writtenHistory (now : String) (s : Entries) (r : Request) : List Val :=
  listed (written r.extraUpdates "runtime_status_history" (.list (openedHistory now s)))

/-- The updates leave status and history as the call would. -/
structure Careful (now : String) (s : Entries) (r : Request) : Prop where
  /-- A call that stays where it is writes no status and history but those that go on together. -/
  stays : statusOf s = canonicalizeStatus r.newStatus ∧ r.allowNoop = true →
    ∃ st : RuntimeStatus, written r.extraUpdates "status" (.str (statusOf s).value) = .str st.value ∧
      (st = statusOf s ∨ st ∈ (statusOf s).allowed) ∧ historyOf s <+: writtenHistory now s r ∧
      EndsIn (writtenHistory now s r) st
  /-- A call that moves writes no status but its target. -/
  moves : ¬(statusOf s = canonicalizeStatus r.newStatus ∧ r.allowNoop = true) →
    canTransition (statusOf s) (canonicalizeStatus r.newStatus) = true →
    written r.extraUpdates "status" (.str (canonicalizeStatus r.newStatus).value) =
      .str (canonicalizeStatus r.newStatus).value ∧
    historyOf s <+: writtenHistory now s r ++ [movedRecord now s r]
  /-- A call that is refused finds a history that names the status. -/
  refused : canTransition (statusOf s) (canonicalizeStatus r.newStatus) = false →
    EndsIn (openedHistory now s) (statusOf s)

theorem opened_extends (now : String) (s : Entries) : historyOf s <+: openedHistory now s := by
  unfold openedHistory
  split
  · rename_i hempty
    rw [List.isEmpty_iff.mp hempty]
    exact List.nil_prefix
  · exact List.prefix_refl _

theorem statusOf_eq {s : Entries} (h : Val.getIn "status" s = .str st.value) : statusOf s = st := by
  rw [statusOf, h, canonicalizeStatus_value]

theorem value_injective {st' : RuntimeStatus} (h : (Val.str st.value) = .str st'.value) :
    st = st' := by
  rw [← canonicalizeStatus_value st, h, canonicalizeStatus_value]

theorem endsIn_moved (now : String) (s : Entries) (r : Request) (history : List Val) :
    EndsIn (history ++ [movedRecord now s r]) (canonicalizeStatus r.newStatus) :=
  ⟨_, by rw [List.getLast?_concat]; rfl, rfl⟩

theorem transition_lawful_iff (now : String) (s : Entries) (r : Request) :
    StepLaw s (transition now s r).2 ↔ Careful now s r := by
  rcases transition_cases now s r with ⟨hnoop, hstatus, hhistory⟩ | ⟨hcan, hstatus, hhistory⟩ |
    ⟨hnoop, hcan, hstatus, hhistory⟩
  · have hlisted : historyOf (transition now s r).2 = writtenHistory now s r :=
      congrArg listed hhistory
    constructor
    · rintro ⟨hstored, hmoves, hlast, happended⟩
      rw [Extends, hlisted] at happended
      rw [hlisted] at hlast
      refine ⟨fun _ => ⟨_, hstatus.symm.trans hstored, hmoves, happended, hlast⟩,
        fun hnot => absurd hnoop hnot, fun hcan => ?_⟩
      rw [hnoop.1] at hcan
      simp [canTransition] at hcan
    · intro h
      obtain ⟨st, hwritten, hmoves, happended, hlast⟩ := h.stays hnoop
      have hst := statusOf_eq (hstatus.trans hwritten)
      refine ⟨by rw [hst, hstatus, hwritten], by rw [hst]; exact hmoves, ?_, ?_⟩
      · rw [hst, hlisted]
        exact hlast
      · rw [Extends, hlisted]
        exact happended
  · have hlisted : historyOf (transition now s r).2 = openedHistory now s :=
      congrArg listed hhistory
    have hst := statusOf_eq hstatus
    constructor
    · rintro ⟨-, -, hlast, -⟩
      rw [hst, hlisted] at hlast
      refine ⟨fun hnoop => ?_, fun _ htrue => ?_, fun _ => hlast⟩
      · rw [hnoop.1] at hcan
        simp [canTransition] at hcan
      · rw [hcan] at htrue
        cases htrue
    · intro h
      refine ⟨by rw [hst, hstatus], .inl hst, ?_, ?_⟩
      · rw [hst, hlisted]
        exact h.refused hcan
      · rw [Extends, hlisted]
        exact opened_extends now s
  · have hlisted : historyOf (transition now s r).2 =
        writtenHistory now s r ++ [movedRecord now s r] := congrArg listed hhistory
    constructor
    · rintro ⟨hstored, -, hlast, happended⟩
      -- the last entry is the one the call appended, and it names the target
      have hst : statusOf (transition now s r).2 = canonicalizeStatus r.newStatus := by
        obtain ⟨entry, hentry, hnew⟩ := hlast
        rw [hlisted, List.getLast?_concat] at hentry
        cases hentry
        exact value_injective hnew.symm
      rw [hst] at hstored
      rw [Extends, hlisted] at happended
      refine ⟨fun h => absurd h hnoop, fun _ _ => ⟨hstatus.symm.trans hstored, happended⟩,
        fun hfalse => ?_⟩
      rw [hcan] at hfalse
      cases hfalse
    · intro h
      obtain ⟨hwritten, happended⟩ := h.moves hnoop hcan
      have hst := statusOf_eq (hstatus.trans hwritten)
      refine ⟨by rw [hst, hstatus, hwritten], ?_, ?_, ?_⟩
      · rw [hst]
        simp only [canTransition, Bool.or_eq_true, decide_eq_true_eq] at hcan
        exact hcan.imp Eq.symm id
      · rw [hst, hlisted]
        exact endsIn_moved now s r _
      · rw [Extends, hlisted]
        exact happended

/-- A careful call: a call of the failure policy is judged by what it asks of `transition`. -/
def CarefulCall (s : Entries) : Call → Prop
  | .transition now r => Careful now s r
  | .fromFailurePolicy now action reason nextRetryTick =>
    Careful now s (failurePolicyRequest now s action reason nextRetryTick)

theorem stepLaw_iff_careful (s : Entries) (c : Call) :
    StepLaw s (runtimeStateMachine.step s c).2 ↔ CarefulCall s c := by
  cases c with
  | transition now r => exact transition_lawful_iff now s r
  | fromFailurePolicy now action reason nextRetryTick =>
    exact transition_lawful_iff now s (failurePolicyRequest now s action reason nextRetryTick)

/-- Over any calls from any state, the statuses are a path in the allowed transitions that never
leaves a terminal status, and the history grows at its end and names the status, if and only if
every call is careful. -/
theorem statuses_lawful_iff_careful (s : Entries) (calls : List Call) :
    Lawful s calls ↔ runtimeStateMachine.Guarded CarefulCall s calls :=
  lawful_iff_steps.trans (Machine.guarded_congr stepLaw_iff_careful)

/-- A finished task runs again after a call that asks for no transition at all. -/
theorem finished_reopened :
    ¬Lawful [("status", .str "finished")]
      [.transition "t" { newStatus := .str "finished", extraUpdates := [("status", .str "running")] }] := by
  intro h
  have hsame := h.terminal [] _ List.nil_prefix (List.prefix_refl _) (by decide)
  revert hsame
  decide +kernel

end Status
end ZeroRuntime
