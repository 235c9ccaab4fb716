import ZeroRuntime.RuntimeGate.Model

/-!
# ZeroRuntime.RuntimeGate.Released

What a decided review releases.

* `Released`: of the blockers that the gates see, just those of the review are gone; a terminal status
  stays; the task is dispatched if and only if nothing holds it any more.
* `Releasable` is what the stored state must meet. `leftOver` is what the writer still counts.
-/

namespace ZeroRuntime
namespace RuntimeGate

open Lib

def namedReview (blocker : Entries) : String :=
  orText (Val.getIn "review_id" blocker).text
    (orText (Val.getIn "id" blocker).text (Val.getIn "blocker_id" blocker).text)

/-- A blocker that names no review is taken to be of the one that is decided. -/
def ownedBy (reviewId : String) (blocker : Entries) : Bool :=
  lowered "type" blocker = "review" &&
    (namedReview blocker = Text.strip reviewId || namedReview blocker = "")

/-- The blockers of the others that the writer counts as active. -/
def leftOver (reviewId : String) (state : Entries) : List Entries :=
  (blockersOf (Val.getIn "blockers" state)).filter fun b =>
    !isPendingReviewBlocker reviewId b && writerActive b

structure Released (truncate : String → Except Err ℤ) (reviewId : String) (state state' : Entries) :
    Prop where
  blockers : activeRuntimeGateBlockers (Val.getIn "blockers" state') =
    (activeRuntimeGateBlockers (Val.getIn "blockers" state)).filter fun b => !ownedBy reviewId b
  terminal : lowered "status" state ∈ terminalStatuses →
    Val.getIn "status" state' = Val.getIn "status" state
  dispatch : lowered "status" state ∉ terminalStatuses → lowered "status" state ≠ "paused" →
    ((runtimeDispatchGateDecision truncate (applyRuntimeResumeGate truncate state')).allow = true ↔
      activeRuntimeGateBlockers (Val.getIn "blockers" state') = [])

/-- What is resolved is what the review owns; nothing is left over of a task that is at its end; what is
left over of another one is seen by the gates; and a task without holds is not waiting for a review. -/
structure Releasable (reviewId : String) (state : Entries) : Prop where
  owned : ∀ b ∈ activeRuntimeGateBlockers (Val.getIn "blockers" state),
    isPendingReviewBlocker reviewId b = ownedBy reviewId b
  terminal : lowered "status" state ∈ terminalStatuses → leftOver reviewId state = []
  seen : lowered "status" state ∉ terminalStatuses → lowered "status" state ≠ "paused" →
    leftOver reviewId state ≠ [] → ∃ b ∈ leftOver reviewId state, gateActive b = true
  free : leftOver reviewId state = [] → lowered "status" state ≠ statusReviewRequired

/-! ## The writer -/

section Writer

variable {ofItems : Val → Except Err Entries} {reviewId resolution now : String}
  {state state' : Entries}

/-- What was resolved is active for none of the two. -/
theorem filter_resolved {p : Entries → Bool} (blockers : List Entries)
    (h : ∀ b, isPendingReviewBlocker reviewId b = true →
      p (resolveBlocker reviewId resolution now b) = false) :
    (blockers.map (resolveBlocker reviewId resolution now)).filter p =
      blockers.filter fun b => !isPendingReviewBlocker reviewId b && p b := by
  induction blockers with
  | nil => rfl
  | cons b bs ih =>
    rw [List.map_cons, List.filter_cons, List.filter_cons, ih]
    by_cases hb : isPendingReviewBlocker reviewId b = true
    · rw [h b hb, hb]
      rfl
    · have hsame : resolveBlocker reviewId resolution now b = b := if_neg hb
      rw [hsame, Bool.eq_false_iff.mpr hb]
      rfl

variable {b : Entries}

theorem getIn_status_resolved (hb : isPendingReviewBlocker reviewId b = true) :
    Val.getIn "status" (resolveBlocker reviewId resolution now b) = .str resolution := by
  unfold resolveBlocker
  rw [if_pos hb]
  simp

theorem writer_resolved (hres : resolution = "applied" ∨ resolution = "rejected")
    (hb : isPendingReviewBlocker reviewId b = true) :
    writerActive (resolveBlocker reviewId resolution now b) = false := by
  unfold writerActive lowered
  rw [getIn_status_resolved hb]
  rcases hres with rfl | rfl <;> decide +kernel

theorem gate_resolved (hres : resolution = "applied" ∨ resolution = "rejected")
    (hb : isPendingReviewBlocker reviewId b = true) :
    gateActive (resolveBlocker reviewId resolution now b) = false := by
  unfold gateActive
  rw [getIn_status_resolved hb]
  rcases hres with rfl | rfl <;> decide +kernel

/-- What the gates count, the writer counts. -/
theorem writerActive_of_gateActive (h : gateActive b = true) : writerActive b = true := by
  unfold gateActive at h
  unfold writerActive lowered
  rw [decide_eq_true_iff] at h ⊢
  intro hwriter
  have htruthy : (Val.getIn "status" b).truthy = true := by
    by_contra hfalse
    unfold Val.text at hwriter
    rw [if_neg hfalse] at hwriter
    exact absurd hwriter (by decide)
  unfold Val.orElse at h
  rw [if_pos htruthy] at h
  refine h ?_
  have hsub : writerResolvedStatuses ⊆ gateResolvedStatuses := by decide
  exact hsub hwriter

theorem blockersOf_list (blockers : List Entries) : blockersOf (.list (blockers.map .dict)) = blockers := by
  unfold blockersOf
  dsimp only
  rw [List.filterMap_map]
  exact List.filterMap_some

/-- What the writer leaves in the state. -/
structure Cleared (reviewId : String) (state state' : Entries) : Prop where
  blockers : activeRuntimeGateBlockers (Val.getIn "blockers" state') =
    (blockersOf (Val.getIn "blockers" state)).filter fun b =>
      !isPendingReviewBlocker reviewId b && gateActive b
  held : leftOver reviewId state ≠ [] → (∃ status ∈ ["waiting_review", "waiting_blocker"],
    Val.getIn "status" state' = .str status) ∧
      Val.getIn "next_action" state' = .str "wait_for_external_event"
  free : leftOver reviewId state = [] → Val.getIn "status" state' =
      (if lowered "status" state ∈ waitingStatuses then .str "running" else Val.getIn "status" state) ∧
    Val.getIn "next_action" state' = .str "run_next_tick" ∧
    Val.getIn "active_blocker_count" state' = .int 0 ∧ Val.getIn "requires_review" state' = .bool false ∧
    Val.getIn "review_status" state' = .str "" ∧ Val.getIn "review_id" state' = .str "" ∧
    Val.getIn "review_payload" state' = .dict []

theorem getIn_mirrorReview {reviewBlocker : Option Entries} {mirrored : Entries}
    (h : mirrorReview ofItems reviewBlocker state = .ok mirrored) {k : String}
    (hk : k ∉ ["requires_review", "review_status", "review_id", "review_payload"]) :
    Val.getIn k mirrored = Val.getIn k state := by
  simp only [List.mem_cons, List.not_mem_nil, or_false, not_or] at hk
  unfold mirrorReview at h
  cases reviewBlocker with
  | none =>
    cases h
    simp [hk]
  | some b =>
    obtain ⟨payload, -, h⟩ := bind_eq_ok.mp h
    cases h
    simp [hk]

theorem cleared (hres : resolution = "applied" ∨ resolution = "rejected") (hne : state ≠ [])
    (h : clearReviewRuntimeFields ofItems reviewId resolution now state = .ok state') :
    Cleared reviewId state state' := by
  unfold clearReviewRuntimeFields at h
  rw [if_neg hne] at h
  obtain ⟨mirrored, hmirrored, h⟩ := bind_eq_ok.mp h
  cases h
  have hactive : ((blockersOf (Val.getIn "blockers" state)).map
      (resolveBlocker reviewId resolution now)).filter writerActive = leftOver reviewId state :=
    filter_resolved _ fun b hb => writer_resolved hres hb
  rw [hactive] at hmirrored ⊢
  have hother : ∀ k, k ∉ ["requires_review", "review_status", "review_id", "review_payload"] →
      k ≠ "active_blocker_count" → k ≠ "blockers" → Val.getIn k mirrored = Val.getIn k state := by
    intro k hk hcount hblockers
    rw [getIn_mirrorReview hmirrored hk, Val.getIn_put, if_neg hcount, Val.getIn_put, if_neg hblockers]
  refine ⟨?_, fun hleft => ?_, fun hleft => ?_⟩
  · have hblockers : ∀ active reviewBlocker, Val.getIn "blockers"
        (Val.put "updated_at" (.str now) (Val.put "agent_action" (.str "")
          (mirrorStatus active reviewBlocker mirrored))) = Val.getIn "blockers" mirrored := by
      intro active reviewBlocker
      unfold mirrorStatus
      cases active with
      | nil =>
        dsimp only
        split <;> simp
      | cons b bs => simp
    rw [hblockers, getIn_mirrorReview hmirrored (by decide), Val.getIn_put, if_neg (by decide),
      Val.getIn_put, if_pos rfl]
    unfold activeRuntimeGateBlockers
    rw [blockersOf_list]
    exact filter_resolved _ fun b hb => gate_resolved hres hb
  · cases hactive' : leftOver reviewId state with
    | nil => exact absurd hactive' hleft
    | cons b bs =>
      unfold mirrorStatus
      dsimp only
      refine ⟨⟨if ((b :: bs).find? fun b => lowered "type" b = "review").isSome then "waiting_review"
        else "waiting_blocker", ?_, ?_⟩, ?_⟩
      · split <;> decide
      · simp
      · simp
  · rw [hleft] at hmirrored ⊢
    cases hmirrored
    unfold mirrorStatus
    dsimp only
    have hstatus : lowered "status" (Val.put "next_action" (.str "run_next_tick")
        (Val.put "waiting_reason" (.str "") (Val.put "review_payload" (.dict [])
          (Val.put "review_id" (.str "") (Val.put "review_status" (.str "")
            (Val.put "requires_review" (.bool false)
              (Val.put "active_blocker_count" (.int ([] : List Entries).length) (Val.put "blockers" (.list
                (((blockersOf (Val.getIn "blockers" state)).map
                  (resolveBlocker reviewId resolution now)).map .dict)) state)))))))) =
        lowered "status" state := by
      unfold lowered
      simp
    rw [hstatus]
    by_cases hwaiting : lowered "status" state ∈ waitingStatuses
    · rw [if_pos hwaiting, if_pos hwaiting]
      simp
    · rw [if_neg hwaiting, if_neg hwaiting]
      simp

end Writer

/-! ## The gates -/

section Gates

variable {truncate : String → Except Err ℤ} {task : Entries}

theorem denied_of_waiting (hstatus : lowered "status" task ∈ heldStatuses)
    (hnext : lowered "next_action" task ≠ "run_next_tick") :
    (runtimeDispatchGateDecision truncate task).allow = false := by
  have hdenied : ∀ reason reviewStatus present count blockers,
      (decisionOf (lowered "status" task) (lowered "next_action" task) reason reviewStatus present count
        blockers).allow = false := by
    intro reason reviewStatus present count blockers
    unfold decisionOf
    dsimp only
    split
    · rfl
    split
    · rfl
    split
    · rfl
    rw [if_pos ⟨hstatus, .inl hnext⟩]
  exact hdenied _ _ _ _ _

/-- A task of which a review is there, without a status of its own, is not dispatched. -/
theorem denied_of_review (hpresent : reviewPresent task = true)
    (hreview : lowered "review_status" task = "") :
    (runtimeDispatchGateDecision truncate task).allow = false := by
  have hdenied : ∀ status next reason count blockers,
      (decisionOf status next reason "pending" true count blockers).allow = false := by
    intro status next reason count blockers
    have hpending : "pending" ∈ pendingReviewStatuses := by decide
    unfold decisionOf
    dsimp only
    split
    · rfl
    split
    · rfl
    rw [if_pos (.inr ⟨hpending, rfl⟩)]
  unfold runtimeDispatchGateDecision
  dsimp only
  rw [hpresent, hreview]
  exact hdenied _ _ _ _ _

/-- A task that nothing holds. -/
structure Clear (truncate : String → Except Err ℤ) (task : Entries) : Prop where
  status : lowered "status" task ∉ terminalStatuses
  review : lowered "review_status" task = ""
  present : reviewPresent task = false
  next : lowered "next_action" task = "run_next_tick"
  count : safeInt truncate (Val.getIn "active_blocker_count" task) = 0
  blockers : activeRuntimeGateBlockers (Val.getIn "blockers" task) = []

theorem Clear.allowed (h : Clear truncate task) :
    (runtimeDispatchGateDecision truncate task).allow = true := by
  have hrejected : "" ∉ rejectedReviewStatuses := by decide
  have hallowed : ∀ status reason, status ∉ terminalStatuses →
      (decisionOf status "run_next_tick" reason "" false 0 []).allow = true := by
    intro status reason hstatus
    unfold decisionOf
    simp [hstatus, hrejected]
  unfold runtimeDispatchGateDecision
  dsimp only
  rw [h.present, h.review, h.blockers, h.count, h.next]
  exact hallowed _ _ h.status

end Gates

/-! ## What is released -/

section Released

variable {truncate : String → Except Err ℤ} {reviewId : String} {state state' : Entries}

theorem gate_of_leftOver (h : leftOver reviewId state = []) :
    ((blockersOf (Val.getIn "blockers" state)).filter fun b =>
      !isPendingReviewBlocker reviewId b && gateActive b) = [] := by
  unfold leftOver at h
  rw [List.filter_eq_nil_iff] at h ⊢
  intro b hb hactive
  rw [Bool.and_eq_true] at hactive
  refine h b hb ?_
  rw [Bool.and_eq_true]
  exact ⟨hactive.1, writerActive_of_gateActive hactive.2⟩

theorem blockers_iff (h : Cleared reviewId state state') :
    activeRuntimeGateBlockers (Val.getIn "blockers" state') =
        (activeRuntimeGateBlockers (Val.getIn "blockers" state)).filter (fun b => !ownedBy reviewId b) ↔
      ∀ b ∈ activeRuntimeGateBlockers (Val.getIn "blockers" state),
        isPendingReviewBlocker reviewId b = ownedBy reviewId b := by
  have hsplit : ((blockersOf (Val.getIn "blockers" state)).filter fun b =>
      !isPendingReviewBlocker reviewId b && gateActive b) =
        (activeRuntimeGateBlockers (Val.getIn "blockers" state)).filter fun b =>
          !isPendingReviewBlocker reviewId b := by
    unfold activeRuntimeGateBlockers
    rw [List.filter_filter]
  rw [h.blockers, hsplit]
  constructor
  · intro hsame b hb
    have hmem : b ∈ (activeRuntimeGateBlockers (Val.getIn "blockers" state)).filter
        (fun b => !isPendingReviewBlocker reviewId b) ↔
          b ∈ (activeRuntimeGateBlockers (Val.getIn "blockers" state)).filter
            (fun b => !ownedBy reviewId b) := by
      rw [hsame]
    rw [List.mem_filter, List.mem_filter, and_iff_right hb, and_iff_right hb] at hmem
    cases hpending : isPendingReviewBlocker reviewId b <;>
      cases howned : ownedBy reviewId b <;> simp_all
  · intro hall
    exact List.filter_congr fun b hb => by rw [hall b hb]

theorem terminal_iff (h : Cleared reviewId state state')
    (hterminal : lowered "status" state ∈ terminalStatuses) :
    Val.getIn "status" state' = Val.getIn "status" state ↔ leftOver reviewId state = [] := by
  constructor
  · intro hsame
    by_contra hleft
    obtain ⟨⟨status, hmem, hstatus⟩, -⟩ := h.held hleft
    have hlowered : lowered "status" state = Text.lower (Text.strip status) := by
      unfold lowered
      rw [← hsame, hstatus, Val.text_str]
    rw [hlowered] at hterminal
    have hnone : ∀ status ∈ ["waiting_review", "waiting_blocker"],
        Text.lower (Text.strip status) ∉ terminalStatuses := by
      decide +kernel
    exact hnone status hmem hterminal
  · intro hleft
    have hwaiting : lowered "status" state ∉ waitingStatuses := by
      have hdisjoint : ∀ status ∈ terminalStatuses, status ∉ waitingStatuses := by decide
      exact hdisjoint _ hterminal
    rw [(h.free hleft).1, if_neg hwaiting]

/-- What is left over holds the task. -/
theorem denied_of_leftOver (h : Cleared reviewId state state') (hleft : leftOver reviewId state ≠ []) :
    (runtimeDispatchGateDecision truncate (applyRuntimeResumeGate truncate state')).allow = false := by
  obtain ⟨⟨status, hmem, hstatus⟩, hnext⟩ := h.held hleft
  have hnext' : lowered "next_action" state' = "wait_for_external_event" := by
    unfold lowered
    rw [hnext]
    decide +kernel
  have hheld : lowered "status" state' ∈ heldStatuses := by
    unfold lowered
    rw [hstatus, Val.text_str]
    have hall : ∀ status ∈ ["waiting_review", "waiting_blocker"],
        Text.lower (Text.strip status) ∈ heldStatuses := by
      decide +kernel
    exact hall status hmem
  have hsame : applyRuntimeResumeGate truncate state' = state' := by
    unfold applyRuntimeResumeGate
    rw [if_neg]
    rintro ⟨hrun, -⟩
    rw [hnext'] at hrun
    exact absurd hrun (by decide)
  rw [hsame]
  refine denied_of_waiting hheld ?_
  rw [hnext']
  decide

/-- Where nothing is left over, only a status that asks for a review holds the task. -/
theorem allowed_iff (h : Cleared reviewId state state') (hleft : leftOver reviewId state = [])
    (hterminal : lowered "status" state ∉ terminalStatuses) :
    (runtimeDispatchGateDecision truncate (applyRuntimeResumeGate truncate state')).allow = true ↔
      lowered "status" state ≠ statusReviewRequired := by
  obtain ⟨hstatus, hnext, hcount, hrequires, hreview, hid, hpayload⟩ := h.free hleft
  have hblockers : activeRuntimeGateBlockers (Val.getIn "blockers" state') = [] := by
    rw [h.blockers, gate_of_leftOver hleft]
  have hnext' : lowered "next_action" state' = "run_next_tick" := by
    unfold lowered
    rw [hnext]
    decide +kernel
  have hreview' : lowered "review_status" state' = "" := by
    unfold lowered
    rw [hreview]
    decide +kernel
  have hpresent : reviewPresent state' = decide (lowered "status" state' = statusReviewRequired) := by
    unfold reviewPresent
    rw [hrequires, hid, hpayload]
    rfl
  have hpending : resumeReviewPending state' =
      decide (lowered "status" state' = statusReviewRequired) := by
    unfold resumeReviewPending
    dsimp only
    rw [hreview', if_neg (by decide), if_neg (by decide), hrequires, hid, hpayload]
    rfl
  have hzero : safeInt truncate (Val.getIn "active_blocker_count" state') = 0 := by
    rw [hcount]
    rfl
  -- the writer leaves a status that is not waiting
  have hlowered : lowered "status" state' =
      if lowered "status" state ∈ waitingStatuses then "running" else lowered "status" state := by
    unfold lowered at hstatus ⊢
    rw [hstatus]
    split
    · decide +kernel
    · rfl
  constructor
  · intro hallow hrequired
    have hstays : lowered "status" state' = statusReviewRequired := by
      rw [hlowered, hrequired, if_neg (by decide)]
    rw [hstays, decide_eq_true rfl] at hpresent hpending
    have hsame : applyRuntimeResumeGate truncate state' = state' := by
      unfold applyRuntimeResumeGate
      rw [if_neg]
      rintro ⟨-, -, -, -, hfalse⟩
      rw [hpending] at hfalse
      cases hfalse
    rw [hsame, denied_of_review hpresent hreview'] at hallow
    cases hallow
  · intro hother
    have hnot : lowered "status" state' ≠ statusReviewRequired := by
      rw [hlowered]
      split
      · decide
      · exact hother
    rw [decide_eq_false hnot] at hpresent hpending
    by_cases hresumed : lowered "status" state' ∈ resumableStatuses
    · refine Clear.allowed ?_
      unfold applyRuntimeResumeGate
      rw [if_pos ⟨hnext', hresumed, hblockers, hzero.le, hpending⟩]
      have hkeep : ∀ k ∉ ["agent_action", "active_blocker_count", "waiting_reason", "blocked_reason",
          "status"], ∀ action, Val.getIn k (Val.put "agent_action" action
            (Val.put "active_blocker_count" (.int 0) (Val.put "waiting_reason" (.str "")
              (Val.put "blocked_reason" (.str "") (Val.put "status" (.str "running") state'))))) =
            Val.getIn k state' := by
        intro k hk action
        simp only [List.mem_cons, List.not_mem_nil, or_false, not_or] at hk
        simp [hk]
      have hrunning : ∀ action, Val.getIn "status" (Val.put "agent_action" action
          (Val.put "active_blocker_count" (.int 0) (Val.put "waiting_reason" (.str "")
            (Val.put "blocked_reason" (.str "") (Val.put "status" (.str "running") state'))))) =
          .str "running" := by
        intro action
        simp
      refine ⟨?_, ?_, ?_, ?_, ?_, ?_⟩
      · unfold lowered
        rw [hrunning]
        decide +kernel
      · unfold lowered at hreview' ⊢
        rw [hkeep _ (by decide), hreview']
      · unfold reviewPresent lowered
        rw [hkeep _ (by decide), hkeep _ (by decide), hkeep _ (by decide), hrunning, hrequires, hid,
          hpayload]
        decide +kernel
      · unfold lowered at hnext' ⊢
        rw [hkeep _ (by decide), hnext']
      · have hcount' : ∀ action, Val.getIn "active_blocker_count" (Val.put "agent_action" action
            (Val.put "active_blocker_count" (.int 0) (Val.put "waiting_reason" (.str "")
              (Val.put "blocked_reason" (.str "") (Val.put "status" (.str "running") state'))))) =
            .int 0 := by
          intro action
          simp
        rw [hcount']
        rfl
      · rw [hkeep _ (by decide), hblockers]
    · have hsame : applyRuntimeResumeGate truncate state' = state' := by
        unfold applyRuntimeResumeGate
        rw [if_neg fun h => hresumed h.2.1]
      rw [hsame]
      refine Clear.allowed ⟨?_, hreview', hpresent, hnext', hzero, hblockers⟩
      rw [hlowered]
      split
      · decide
      · exact hterminal

/-- What a decided review releases is its own hold, and nothing else, if and only if the stored state is
releasable. -/
theorem released_of_clear {ofItems : Val → Except Err Entries} {resolution now : String}
    (hres : resolution = "applied" ∨ resolution = "rejected")
    (h : clearReviewRuntimeFields ofItems reviewId resolution now state = .ok state') :
    Released truncate reviewId state state' ↔ Releasable reviewId state := by
  by_cases hempty : state = []
  · -- nothing is stored, and nothing is written
    subst hempty
    unfold clearReviewRuntimeFields at h
    rw [if_pos rfl] at h
    cases h
    have hallow : (runtimeDispatchGateDecision truncate
        (applyRuntimeResumeGate truncate [])).allow = true := rfl
    constructor
    · intro _
      exact ⟨fun b hb => (by cases hb), fun _ => rfl, fun _ _ hleft => absurd rfl hleft,
        fun _ => (by decide +kernel)⟩
    · intro _
      exact ⟨rfl, fun _ => rfl, fun _ _ => ⟨fun _ => rfl, fun _ => hallow⟩⟩
  · have hcleared := cleared hres hempty h
    have hpaused : statusReviewRequired ≠ "paused" := by decide
    have hnotTerminal : statusReviewRequired ∉ terminalStatuses := by decide
    constructor
    · rintro ⟨hblockers, hterminal, hdispatch⟩
      refine ⟨(blockers_iff hcleared).mp hblockers,
        fun ht => (terminal_iff hcleared ht).mp (hterminal ht), fun ht hp hleft => ?_,
        fun hleft hrequired => ?_⟩
      · -- what is left over denies the dispatch, so the gates see some of it
        have hdenied := @denied_of_leftOver truncate reviewId state state' hcleared hleft
        have hsome := (not_congr (hdispatch ht hp)).mp (by rw [hdenied]; exact Bool.false_ne_true)
        rw [hcleared.blockers] at hsome
        obtain ⟨b, hb⟩ := List.exists_mem_of_ne_nil _ hsome
        obtain ⟨hmem, hactive⟩ := List.mem_filter.mp hb
        rw [Bool.and_eq_true] at hactive
        refine ⟨b, List.mem_filter.mpr ⟨hmem, ?_⟩, hactive.2⟩
        rw [Bool.and_eq_true]
        exact ⟨hactive.1, writerActive_of_gateActive hactive.2⟩
      · have ht : lowered "status" state ∉ terminalStatuses := hrequired ▸ hnotTerminal
        have hp : lowered "status" state ≠ "paused" := hrequired ▸ hpaused
        have hnone : activeRuntimeGateBlockers (Val.getIn "blockers" state') = [] := by
          rw [hcleared.blockers, gate_of_leftOver hleft]
        exact (allowed_iff hcleared hleft ht).mp ((hdispatch ht hp).mpr hnone) hrequired
    · rintro ⟨howned, hterminal, hseen, hfree⟩
      refine ⟨(blockers_iff hcleared).mpr howned,
        fun ht => (terminal_iff hcleared ht).mpr (hterminal ht), fun ht hp => ?_⟩
      by_cases hleft : leftOver reviewId state = []
      · have hnone : activeRuntimeGateBlockers (Val.getIn "blockers" state') = [] := by
          rw [hcleared.blockers, gate_of_leftOver hleft]
        exact ⟨fun _ => hnone, fun _ => (allowed_iff hcleared hleft ht).mpr (hfree hleft)⟩
      · have hdenied := @denied_of_leftOver truncate reviewId state state' hcleared hleft
        obtain ⟨b, hb, hactive⟩ := hseen ht hp hleft
        obtain ⟨hmem, hother⟩ := List.mem_filter.mp hb
        rw [Bool.and_eq_true] at hother
        constructor
        · intro hallow
          rw [hdenied] at hallow
          cases hallow
        · intro hnone
          rw [hcleared.blockers, List.filter_eq_nil_iff] at hnone
          refine absurd ?_ (hnone b hmem)
          rw [Bool.and_eq_true]
          exact ⟨hother.1, hactive⟩

/-- A review that was applied or rejected releases its own hold, and nothing else, if and only if the
stored state is releasable. -/
theorem settleReview_releases_iff (truncate : String → Except Err ℤ)
    (ofItems : Val → Except Err Entries) (host : Reviews.Host) (w : Reviews.World) (state : Entries)
    (reviewId now : String) (settlement : Settlement)
    (h : (settleReview ofItems host w state reviewId now settlement).1 = .applied ∨
      (settleReview ofItems host w state reviewId now settlement).1 = .rejected) :
    Released truncate reviewId state
        (settleReview ofItems host w state reviewId now settlement).2.2 ↔
      Releasable reviewId state := by
  have hres : settlement.resolutionStatus = "applied" ∨ settlement.resolutionStatus = "rejected" := by
    cases settlement with
    | apply line failing => exact .inl rfl
    | reject reason line => exact .inr rfl
  unfold settleReview at h ⊢
  dsimp only at h ⊢
  split at h
  · rename_i hcalled
    rw [if_pos hcalled]
    cases hclear : clearReviewRuntimeFields ofItems reviewId settlement.resolutionStatus now state with
    | ok state' => exact released_of_clear hres hclear
    | error e =>
      rw [hclear] at h
      rcases h with h | h <;> cases h
  · rename_i hcalled
    exact absurd h hcalled

end Released

/-! ## One review -/

def noNumber : String → Except Err ℤ := fun _ => .error .typeError

def noItems : Val → Except Err Entries := fun _ => .error .typeError

def plainHost : Reviews.Host := ⟨fun _ => { status := "" }, ["audit.log"]⟩

def reviewOfR : Reviews.ReviewRecord where
  reviewId := "R"
  filePath := "a.py"
  sandboxPath := ["a.py"]
  repoRoot := []
  diff := ⟨"", ""⟩

def pendingR : Reviews.World := { reviews := Dict.empty.set "R" reviewOfR }

def heldBy (blocker : Entries) : Entries :=
  [("status", .str "waiting_review"), ("blockers", .list [.dict blocker])]

theorem settleReview_releases_pending :
    Released noNumber "R"
      (heldBy [("type", .str "review"), ("id", .str "R"), ("status", .str "pending")])
      (settleReview noItems plainHost pendingR
        (heldBy [("type", .str "review"), ("id", .str "R"), ("status", .str "pending")]) "R" "now"
        (.reject "" "line")).2.2 := by
  refine (settleReview_releases_iff noNumber noItems plainHost pendingR _ "R" "now" _
    (.inr (by decide +kernel))).mpr ⟨by decide +kernel, fun h => absurd h (by decide +kernel),
      fun _ _ hleft => absurd rfl hleft, fun _ => (by decide +kernel)⟩

/-- The gates take a blocker without a status for pending, and the writer does not. -/
theorem missing_status_kept :
    (settleReview noItems plainHost pendingR (heldBy [("type", .str "review"), ("id", .str "R")]) "R"
      "now" (.reject "" "line")).1 = .rejected ∧
    ¬Released noNumber "R" (heldBy [("type", .str "review"), ("id", .str "R")])
      (settleReview noItems plainHost pendingR (heldBy [("type", .str "review"), ("id", .str "R")]) "R"
        "now" (.reject "" "line")).2.2 := by
  refine ⟨by decide +kernel, fun h => ?_⟩
  have hlength := congrArg List.length h.blockers
  exact absurd hlength (by decide +kernel)

end RuntimeGate
end ZeroRuntime
