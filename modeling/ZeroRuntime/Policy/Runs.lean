import Mathlib.Data.List.Chain
import Mathlib.Data.List.Infix
import ZeroRuntime.Policy.Transition

/-!
# ZeroRuntime.Policy.Runs

Runs of changes that the transition policy allows one by one, none of them a rollback.

* `check_ok`: what an allowed change has passed.
* `Law`: no running status after a terminal one, none after a blocked one without the resolution it
  needs, no retry without budget.
* `Careful`: the change makes no detour around a rule and no negative budget.
* `law_of_careful`: runs of careful changes keep the law. `careless_breaks`: a change that is not
  careful can be followed by allowed changes to where the law is broken.
-/

namespace ZeroRuntime
namespace Policy

open Lib

variable (int : Val → Option Int)

/-- What `check_transition` is given. -/
structure Step where
  state : Entries
  updates : Entries
  owner : Val := .str ""
  action : Val := .str ""

namespace Step

def change (s : Step) : Change := readChange s.state s.updates s.owner s.action

def source (s : Step) : String := s.change.currentStatus

def target (s : Step) : String := s.change.nextStatus

/-- The policy allows the step, and it is no rollback. -/
def Allowed (s : Step) : Prop :=
  (checkTransition int s.state s.updates s.owner s.action).ok = true ∧ s.change.isRollback = false

/-- The resolution a blocked status needs before it is left for a running one. -/
def Resolves (s : Step) (status : String) : Prop :=
  actionAllowsBlockedReopen s.change.action = true ∧
    (status ∈ blockerStatuses →
      hasBlockerResolution int s.state s.updates s.change.action = true) ∧
    (status ∈ reviewStatuses → hasReviewResolution s.state s.updates s.change.action = true)

end Step

instance (s : Step) : Decidable (s.Allowed int) :=
  inferInstanceAs (Decidable (_ ∧ _))

instance (s : Step) (status : String) : Decidable (s.Resolves int status) :=
  inferInstanceAs (Decidable (_ ∧ _ ∧ _))

/-! ## What is allowed -/

/-- The rule answers nothing but denials. -/
def Denies (rule : Option Decision) : Prop := ∀ d, rule = some d → d.ok = false

theorem Denies.or {rule rule' : Option Decision} (h : Denies rule) (h' : Denies rule') :
    Denies (rule.or rule') := by
  intro d hd
  rcases Option.or_eq_some_iff.mp hd with hd | ⟨-, hd⟩
  · exact h d hd
  · exact h' d hd

theorem Denies.ok_iff {rule : Option Decision} (h : Denies rule) {d : Decision}
    (hd : d.ok = true) : (rule.getD d).ok = true ↔ rule = none := by
  cases rule with
  | none => exact ⟨fun _ => rfl, fun _ => hd⟩
  | some d' => simp [h d' rfl]

theorem denies_denyIf (c : Change) (condition : Bool) (reason rule : String) :
    Denies (c.denyIf condition reason rule) := by
  intro d h
  unfold Change.denyIf at h
  split at h
  · cases h
    rfl
  · cases h

theorem denyIf_eq_none {c : Change} {condition : Bool} {reason rule : String} :
    c.denyIf condition reason rule = none ↔ condition = false := by
  unfold Change.denyIf
  cases condition <;> simp

theorem denies_recovery (c : Change) : Denies c.checkRecovery := by
  intro d h
  unfold Change.checkRecovery at h
  split at h
  · rename_i hdenied
    cases h
    simpa using (Bool.and_eq_true_iff.mp hdenied).2
  · cases h

theorem denies_retry (c : Change) : Denies (c.checkRetry int) := by
  intro d h
  unfold Change.checkRetry at h
  split at h
  · unfold Change.checkRetryLegality at h
    dsimp only at h
    split at h
    · cases h
      rfl
    · cases h
  · cases h

theorem denies_review (c : Change) : Denies c.checkReview := by
  intro d h
  unfold Change.checkReview at h
  split at h
  · exact (denies_denyIf c _ _ _).or (denies_denyIf c _ _ _) d h
  · cases h

theorem denies_blocked (c : Change) : Denies (c.checkBlocked int) := by
  intro d h
  unfold Change.checkBlocked at h
  split at h
  · exact (denies_denyIf c _ _ _).or (denies_denyIf c _ _ _) d h
  · cases h

/-- A change is allowed if no rule denies it. -/
theorem check_ok {c : Change} :
    (c.check int).ok = true ↔
      c.checkRecovery = none ∧ c.checkReadonly = none ∧ c.checkTerminal = none ∧
        c.checkRetry int = none ∧ c.checkReview = none ∧ c.checkBlocked int = none := by
  have hdenies : Denies (c.checkRecovery.or (c.checkReadonly.or (c.checkTerminal.or
      ((c.checkRetry int).or (c.checkReview.or (c.checkBlocked int)))))) :=
    (denies_recovery c).or ((denies_denyIf c _ _ _).or ((denies_denyIf c _ _ _).or
      ((denies_retry int c).or ((denies_review c).or (denies_blocked int c)))))
  unfold Change.check
  rw [hdenies.ok_iff (d := c.allow "transition allowed" "allowed") rfl]
  simp only [Option.or_eq_none_iff]

variable {s : Step}

theorem allowed_terminal (h : s.Allowed int) (hsource : s.source ∈ terminalStatuses) :
    s.target ∉ runningStatuses := by
  have hcheck : (s.change.check int).ok = true := h.1
  have hrollback := h.2
  obtain ⟨-, -, hterminal, -⟩ := (check_ok int).mp hcheck
  intro htarget
  have hdenied := denyIf_eq_none.mp hterminal
  -- without a rollback action nothing reopens
  have hreopen : s.change.isExplicitRollbackRecoveryReopen = false := by
    have hnot : s.change.recovery.action ∉ ["rollback_reopen", "rollback_retry"] := by
      simp only [Change.isRollback, Bool.or_eq_false_iff, decide_eq_false_iff_not] at hrollback
      intro hmem
      have hrecovery : s.change.recovery.action ∈ recoveryActions := by
        simp only [List.mem_cons, List.not_mem_nil, or_false] at hmem
        rcases hmem with h | h <;> rw [h] <;> decide
      unfold Change.recovery at hrecovery
      split at hrecovery
      · exact hrollback.2 hrecovery
      · exact hrollback.1 hrecovery
    unfold Change.isExplicitRollbackRecoveryReopen
    rw [decide_eq_false hnot, Bool.false_and]
  have hsource' : s.change.currentStatus ∈ terminalStatuses := hsource
  have htarget' : s.change.nextStatus ∈ runningStatuses := htarget
  rw [hreopen] at hdenied
  simp [hsource', htarget'] at hdenied

theorem allowed_blocked (h : s.Allowed int) (hsource : s.source ∈ blockedStatuses)
    (htarget : s.target ∈ runningStatuses) : s.Resolves int s.source := by
  have hcheck : (s.change.check int).ok = true := h.1
  obtain ⟨-, -, -, -, hreview, hblocked⟩ := (check_ok int).mp hcheck
  unfold Change.checkBlocked at hblocked
  rw [if_pos ⟨hsource, htarget⟩, Option.or_eq_none_iff, denyIf_eq_none, denyIf_eq_none] at hblocked
  obtain ⟨haction, hresolved⟩ := hblocked
  rw [Bool.not_eq_false'] at haction
  refine ⟨haction, fun hblocker => ?_, fun hneeds => ?_⟩
  · have hblocker' : s.change.currentStatus ∈ blockerStatuses := hblocker
    rw [decide_eq_true hblocker', Bool.true_and] at hresolved
    rwa [Bool.not_eq_false'] at hresolved
  · unfold Change.checkReview at hreview
    rw [if_pos ⟨hneeds, htarget⟩, Option.or_eq_none_iff, denyIf_eq_none, denyIf_eq_none] at hreview
    rw [Bool.not_eq_false', Bool.not_eq_false'] at hreview
    exact hreview.2

/-- A step into retrying has a budget that is not read as zero. -/
theorem allowed_retry (h : s.Allowed int) (htarget : s.target = "retrying") :
    remaining int s.state s.updates ≠ some 0 := by
  have hcheck : (s.change.check int).ok = true := h.1
  obtain ⟨-, -, -, hretry, -⟩ := (check_ok int).mp hcheck
  have htarget' : s.change.nextStatus = "retrying" := htarget
  unfold Change.checkRetry at hretry
  rw [if_pos htarget'] at hretry
  unfold Change.checkRetryLegality at hretry
  dsimp only at hretry
  intro hzero
  have hzero' : remaining int s.change.state s.change.updates = some 0 := hzero
  rw [if_pos (by simp [hzero'])] at hretry
  cases hretry

/-! ## Runs -/

/-- Each step is allowed, and starts in the status the one before it ended in. -/
structure Run (steps : List Step) : Prop where
  allowed : ∀ s ∈ steps, s.Allowed int
  linked : steps.IsChain fun s s' => s'.source = s.target

/-- What runs should keep, between any status of a run and any later one. -/
structure Law (steps : List Step) : Prop where
  terminal : ∀ part, part <:+: steps → ∀ first last, part.head? = some first →
    part.getLast? = some last → first.source ∈ terminalStatuses → last.target ∉ runningStatuses
  blocked : ∀ part, part <:+: steps → ∀ first last, part.head? = some first →
    part.getLast? = some last → first.source ∈ blockedStatuses → last.target ∈ runningStatuses →
    ∃ s ∈ part, s.Resolves int first.source
  budget : ∀ s ∈ steps, s.target = "retrying" → ∀ n, remaining int s.state s.updates = some n → 0 < n

/-- What leaves the second status for a running one, leaves the first as well. -/
def AsStrict (status status' : String) : Prop :=
  status' ∈ blockedStatuses ∧ (status ∈ blockerStatuses → status' ∈ blockerStatuses) ∧
    (status ∈ reviewStatuses → status' ∈ reviewStatuses)

/-- No detour: a terminal status is left for a terminal one or, if the policy lets it, a running
one; a blocked status that is left without its resolution is left for one that is as strict, or, if
the policy lets it, a running one. And the budget of a retry is not negative. -/
structure Careful (s : Step) : Prop where
  terminal : s.source ∈ terminalStatuses → s.target ∈ terminalStatuses ∨ s.target ∈ runningStatuses
  blocked : s.source ∈ blockedStatuses → s.Resolves int s.source ∨ s.target ∈ runningStatuses ∨
    AsStrict s.source s.target
  budget : s.target = "retrying" → ∀ n, remaining int s.state s.updates = some n → 0 ≤ n

theorem Run.tail {s : Step} {steps : List Step} (h : Run int (s :: steps)) : Run int steps :=
  ⟨fun s' hs' => h.allowed s' (List.mem_cons_of_mem _ hs'), h.linked.tail⟩

variable {steps : List Step}

theorem Run.part {part : List Step} (h : Run int steps) (hpart : part <:+: steps) : Run int part :=
  ⟨fun s hs => h.allowed s (hpart.subset hs), List.IsChain.infix h.linked hpart⟩

theorem terminal_not_running {status : String} (h : status ∈ terminalStatuses) :
    status ∉ runningStatuses := by
  simp only [terminalStatuses, List.mem_cons, List.not_mem_nil, or_false] at h
  rcases h with rfl | rfl | rfl | rfl <;> decide

theorem Step.Resolves.of_asStrict {status status' : String} (h : s.Resolves int status')
    (hstrict : AsStrict status status') : s.Resolves int status :=
  ⟨h.1, fun hblocker => h.2.1 (hstrict.2.1 hblocker), fun hreview => h.2.2 (hstrict.2.2 hreview)⟩

theorem terminal_of_careful (hrun : Run int (s :: steps))
    (hcareful : ∀ s' ∈ s :: steps, Careful int s') (hsource : s.source ∈ terminalStatuses) :
    ∀ last, (s :: steps).getLast? = some last → last.target ∈ terminalStatuses := by
  have htarget : s.target ∈ terminalStatuses := by
    have hallowed := hrun.allowed s List.mem_cons_self
    exact ((hcareful s List.mem_cons_self).terminal hsource).resolve_right
      (allowed_terminal int hallowed hsource)
  induction steps generalizing s with
  | nil =>
    intro last hlast
    cases hlast
    exact htarget
  | cons s' steps ih =>
    intro last hlast
    have hlink : s'.source = s.target := (List.isChain_cons_cons.mp hrun.linked).1
    have hsource' : s'.source ∈ terminalStatuses := hlink ▸ htarget
    have hcareful' : ∀ t ∈ s' :: steps, Careful int t :=
      fun t ht => hcareful t (List.mem_cons_of_mem _ ht)
    have htarget' : s'.target ∈ terminalStatuses := by
      have hallowed := hrun.tail.allowed s' List.mem_cons_self
      exact ((hcareful' s' List.mem_cons_self).terminal hsource').resolve_right
        (allowed_terminal int hallowed hsource')
    exact ih hrun.tail hcareful' hsource' htarget' last hlast

theorem resolved_of_careful (hrun : Run int (s :: steps))
    (hcareful : ∀ s' ∈ s :: steps, Careful int s') (hsource : s.source ∈ blockedStatuses) :
    ∀ last, (s :: steps).getLast? = some last → last.target ∈ runningStatuses →
      ∃ t ∈ s :: steps, t.Resolves int s.source := by
  induction steps generalizing s with
  | nil =>
    intro last hlast hrunning
    cases hlast
    have hallowed := hrun.allowed s List.mem_cons_self
    exact ⟨s, List.mem_cons_self, allowed_blocked int hallowed hsource hrunning⟩
  | cons s' steps ih =>
    intro last hlast hrunning
    have hlink : s'.source = s.target := (List.isChain_cons_cons.mp hrun.linked).1
    rcases (hcareful s List.mem_cons_self).blocked hsource with hresolves | htarget | hstrict
    · exact ⟨s, List.mem_cons_self, hresolves⟩
    · have hallowed := hrun.allowed s List.mem_cons_self
      exact ⟨s, List.mem_cons_self, allowed_blocked int hallowed hsource htarget⟩
    · have hsource' : s'.source ∈ blockedStatuses := hlink ▸ hstrict.1
      have hcareful' : ∀ t ∈ s' :: steps, Careful int t :=
        fun t ht => hcareful t (List.mem_cons_of_mem _ ht)
      obtain ⟨t, ht, hresolves⟩ := ih hrun.tail hcareful' hsource' last hlast hrunning
      rw [hlink] at hresolves
      exact ⟨t, List.mem_cons_of_mem _ ht, hresolves.of_asStrict int hstrict⟩

theorem law_of_careful {steps : List Step} (hrun : Run int steps)
    (hcareful : ∀ s ∈ steps, Careful int s) : Law int steps := by
  refine ⟨fun part hpart first last hfirst hlast hsource => ?_,
    fun part hpart first last hfirst hlast hsource hrunning => ?_, fun s hs htarget n hn => ?_⟩
  · obtain ⟨rest, rfl⟩ : ∃ rest, part = first :: rest := List.head?_eq_some_iff.mp hfirst
    exact terminal_not_running (terminal_of_careful int (hrun.part int hpart)
      (fun s hs => hcareful s (hpart.subset hs)) hsource last hlast)
  · obtain ⟨rest, rfl⟩ : ∃ rest, part = first :: rest := List.head?_eq_some_iff.mp hfirst
    exact resolved_of_careful int (hrun.part int hpart)
      (fun s hs => hcareful s (hpart.subset hs)) hsource last hlast hrunning
  · have hge := (hcareful s hs).budget htarget n hn
    have hne : n ≠ 0 := fun hzero => allowed_retry int (hrun.allowed s hs) htarget (hzero ▸ hn)
    omega

/-! ## Detours -/

/-- The built-in `int` on integers. -/
def intOfInt : Val → Option Int
  | .int n => some n
  | _ => none

/-- A change of status with an action and nothing else. -/
def plainStep (source target action : String) : Step :=
  { state := [("status", .str source)], updates := [("status", .str target)]
    action := .str action }

theorem law_of_careful_sample :
    Law intOfInt [plainStep "running" "waiting" "wait", plainStep "waiting" "running" "resume"] :=
  law_of_careful intOfInt
    ⟨by
      rw [List.forall_mem_cons, List.forall_mem_singleton]
      decide +kernel, by decide +kernel⟩
    (by
      rw [List.forall_mem_cons, List.forall_mem_singleton]
      exact ⟨⟨fun h => absurd h (by decide +kernel), fun h => absurd h (by decide +kernel),
          fun h => absurd h (by decide +kernel)⟩,
        ⟨fun h => absurd h (by decide +kernel), fun _ => .inl (by decide +kernel),
          fun h => absurd h (by decide +kernel)⟩⟩)

/-- By way of `queued`, a finished task runs again and a blocked one runs unresolved; and a retry is
allowed on a negative budget. -/
theorem detours_break :
    (∃ steps, Run intOfInt steps ∧ steps.head?.map Step.source = some "finished" ∧
      ¬Law intOfInt steps) ∧
    (∃ steps, Run intOfInt steps ∧ steps.head?.map Step.source = some "blocked" ∧
      ¬Law intOfInt steps) ∧
    ∃ s, Run intOfInt [s] ∧ s.target = "retrying" ∧ ¬Law intOfInt [s] := by
  refine ⟨⟨[plainStep "finished" "queued" "", plainStep "queued" "running" ""], ⟨?_, ?_⟩, ?_, ?_⟩,
    ⟨[plainStep "blocked" "queued" "", plainStep "queued" "running" ""], ⟨?_, ?_⟩, ?_, ?_⟩,
    ⟨{ state := [("status", .str "running"), ("retry_budget_remaining", .int (-1))]
       updates := [("status", .str "retrying")] }, ⟨?_, List.isChain_singleton _⟩, ?_, ?_⟩⟩
  · rw [List.forall_mem_cons, List.forall_mem_singleton]
    decide +kernel
  · decide +kernel
  · decide +kernel
  · intro h
    have hnot := h.terminal _ List.infix_rfl _ _ rfl rfl (by decide +kernel)
    exact hnot (by decide +kernel)
  · rw [List.forall_mem_cons, List.forall_mem_singleton]
    decide +kernel
  · decide +kernel
  · decide +kernel
  · intro h
    obtain ⟨s, hs, hresolves⟩ :=
      h.blocked _ List.infix_rfl _ _ rfl rfl (by decide +kernel) (by decide +kernel)
    rw [List.mem_cons, List.mem_singleton] at hs
    rcases hs with rfl | rfl <;> exact absurd hresolves (by decide +kernel)
  · rw [List.forall_mem_singleton]
    decide +kernel
  · decide +kernel
  · intro h
    have hpositive := h.budget _ List.mem_cons_self (by decide +kernel) (-1) (by decide +kernel)
    exact absurd hpositive (by decide)

end Policy
end ZeroRuntime
