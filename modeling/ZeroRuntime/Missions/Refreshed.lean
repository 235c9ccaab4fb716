import ZeroRuntime.Missions.Advance

/-!
# ZeroRuntime.Missions.Refreshed

What an advance does to the goals before it makes any session, goal by goal.

* `refreshGoals_ok`: each goal of the order is refreshed once, the others stay.
* `propagateDependencyStates_ok`: only goals that wait are touched, and those are blocked.
* `get?_markReady`: what is ready is marked.
* `refreshedGoals_ok`: the three together.
-/

namespace ZeroRuntime
namespace Missions

open Lib Sessions

/-! ## Refreshing -/

def Goal.seenAs (g : Goal) (status : GoalStatus) (failure : Option Failure)
    (fingerprint : Option String) : Goal :=
  { g with goalStatus := status, failure, sessionFingerprint := fingerprint }

section Digest

variable {F : OrchestratorDigest} {disk : Disk} {target workspace : Root} {now : Instant}

theorem projectGoal_frame {g g' : Goal} {s : Session} (h : projectGoal F g s = .ok g') :
    ∃ status failure, g' = g.seenAs status failure g.sessionFingerprint := by
  unfold projectGoal at h
  split at h
  all_goals first
    | cases h
      exact ⟨_, _, rfl⟩
    | obtain ⟨reasons, -, h⟩ := bind_eq_ok.mp h
      split at h
      · cases h
        exact ⟨_, _, rfl⟩
      · cases h
        exact ⟨_, _, rfl⟩

/-- Refreshing a goal leaves its plan, its session and its attempts. -/
theorem refreshGoal_frame {g g' : Goal}
    (h : refreshGoal F disk target workspace now g = .ok g') :
    ∃ status failure fingerprint, g' = g.seenAs status failure fingerprint := by
  unfold refreshGoal at h
  split at h
  · cases h
    exact ⟨_, _, _, rfl⟩
  · split at h
    · cases h
      exact ⟨_, _, _, rfl⟩
    · cases h
    · split at h
      · cases h
        exact ⟨_, _, _, rfl⟩
      · obtain ⟨projected, hprojected, h⟩ := bind_eq_ok.mp h
        obtain ⟨status, failure, rfl⟩ := projectGoal_frame hprojected
        cases h
        exact ⟨_, _, _, rfl⟩

theorem refreshGoals_ok {ids : List String} (hids : ids.Nodup) {goals goals' : Goals}
    (h : refreshGoals F disk target workspace now ids goals = .ok goals') :
    (∀ id ∈ ids, ∃ g g', goals.get? id = some g ∧
        refreshGoal F disk target workspace now g = .ok g' ∧ goals'.get? id = some g') ∧
      ∀ id, id ∉ ids → goals'.get? id = goals.get? id := by
  induction ids generalizing goals with
  | nil =>
    cases h
    exact ⟨fun id hid => absurd hid List.not_mem_nil, fun _ _ => rfl⟩
  | cons i ids ih =>
    obtain ⟨hi, hids⟩ := List.nodup_cons.mp hids
    rw [refreshGoals] at h
    split at h
    · cases h
    · rename_i g hg
      obtain ⟨g', hg', h⟩ := bind_eq_ok.mp h
      obtain ⟨hin, hout⟩ := ih hids h
      constructor
      · intro id hid
        rcases List.mem_cons.mp hid with rfl | hid
        · refine ⟨g, g', hg, hg', ?_⟩
          rw [hout id hi, Dict.get?_set, if_pos rfl]
        · obtain ⟨x, x', hx, hx', hres⟩ := hin id hid
          have hne : id ≠ i := fun heq => hi (heq ▸ hid)
          rw [Dict.get?_set, if_neg hne] at hx
          exact ⟨x, x', hx, hx', hres⟩
      · intro id hid
        rw [List.mem_cons, not_or] at hid
        rw [hout id hid.2, Dict.get?_set, if_neg hid.1]

theorem mem_keys_of_refreshGoals {ids : List String} {goals goals' : Goals}
    (h : refreshGoals F disk target workspace now ids goals = .ok goals') :
    (∀ id ∈ ids, id ∈ goals.keys) ∧ ∀ id, id ∈ goals'.keys ↔ id ∈ goals.keys := by
  induction ids generalizing goals with
  | nil =>
    cases h
    exact ⟨fun id hid => absurd hid List.not_mem_nil, fun _ => Iff.rfl⟩
  | cons i ids ih =>
    rw [refreshGoals] at h
    split at h
    · cases h
    · rename_i g hg
      obtain ⟨g', hg', h⟩ := bind_eq_ok.mp h
      obtain ⟨hin, hkeys⟩ := ih h
      have hi : i ∈ goals.keys := Dict.mem_keys.mpr ⟨g, hg⟩
      have hset : ∀ id, id ∈ (goals.set i g').keys ↔ id ∈ goals.keys := by
        intro id
        rw [Dict.mem_keys, Dict.mem_keys, Dict.get?_set]
        by_cases hid : id = i
        · rw [if_pos hid, hid]
          exact iff_of_true ⟨g', rfl⟩ ⟨g, hg⟩
        · rw [if_neg hid]
      refine ⟨fun id hid => ?_, fun id => (hkeys id).trans (hset id)⟩
      rcases List.mem_cons.mp hid with rfl | hid
      · exact hi
      · exact (hset id).mp (hin id hid)

end Digest

/-! ## Blocking what cannot be reached -/

/-- Some goals that waited are blocked, and nothing else is touched. -/
def Blocks (goals goals' : Goals) : Prop :=
  ∀ id, goals'.get? id = goals.get? id ∨
    ∃ g, goals.get? id = some g ∧ isWaiting g.goalStatus = true ∧
      goals'.get? id = some (blockGoal g)

theorem Blocks.refl (goals : Goals) : Blocks goals goals := fun _ => .inl rfl

theorem Blocks.trans {a b c : Goals} (h : Blocks a b) (h' : Blocks b c) : Blocks a c := by
  intro id
  rcases h' id with h' | ⟨g, hg, hwaiting, h'⟩
  · rcases h id with h | ⟨g, hg, hwaiting, h⟩
    · exact .inl (h'.trans h)
    · exact .inr ⟨g, hg, hwaiting, h'.trans h⟩
  · rcases h id with h | ⟨g₀, hg₀, -, h⟩
    · exact .inr ⟨g, h ▸ hg, hwaiting, h'⟩
    · rw [h] at hg
      cases hg
      cases hwaiting

theorem blocks_propagatePass (ids : List String) (goals : Goals) :
    Blocks goals (propagatePass ids goals) := by
  induction ids generalizing goals with
  | nil => exact Blocks.refl goals
  | cons i ids ih =>
    rw [propagatePass]
    refine Blocks.trans ?_ (ih _)
    split
    · rename_i g hg
      split
      · rename_i hmust
        intro id
        rw [Dict.get?_set]
        by_cases hid : id = i
        · refine .inr ⟨g, hid ▸ hg, ?_, if_pos hid⟩
          unfold mustBlock at hmust
          exact (Bool.and_eq_true_iff.mp hmust).1
        · exact .inl (if_neg hid)
      · exact Blocks.refl goals
    · exact Blocks.refl goals

theorem blocks_propagatePasses (n : ℕ) (goals : Goals) :
    Blocks goals (propagatePasses n goals) := by
  induction n generalizing goals with
  | zero => exact Blocks.refl goals
  | succ n ih =>
    rw [propagatePasses]
    exact (blocks_propagatePass _ goals).trans (ih _)

theorem propagateDependencyStates_ok {goals goals' : Goals} {policy : String}
    (h : propagateDependencyStates goals policy = .ok goals') : Blocks goals goals' := by
  unfold propagateDependencyStates at h
  split at h
  · cases h
    exact blocks_propagatePasses _ _
  · cases h

theorem Blocks.mem_keys {goals goals' : Goals} (h : Blocks goals goals') (id : String) :
    id ∈ goals'.keys ↔ id ∈ goals.keys := by
  rw [Dict.mem_keys, Dict.mem_keys]
  rcases h id with h | ⟨g, hg, -, h⟩
  · rw [h]
  · rw [h, hg]
    exact iff_of_true ⟨_, rfl⟩ ⟨_, rfl⟩

/-! ## Marking what is ready -/

theorem get?_markReady (ids : List String) (goals : Goals) (id : String) :
    (markReady ids goals).get? id =
      if id ∈ ids then (goals.get? id).map fun g => { g with goalStatus := .ready }
      else goals.get? id := by
  unfold markReady
  induction ids generalizing goals with
  | nil => rfl
  | cons i ids ih =>
    rw [List.foldl_cons, ih, Dict.get?_modify]
    by_cases hi : id = i
    · subst hi
      rw [if_pos rfl, if_pos List.mem_cons_self]
      split
      · cases goals.get? id <;> rfl
      · rfl
    · rw [if_neg hi]
      by_cases hid : id ∈ ids
      · rw [if_pos hid, if_pos (List.mem_cons_of_mem _ hid)]
      · rw [if_neg hid, if_neg (by simpa [hi] using hid)]

theorem mem_keys_markReady (ids : List String) (goals : Goals) (id : String) :
    id ∈ (markReady ids goals).keys ↔ id ∈ goals.keys := by
  rw [Dict.mem_keys, Dict.mem_keys, get?_markReady]
  split
  · simp
  · rfl

theorem readyGoalIds_ok {goals : Goals} {ids : List String} (h : readyGoalIds goals = .ok ids)
    {id : String} :
    id ∈ ids ↔ ∃ g, goals.get? id = some g ∧ isReady goals g = true := by
  unfold readyGoalIds at h
  obtain ⟨order, horder, h⟩ := bind_eq_ok.mp h
  cases h
  rw [List.mem_filter, (stableTopologicalOrder_ok horder).mem_iff, Dict.mem_keys]
  constructor
  · rintro ⟨⟨g, hg⟩, hready⟩
    rw [hg] at hready
    exact ⟨g, hg, hready⟩
  · rintro ⟨g, hg, hready⟩
    exact ⟨⟨g, hg⟩, by rw [hg]; exact hready⟩

/-! ## The three together -/

section Digest

variable {F : OrchestratorDigest} {m : Mission} {disk : Disk} {target workspace : Root}
  {now : Instant} {goals : Goals}

/-- The goals of an advance, from step to step. -/
structure Refreshes (F : OrchestratorDigest) (m : Mission) (disk : Disk)
    (target workspace : Root) (now : Instant) (goals : Goals) (seen blocked : Goals)
    (ready : List String) : Prop where
  refresh : refreshGoals F disk target workspace now m.goalOrder m.goals = .ok seen
  propagate : propagateDependencyStates seen m.missionPolicy = .ok blocked
  sort : readyGoalIds blocked = .ok ready
  mark : goals = markReady ready blocked

theorem refreshedGoals_ok (h : refreshedGoals F m disk target workspace now = .ok goals) :
    ∃ seen blocked ready, Refreshes F m disk target workspace now goals seen blocked ready := by
  unfold refreshedGoals at h
  obtain ⟨seen, hseen, h⟩ := bind_eq_ok.mp h
  obtain ⟨blocked, hblocked, h⟩ := bind_eq_ok.mp h
  obtain ⟨ready, hready, h⟩ := bind_eq_ok.mp h
  cases h
  exact ⟨seen, blocked, ready, hseen, hblocked, hready, rfl⟩

theorem mem_keys_refreshedGoals (h : refreshedGoals F m disk target workspace now = .ok goals) :
    (∀ id ∈ m.goalOrder, id ∈ goals.keys) ∧ ∀ id, id ∈ goals.keys ↔ id ∈ m.goals.keys := by
  obtain ⟨seen, blocked, ready, h⟩ := refreshedGoals_ok h
  obtain ⟨horder, hseen⟩ := mem_keys_of_refreshGoals h.refresh
  have hkeys : ∀ id, id ∈ goals.keys ↔ id ∈ m.goals.keys := by
    intro id
    rw [h.mark, mem_keys_markReady, (propagateDependencyStates_ok h.propagate).mem_keys, hseen]
  exact ⟨fun id hid => (hkeys id).mpr (horder id hid), hkeys⟩

variable {id : String}

/-- A goal that does not wait is left as its session has it. -/
theorem get?_of_settled {seen blocked : Goals} {ready : List String}
    (h : Refreshes F m disk target workspace now goals seen blocked ready) {g : Goal}
    (hg : seen.get? id = some g) (hsettled : isWaiting g.goalStatus = false) :
    goals.get? id = some g := by
  have hblocked : blocked.get? id = some g := by
    rcases propagateDependencyStates_ok h.propagate id with heq | ⟨x, hx, hwaiting, -⟩
    · rw [heq, hg]
    · rw [hg, Option.some.injEq] at hx
      rw [← hx, hsettled] at hwaiting
      cases hwaiting
  rw [h.mark, get?_markReady, if_neg, hblocked]
  intro hready
  obtain ⟨x, hx, hisReady⟩ := (readyGoalIds_ok h.sort).mp hready
  rw [hblocked, Option.some.injEq] at hx
  unfold isReady at hisReady
  rw [← hx, hsettled, Bool.false_and] at hisReady
  cases hisReady

/-- What an advance makes of a goal before it makes sessions: its session is read, or it waits and
is blocked or made ready. -/
theorem get?_refreshed {seen blocked : Goals} {ready : List String}
    (h : Refreshes F m disk target workspace now goals seen blocked ready) {g' : Goal}
    (hg' : goals.get? id = some g') :
    ∃ g, seen.get? id = some g ∧ (g' = g ∨ isWaiting g.goalStatus = true ∧
      (g' = blockGoal g ∨ g' = g.seenAs .ready g.failure g.sessionFingerprint)) := by
  rw [h.mark, get?_markReady] at hg'
  split at hg'
  · rename_i hready
    obtain ⟨x, hx, hisReady⟩ := (readyGoalIds_ok h.sort).mp hready
    have hwaiting : isWaiting x.goalStatus = true := (Bool.and_eq_true_iff.mp hisReady).1
    rw [hx] at hg'
    cases hg'
    rcases propagateDependencyStates_ok h.propagate id with heq | ⟨y, hy, -, hblock⟩
    · exact ⟨x, heq ▸ hx, .inr ⟨hwaiting, .inr rfl⟩⟩
    · rw [hx, Option.some.injEq] at hblock
      rw [hblock] at hwaiting
      cases hwaiting
  · rcases propagateDependencyStates_ok h.propagate id with heq | ⟨y, hy, hwaiting, hblock⟩
    · exact ⟨g', heq ▸ hg', .inl rfl⟩
    · rw [hg', Option.some.injEq] at hblock
      exact ⟨y, hy, .inr ⟨hwaiting, .inl hblock⟩⟩

/-- The plan, the session and the attempts of a goal are as before. -/
theorem refreshedGoals_frame (horder : m.goalOrder.Nodup)
    (h : refreshedGoals F m disk target workspace now = .ok goals) {g' : Goal}
    (hg' : goals.get? id = some g') :
    ∃ g status failure fingerprint, m.goals.get? id = some g ∧
      g' = g.seenAs status failure fingerprint := by
  obtain ⟨seen, blocked, ready, h⟩ := refreshedGoals_ok h
  obtain ⟨x, hx, hcases⟩ := get?_refreshed h hg'
  obtain ⟨hin, hout⟩ := refreshGoals_ok horder h.refresh
  obtain ⟨g, status, failure, fingerprint, hg, rfl⟩ : ∃ g status failure fingerprint,
      m.goals.get? id = some g ∧ x = g.seenAs status failure fingerprint := by
    by_cases hid : id ∈ m.goalOrder
    · obtain ⟨g, y, hg, hy, hseen⟩ := hin id hid
      rw [hx, Option.some.injEq] at hseen
      obtain ⟨status, failure, fingerprint, rfl⟩ := refreshGoal_frame hy
      exact ⟨g, status, failure, fingerprint, hg, hseen⟩
    · rw [hout id hid] at hx
      exact ⟨x, x.goalStatus, x.failure, x.sessionFingerprint, hx, rfl⟩
  rcases hcases with rfl | ⟨-, rfl | rfl⟩
  · exact ⟨g, _, _, _, hg, rfl⟩
  · exact ⟨g, _, _, _, hg, rfl⟩
  · exact ⟨g, _, _, _, hg, rfl⟩

end Digest

end Missions
end ZeroRuntime
