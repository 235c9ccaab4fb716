import ZeroRuntime.Missions.Goals

/-!
# ZeroRuntime.Missions.Ordered

What the order of a goal graph is worth.

* `NeedsGoal`: one goal depends on another.
* `stableTopologicalOrder` raises on a missing dependency and on a cycle only, puts every goal after
  the goals it depends on, and answers the same however the goals were put in.
* A graph that `buildGoalGraph` makes is one that `validateGoalGraph` accepts.
-/

namespace ZeroRuntime
namespace Missions

open Lib Sessions

/-! ## Dependencies -/

def NeedsGoal (goals : Goals) (a b : String) : Prop :=
  ∃ g, goals.get? a = some g ∧ b ∈ g.dependsOn

/-- A goal depends on one that is not there. -/
def MissingDependency (goals : Goals) : Prop := ∃ a b, NeedsGoal goals a b ∧ b ∉ goals.keys

/-- A goal depends on itself, directly or through others. -/
def HasCycle (goals : Goals) : Prop := ∃ a, Relation.TransGen (NeedsGoal goals) a a

theorem waitsFor_waits (goals : Goals) : Layers.WaitsFor (waits goals) = NeedsGoal goals := by
  funext a b
  unfold Layers.WaitsFor NeedsGoal
  refine propext ⟨?_, ?_⟩
  · rintro ⟨ds, hds, hb⟩
    obtain ⟨g, hg, rfl⟩ := mem_waits.mp hds
    exact ⟨g, hg, hb⟩
  · rintro ⟨g, hg, hb⟩
    exact ⟨g.dependsOn, mem_waits.mpr ⟨g, hg, rfl⟩, hb⟩

variable {goals : Goals}

theorem acyclic_iff : Acyclic goals ↔ ¬(MissingDependency goals ∨ HasCycle goals) := by
  rw [← ranked_waits, Layers.ranked_iff, waitsFor_waits, keys_waits, not_or]
  unfold MissingDependency HasCycle
  refine and_congr ⟨?_, ?_⟩ (not_exists.symm)
  · rintro hkeys ⟨a, b, ⟨g, hg, hb⟩, hmissing⟩
    exact hmissing (hkeys (a, g.dependsOn) (mem_waits.mpr ⟨g, hg, rfl⟩) b hb)
  · rintro hnone ⟨a, ds⟩ hds b hb
    obtain ⟨g, hg, rfl⟩ := mem_waits.mp hds
    by_contra hmissing
    exact hnone ⟨a, b, ⟨g, hg, hb⟩, hmissing⟩

theorem stableTopologicalOrder_error :
    (∃ e, stableTopologicalOrder goals = .error e) ↔ MissingDependency goals ∨ HasCycle goals := by
  have hok := @stableTopologicalOrder_isOk goals
  rw [acyclic_iff] at hok
  cases horder : stableTopologicalOrder goals with
  | ok order =>
    have hnot := hok.mp ⟨order, horder⟩
    exact ⟨fun ⟨e, he⟩ => (by cases he), fun h => absurd h hnot⟩
  | error e =>
    refine ⟨fun _ => ?_, fun _ => ⟨e, rfl⟩⟩
    by_contra hnot
    obtain ⟨order, hsome⟩ := hok.mpr hnot
    rw [horder] at hsome
    cases hsome

/-! ## The order -/

theorem stableTopologicalOrder_after {order : List String}
    (h : stableTopologicalOrder goals = .ok order) {a b : String} (hneeds : NeedsGoal goals a b) :
    order.idxOf b < order.idxOf a := by
  unfold stableTopologicalOrder at h
  split at h
  · rename_i found hfound
    cases h
    have hnodup : (Layers.keys (waits goals)).Nodup := by
      rw [keys_waits]
      exact nodup_keys goals
    rw [← waitsFor_waits] at hneeds
    exact Layers.layers_after (arrange_perm _) hnodup hfound hneeds
  · cases h

instance (prio : String → ℤ) : Std.Total (OrderLe prio) := ⟨fun a b => by
  unfold OrderLe
  rcases lt_trichotomy (prio a) (prio b) with hlt | heq | hgt
  · exact .inr (.inl hlt)
  · rcases TextLe.total a b with hab | hba
    · exact .inl (.inr ⟨heq, hab⟩)
    · exact .inr (.inr ⟨heq.symm, hba⟩)
  · exact .inl (.inl hgt)⟩

instance (prio : String → ℤ) : IsTrans String (OrderLe prio) := ⟨fun a b c => by
  unfold OrderLe
  rintro (hab | ⟨hab, hle⟩) (hbc | ⟨hbc, hle'⟩)
  · exact .inl (by omega)
  · exact .inl (by omega)
  · exact .inl (by omega)
  · exact .inr ⟨by omega, hle.trans hle'⟩⟩

theorem OrderLe.antisymm {prio : String → ℤ} {a b : String} (h : OrderLe prio a b)
    (h' : OrderLe prio b a) : a = b := by
  unfold OrderLe at h h'
  rcases h with h | ⟨heq, hle⟩
  · rcases h' with h' | ⟨heq', -⟩ <;> omega
  · rcases h' with h' | ⟨-, hle'⟩
    · omega
    · exact hle.antisymm hle'

theorem arrange_of_perm (prio : String → ℤ) (ids ids' : List String) (h : ids.Perm ids') :
    arrange prio ids = arrange prio ids' :=
  ((arrange_perm prio ids).trans (h.trans (arrange_perm prio ids').symm)).eq_of_pairwise
    (fun _ _ _ _ hab hba => hab.antisymm hba)
    (List.pairwise_insertionSort (OrderLe prio) ids)
    (List.pairwise_insertionSort (OrderLe prio) ids')

theorem get?_of_perm {goals' : Goals} (h : goals.entries.Perm goals'.entries) (id : String) :
    goals.get? id = goals'.get? id := by
  refine Option.ext fun g => ?_
  rw [← Dict.mem_entries, ← Dict.mem_entries]
  exact h.mem_iff

theorem stableTopologicalOrder_of_perm {goals' : Goals} (h : goals.entries.Perm goals'.entries) :
    stableTopologicalOrder goals = stableTopologicalOrder goals' := by
  have hprio : priorityIn goals = priorityIn goals' := by
    funext id
    unfold priorityIn
    rw [get?_of_perm h]
  have hlayers : Layers.layers (arrange (priorityIn goals)) goals.entries.length (waits goals) =
      Layers.layers (arrange (priorityIn goals')) goals'.entries.length (waits goals') := by
    rw [hprio, h.length_eq]
    exact Layers.layers_congr (arrange_of_perm _) (h.map _)
  unfold stableTopologicalOrder
  rw [hlayers]

/-! ## A graph that was built is valid -/

theorem validateGoalGraph_built {F : GoalDigest} {items : List GoalItem} {missionId : String}
    {confirmed : Bool} {b : BuiltGraph} (h : buildGoalGraph F items missionId confirmed = .ok b) :
    validateGoalGraph F b.graph b.goals missionId = [] := by
  obtain ⟨hbuildable, hbuilt⟩ := buildGoalGraph_ok h
  have hgoals : b.goals.entries.flatMap (fun e => validateGoal missionId e.1 e.2) = [] := by
    rw [hbuilt.entries, List.flatMap_eq_nil_iff]
    exact hbuildable.valid
  unfold validateGoalGraph
  rw [hgoals, hbuilt.order, hbuilt.graph]
  simp [reasonIf, graphOf, sealGraph]

/-- The order of goals raises on a missing dependency and on a cycle only; otherwise it has every
goal once, after the goals it depends on, whatever the order they were put in. What a plan is built
into passes the validation. -/
theorem goals_ordered :
    (∀ goals : Goals,
      ((∃ e, stableTopologicalOrder goals = .error e) ↔
        MissingDependency goals ∨ HasCycle goals) ∧
      (∀ order, stableTopologicalOrder goals = .ok order →
        order.Perm goals.keys ∧
          ∀ a b, NeedsGoal goals a b → order.idxOf b < order.idxOf a) ∧
      ∀ goals' : Goals, goals.entries.Perm goals'.entries →
        stableTopologicalOrder goals = stableTopologicalOrder goals') ∧
    ∀ (F : GoalDigest) (items : List GoalItem) (missionId : String) (confirmed : Bool)
      (b : BuiltGraph), buildGoalGraph F items missionId confirmed = .ok b →
        validateGoalGraph F b.graph b.goals missionId = [] := by
  refine ⟨fun goals => ⟨stableTopologicalOrder_error, fun order horder => ⟨?_, ?_⟩, ?_⟩, ?_⟩
  · exact stableTopologicalOrder_ok horder
  · exact fun a b hneeds => stableTopologicalOrder_after horder hneeds
  · exact fun goals' h => stableTopologicalOrder_of_perm h
  · exact fun F items missionId confirmed b hbuilt => validateGoalGraph_built hbuilt

end Missions
end ZeroRuntime
