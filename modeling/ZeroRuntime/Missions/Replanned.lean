import Mathlib.Logic.Relation
import ZeroRuntime.Missions.Staging

/-!
# ZeroRuntime.Missions.Replanned

What a replan of the deterministic replanner does to the order of the work.

* `standIn`: the goal that stands for an old one, itself or its replacement.
* `Ordered`: the replan is staged and confirmed, completed goals stay as they are, and whatever
  depended on a goal that was not completed depends on what stands for it.
* `replan_ordered_iff`: this is so exactly when the replan is `Replannable`. The dependence on a
  goal that is given up is what goes wrong: it is dropped from a replacement, and in a goal that is
  kept it names a goal that is gone.
-/

namespace ZeroRuntime
namespace Missions

open Lib Sessions

/-! ## Missions as an advance leaves them -/

/-- What building the graph has checked. -/
structure Sound (m : Mission) : Prop where
  valid : ∀ id g, m.goals.get? id = some g → validateGoal m.missionId id g = []
  acyclic : Acyclic m.goals
  order : m.goalOrder.Perm m.goals.keys
  nonempty : m.goals.entries ≠ []
  length_le : m.goals.entries.length ≤ maxGoals

/-- The lists say what the statuses are. -/
structure Listed (m : Mission) : Prop where
  completed : m.completedGoalIds = idsWith m .completed
  failed : m.failedGoalIds = idsWith m .failed
  blocked : m.blockedGoalIds = idsWith m .blocked

theorem mem_idsWith {m : Mission} (hm : Sound m) {status : GoalStatus} {id : String} :
    id ∈ idsWith m status ↔ statusIn m.goals id = some status := by
  unfold idsWith
  rw [List.mem_filter, hm.order.mem_iff, decide_eq_true_eq]
  refine and_iff_right_of_imp fun h => ?_
  obtain ⟨g, hg, -⟩ := Option.map_eq_some_iff.mp h
  exact Dict.mem_keys.mpr ⟨g, hg⟩

/-! ## Texts -/

theorem revisionId_injective {a b : String} {n : ℕ} (h : revisionId a n = revisionId b n) :
    a = b := by
  unfold revisionId at h
  have hlist := congrArg String.toList h
  simp only [String.toList_append, List.append_assoc] at hlist
  exact String.toList_inj.mp (List.append_cancel_right hlist)

theorem length_revisionId (id : String) (n : ℕ) :
    id.toList.length < (revisionId id n).toList.length := by
  unfold revisionId
  have hten : ("-revision-" : String).toList.length = 10 := by decide
  simp only [String.toList_append, List.length_append, hten]
  omega

/-! ## The output of the deterministic replanner -/

/-- The goal that stands for an old one. -/
def standIn (r : ReplanningRequest) (id : String) : String :=
  if id ∈ removedIds r then revisionId id r.revisionNumber else id

def revisedDescription (g : Goal) : String :=
  "Replan after sealed failure evidence: " ++ g.goalDescription

section Digest

variable {F : MissionDigest} {m : Mission} {r : ReplanningRequest} {o : ReplannerOutput}
  {instruction : String} {scope : List String} {now : Instant}

/-- What a request takes from its mission. -/
structure RequestFor (m : Mission) (r : ReplanningRequest) : Prop where
  missionId : r.missionId = m.missionId
  failed : r.failedGoalIds = m.failedGoalIds
  blocked : r.blockedGoalIds = m.blockedGoalIds
  completed : r.completedGoalIds = m.completedGoalIds

theorem requestFor_of_ok (h : createReplanningRequest F m instruction scope now = .ok r) :
    RequestFor m r := by
  unfold createReplanningRequest at h
  split at h
  · cases h
  · split at h
    · cases h
    · split at h
      · cases h
      · obtain ⟨evidence, -, h⟩ := bind_eq_ok.mp h
        obtain ⟨completed, -, h⟩ := bind_eq_ok.mp h
        cases h
        exact ⟨rfl, rfl, rfl, rfl⟩

variable {id : String}

theorem mem_removedIds (hm : Sound m) (hl : Listed m) (hr : RequestFor m r) :
    id ∈ removedIds r ↔
      statusIn m.goals id = some .failed ∨ statusIn m.goals id = some .blocked := by
  unfold removedIds
  rw [mem_sortedSet, List.mem_append, hr.failed, hr.blocked, hl.failed, hl.blocked,
    mem_idsWith hm, mem_idsWith hm]

theorem removed_mem_keys (hm : Sound m) (hl : Listed m) (hr : RequestFor m r)
    (h : id ∈ removedIds r) : id ∈ m.goals.keys := by
  rw [Dict.mem_keys]
  rcases (mem_removedIds hm hl hr).mp h with h | h
  · obtain ⟨g, hg, -⟩ := Option.map_eq_some_iff.mp h
    exact ⟨g, hg⟩
  · obtain ⟨g, hg, -⟩ := Option.map_eq_some_iff.mp h
    exact ⟨g, hg⟩

/-- A completed goal is not given up. -/
theorem completed_not_removed (hm : Sound m) (hl : Listed m) (hr : RequestFor m r)
    (h : statusIn m.goals id = some .completed) : id ∉ removedIds r := by
  rw [mem_removedIds hm hl hr, h]
  simp

/-- The output that the replanner makes of a request. -/
structure DeterministicFor (m : Mission) (r : ReplanningRequest) (o : ReplannerOutput) : Prop where
  contract : o.contract = replannerOutputContract
  requestId : o.replanningRequestId = r.replanningRequestId
  missionId : o.missionId = r.missionId
  revision : o.revisionNumber = r.revisionNumber
  unchanged : o.unchangedGoalIds = m.goalOrder.filter fun id => id ∉ removedIds r
  removed : o.removedGoalIds = removedIds r
  new : ∃ sources : List (String × Goal), sources.map Prod.fst = removedIds r ∧
    (∀ e ∈ sources, m.goals.get? e.1 = some e.2) ∧
      newGoals o = sources.map fun e => replacement (removedIds r) r.revisionNumber e.1 e.2
  preserved : o.preservedCompletedGoals = sortedSet r.completedGoalIds
  expiresAt : o.expiresAt = r.expiresAt

theorem deterministicReplanner_ok (h : deterministicReplanner F r m = .ok o) :
    DeterministicFor m r o ∧
      o.outputFingerprint = F.output { o with outputFingerprint := "" } := by
  unfold deterministicReplanner at h
  obtain ⟨sources, hsources, h⟩ := bind_eq_ok.mp h
  obtain ⟨hids, hget⟩ := goalsNamed_ok hsources
  cases h
  exact ⟨⟨rfl, rfl, rfl, rfl, rfl, rfl, ⟨sources, hids, hget, List.append_nil _⟩, rfl, rfl⟩, rfl⟩

/-- The goals of the new graph: those that are kept and the replacements. -/
theorem mem_revisedGoals (hm : Sound m) (ho : DeterministicFor m r o) {e : String × Goal} :
    e ∈ revisedGoals m.missionId m.goals o ↔
      (e.1 ∉ removedIds r ∧ m.goals.get? e.1 = some e.2) ∨
        ∃ id ∈ removedIds r, ∃ g, m.goals.get? id = some g ∧
          e = (revisionId id r.revisionNumber,
            (replacement (removedIds r) r.revisionNumber id g).goal m.missionId) := by
  obtain ⟨sources, hids, hget, hnew⟩ := ho.new
  unfold revisedGoals
  rw [List.mem_append, mem_keptGoals, ho.unchanged, List.mem_filter, hm.order.mem_iff,
    decide_eq_true_eq, hnew, List.map_map, List.mem_map]
  constructor
  · rintro (⟨⟨-, hkept⟩, hg⟩ | ⟨s, hs, rfl⟩)
    · exact .inl ⟨hkept, hg⟩
    · refine .inr ⟨s.1, ?_, s.2, hget s hs, rfl⟩
      rw [← hids]
      exact List.mem_map_of_mem hs
  · rintro (⟨hkept, hg⟩ | ⟨id, hid, g, hg, rfl⟩)
    · exact .inl ⟨⟨Dict.mem_keys.mpr ⟨_, hg⟩, hkept⟩, hg⟩
    · rw [← hids] at hid
      obtain ⟨s, hs, rfl⟩ := List.mem_map.mp hid
      have hsame := hget s hs
      rw [hg, Option.some.injEq] at hsame
      exact .inr ⟨s, hs, by rw [hsame]; rfl⟩

/-! ## When the replan goes through -/

/-- The output is valid at the time `now`, or when the request was submitted. -/
def InTime (r : ReplanningRequest) (now : Option Instant) : Prop :=
  reached (now.getD (r.submittedAt * 1000000)) r.expiresAt = false

/-- The scopes of the goals given up are in the scope of the request, if it has one. -/
def ScopeKept (m : Mission) (r : ReplanningRequest) : Prop :=
  ∀ id ∈ removedIds r, ∀ g, m.goals.get? id = some g → r.allowedRevisionScope ≠ [] →
    ∀ s ∈ g.targetScope, ∃ a ∈ r.allowedRevisionScope, inScope s a = true

/-- What a mission must be like for its replan to keep the order of the work. -/
structure Replannable (F : MissionDigest) (m : Mission) (r : ReplanningRequest)
    (o : ReplannerOutput) (now : Option Instant) : Prop where
  status : mayStage m.missionStatus
  in_time : InTime r now
  scope : ScopeKept m r
  independent : ∀ id g, m.goals.get? id = some g → ∀ d ∈ g.dependsOn, d ∉ removedIds r
  fresh : ∀ id ∈ removedIds r, revisionId id r.revisionNumber ∈ m.goals.keys →
    revisionId id r.revisionNumber ∈ removedIds r
  short : ∀ id ∈ removedIds r, ∀ g, m.goals.get? id = some g →
    (revisedDescription g).toList.length ≤ maxDescriptionLength
  distinct : ((revisedGoals m.missionId m.goals o).map fun e => F.semantic e.2.semantic).Nodup

theorem sortTexts_completed (hm : Sound m) (hl : Listed m) (hr : RequestFor m r)
    (ho : DeterministicFor m r o) :
    sortTexts o.preservedCompletedGoals = sortTexts r.completedGoalIds := by
  have hnodup : r.completedGoalIds.Nodup := by
    rw [hr.completed, hl.completed]
    exact (hm.order.nodup_iff.mpr (nodup_keys m.goals)).filter _
  rw [ho.preserved]
  unfold sortedSet
  rw [hnodup.dedup]
  exact sortTexts_of_perm (sortTexts_perm _)

/-- Of all the checks of its output only two may fail. -/
theorem validate_deterministic (hm : Sound m) (hl : Listed m) (hr : RequestFor m r)
    (ho : DeterministicFor m r o)
    (hfp : o.outputFingerprint = F.output { o with outputFingerprint := "" })
    (now : Option Instant) :
    validateReplannerOutput F o r m now = [] ↔ ScopeKept m r ∧ InTime r now := by
  obtain ⟨sources, hids, hget, hnew⟩ := ho.new
  have hidentity : ¬(o.replanningRequestId ≠ r.replanningRequestId ∨ o.missionId ≠ m.missionId) := by
    rw [ho.requestId, ho.missionId, hr.missionId]
    simp
  have hcompleted : ¬∃ id ∈ r.completedGoalIds, id ∈ o.removedGoalIds := by
    rintro ⟨id, hid, hrem⟩
    rw [hr.completed, hl.completed, mem_idsWith hm] at hid
    rw [ho.removed] at hrem
    exact completed_not_removed hm hl hr hid hrem
  have hforbidden : ¬∃ g ∈ newGoals o, ∃ f ∈ g.extraFields, f ∈ forbiddenRevisionFields := by
    rw [hnew]
    rintro ⟨g, hg, f, hf, -⟩
    obtain ⟨e, -, rfl⟩ := List.mem_map.mp hg
    cases hf
  have hscope : (¬∃ g ∈ newGoals o, scopeExpanded r.allowedRevisionScope g = true) ↔
      ScopeKept m r := by
    rw [hnew]
    unfold ScopeKept
    constructor
    · intro h id hid g hg hallowed s hs
      rw [← hids] at hid
      obtain ⟨e, he, rfl⟩ := List.mem_map.mp hid
      have hsame := hget e he
      rw [hg, Option.some.injEq] at hsame
      by_contra hout
      refine h ⟨_, List.mem_map_of_mem he, ?_⟩
      unfold scopeExpanded
      rw [Bool.and_eq_true]
      refine ⟨by simpa using hallowed, List.any_eq_true.mpr ⟨s, ?_, ?_⟩⟩
      · exact hsame ▸ hs
      · simpa using hout
    · rintro h ⟨x, hx, hexp⟩
      obtain ⟨e, he, rfl⟩ := List.mem_map.mp hx
      unfold scopeExpanded at hexp
      rw [Bool.and_eq_true] at hexp
      obtain ⟨hallowed, hany⟩ := hexp
      obtain ⟨s, hs, hout⟩ := List.any_eq_true.mp hany
      have hid : e.1 ∈ removedIds r := by
        rw [← hids]
        exact List.mem_map_of_mem he
      obtain ⟨a, ha, hin⟩ := h e.1 hid e.2 (hget e he) (by simpa using hallowed) s hs
      have hmem : (r.allowedRevisionScope.any (inScope s)) = true := List.any_eq_true.mpr ⟨a, ha, hin⟩
      rw [hmem] at hout
      cases hout
  unfold validateReplannerOutput InTime
  rw [sortedSet_eq_nil]
  simp only [List.append_eq_nil_iff, reasonIf_eq_nil]
  rw [hscope, Bool.not_eq_true]
  constructor
  · rintro ⟨⟨-, hs⟩, ht⟩
    exact ⟨hs, ho.expiresAt ▸ ht⟩
  · rintro ⟨hs, ht⟩
    rw [← ho.expiresAt] at ht
    exact ⟨⟨⟨⟨⟨⟨⟨⟨not_not.mpr ho.contract, hidentity⟩, not_not.mpr hfp⟩, not_not.mpr ho.revision⟩,
      not_not.mpr (sortTexts_completed hm hl hr ho)⟩, hcompleted⟩, hforbidden⟩, hs⟩, ht⟩

/-! ## The new graph -/

/-- The replan is staged at `now` and confirmed, completed goals stay as they are, and the order of
the work is kept. -/
def Ordered (F : MissionDigest) (m : Mission) (r : ReplanningRequest) (o : ReplannerOutput)
    (now : Option Instant) (clock later : Instant) : Prop :=
  ∃ s c, stageReplan F m r o now clock = .ok s ∧
    confirmReplan F s (matchingConfirmation r o) later = .ok c ∧
    (∀ id g, m.goals.get? id = some g → g.goalStatus = .completed →
      c.goals.get? id = some g) ∧
    ∀ a b, Relation.TransGen (DependsOn m.goals) b a → a ∈ m.goals.keys →
      statusIn m.goals a ≠ some .completed →
        Relation.TransGen (DependsOn c.goals) (standIn r b) (standIn r a)

variable {s : Mission} {completed : List (String × Goal)} {b : BuiltGraph}

/-- The goals after confirming: completed ones as they were, the others as they were built. -/
theorem get?_confirmed (hm : Sound m) (hl : Listed m) (hr : RequestFor m r)
    (ho : DeterministicFor m r o)
    (hcompleted : goalsNamed m.goals m.completedGoalIds = .ok completed)
    (hb : Built F.toGoalDigest m.missionId (revisedGoals m.missionId m.goals o) true b)
    (id : String) (g : Goal) :
    (revised s completed b).goals.get? id = some g ↔
      (id, g) ∈ revisedGoals m.missionId m.goals o := by
  obtain ⟨hids, hget⟩ := goalsNamed_ok hcompleted
  change (putBack completed b.goals).get? id = some g ↔ _
  rw [get?_putBack hget, hids, ← hb.entries, Dict.mem_entries]
  split
  · rename_i hid
    rw [hl.completed, mem_idsWith hm] at hid
    obtain ⟨g₀, hg₀, -⟩ := Option.map_eq_some_iff.mp hid
    have hkept : (id, g₀) ∈ b.goals.entries := by
      rw [hb.entries, mem_revisedGoals hm ho]
      exact .inl ⟨completed_not_removed hm hl hr hid, hg₀⟩
    rw [Dict.mem_entries.mp hkept, hg₀]
  · rfl

/-- The edges of the new graph. -/
theorem dependsOn_confirmed (hm : Sound m) (hl : Listed m) (hr : RequestFor m r)
    (ho : DeterministicFor m r o)
    (hcompleted : goalsNamed m.goals m.completedGoalIds = .ok completed)
    (hb : Built F.toGoalDigest m.missionId (revisedGoals m.missionId m.goals o) true b)
    (x y : String) :
    DependsOn (revised s completed b).goals x y ↔
      (x ∉ removedIds r ∧ DependsOn m.goals x y) ∨
        ∃ id ∈ removedIds r, x = revisionId id r.revisionNumber ∧ y ∉ removedIds r ∧
          DependsOn m.goals id y := by
  unfold DependsOn
  constructor
  · rintro ⟨g, hg, hy⟩
    rw [get?_confirmed hm hl hr ho hcompleted hb, mem_revisedGoals hm ho] at hg
    rcases hg with ⟨hkept, hg⟩ | ⟨id, hid, source, hsource, heq⟩
    · exact .inl ⟨hkept, g, hg, hy⟩
    · cases heq
      have hdep := List.mem_filter.mp hy
      exact .inr ⟨id, hid, rfl, by simpa using hdep.2, source, hsource, hdep.1⟩
  · rintro (⟨hkept, g, hg, hy⟩ | ⟨id, hid, rfl, hfree, g, hg, hy⟩)
    · refine ⟨g, ?_, hy⟩
      rw [get?_confirmed hm hl hr ho hcompleted hb, mem_revisedGoals hm ho]
      exact .inl ⟨hkept, hg⟩
    · refine ⟨(replacement (removedIds r) r.revisionNumber id g).goal m.missionId, ?_,
        List.mem_filter.mpr ⟨hy, by simpa using hfree⟩⟩
      rw [get?_confirmed hm hl hr ho hcompleted hb, mem_revisedGoals hm ho]
      exact .inr ⟨id, hid, g, hg, rfl⟩

/-! ## Dependences that get lost -/

/-- Where the order is kept, what is given up and depended on has a namesake that is as well: the
goal that stands for it must be depended on again. -/
theorem depended_revision (hm : Sound m) (hl : Listed m) (hr : RequestFor m r)
    (ho : DeterministicFor m r o) (hfresh : ∀ id ∈ removedIds r,
      revisionId id r.revisionNumber ∈ m.goals.keys → revisionId id r.revisionNumber ∈ removedIds r)
    (hcompleted : goalsNamed m.goals m.completedGoalIds = .ok completed)
    (hb : Built F.toGoalDigest m.missionId (revisedGoals m.missionId m.goals o) true b)
    (hkept : ∀ x a, DependsOn m.goals x a → a ∈ removedIds r →
      Relation.TransGen (DependsOn (revised s completed b).goals) (standIn r x) (standIn r a))
    {x a : String} (hdep : DependsOn m.goals x a) (ha : a ∈ removedIds r) :
    revisionId a r.revisionNumber ∈ removedIds r ∧
      ∃ y, DependsOn m.goals y (revisionId a r.revisionNumber) := by
  have hpath := hkept x a hdep ha
  have hstand : standIn r a = revisionId a r.revisionNumber := if_pos ha
  rw [hstand] at hpath
  obtain ⟨y, -, hlast⟩ := Relation.TransGen.tail'_iff.mp hpath
  have hkey : ∀ z, DependsOn m.goals z (revisionId a r.revisionNumber) →
      revisionId a r.revisionNumber ∈ removedIds r := by
    rintro z ⟨g, hg, hd⟩
    obtain ⟨rank, hrank⟩ := hm.acyclic
    exact hfresh a ha (hrank z g hg _ hd).1
  rcases (dependsOn_confirmed hm hl hr ho hcompleted hb y _).mp hlast with
    ⟨-, hold⟩ | ⟨id, -, -, hfree, hold⟩
  · exact ⟨hkey y hold, y, hold⟩
  · exact absurd (hkey id hold) hfree

theorem exists_bound (f : String → ℕ) (ids : List String) : ∃ n, ∀ id ∈ ids, f id < n := by
  induction ids with
  | nil => exact ⟨0, fun _ h => absurd h List.not_mem_nil⟩
  | cons id ids ih =>
    obtain ⟨n, hn⟩ := ih
    refine ⟨n + f id + 1, fun x hx => ?_⟩
    rcases List.mem_cons.mp hx with rfl | hx
    · omega
    · have := hn x hx
      omega

/-- Where the order is kept no goal depends on one that is given up. -/
theorem independent_of_kept (hm : Sound m) (hl : Listed m) (hr : RequestFor m r)
    (ho : DeterministicFor m r o) (hfresh : ∀ id ∈ removedIds r,
      revisionId id r.revisionNumber ∈ m.goals.keys → revisionId id r.revisionNumber ∈ removedIds r)
    (hcompleted : goalsNamed m.goals m.completedGoalIds = .ok completed)
    (hb : Built F.toGoalDigest m.missionId (revisedGoals m.missionId m.goals o) true b)
    (hkept : ∀ x a, DependsOn m.goals x a → a ∈ removedIds r →
      Relation.TransGen (DependsOn (revised s completed b).goals) (standIn r x) (standIn r a)) :
    ∀ x a, DependsOn m.goals x a → a ∉ removedIds r := by
  obtain ⟨n, hn⟩ := exists_bound (fun id => id.toList.length) (removedIds r)
  -- longer and longer ids would be given up
  have hgrow : ∀ k x a, DependsOn m.goals x a → a ∈ removedIds r → n ≤ a.toList.length + k →
      False := by
    intro k
    induction k with
    | zero =>
      intro x a _ ha hle
      have := hn a ha
      omega
    | succ k ih =>
      intro x a hdep ha hle
      obtain ⟨hmem, y, hy⟩ :=
        depended_revision hm hl hr ho hfresh hcompleted hb hkept hdep ha
      have hlen := length_revisionId a r.revisionNumber
      exact ih y _ hy hmem (by omega)
  intro x a hdep ha
  exact hgrow n x a hdep ha (by omega)

/-! ## The goals of the new graph make one -/

theorem nodup_removedIds (r : ReplanningRequest) : (removedIds r).Nodup := nodup_sortedSet _

theorem ids_keptGoals {goals : Goals} {ids : List String} (h : ∀ id ∈ ids, id ∈ goals.keys) :
    (keptGoals goals ids).map Prod.fst = ids := by
  unfold keptGoals
  induction ids with
  | nil => rfl
  | cons id ids ih =>
    rw [List.forall_mem_cons] at h
    obtain ⟨g, hg⟩ := Dict.mem_keys.mp h.1
    rw [List.filterMap_cons_some (by rw [hg]; rfl), List.map_cons, ih h.2]

theorem ids_revisedGoals (hm : Sound m) (ho : DeterministicFor m r o) :
    (revisedGoals m.missionId m.goals o).map Prod.fst =
      (m.goalOrder.filter fun id => id ∉ removedIds r) ++
        (removedIds r).map fun id => revisionId id r.revisionNumber := by
  obtain ⟨sources, hids, -, hnew⟩ := ho.new
  have hkept : ∀ id ∈ o.unchangedGoalIds, id ∈ m.goals.keys := by
    intro id hid
    rw [ho.unchanged] at hid
    exact hm.order.mem_iff.mp (List.mem_filter.mp hid).1
  unfold revisedGoals
  rw [List.map_append, ids_keptGoals hkept, ho.unchanged, hnew, ← hids, List.map_map, List.map_map,
    List.map_map]
  rfl

/-- Every goal is kept or replaced, so there are as many as before. -/
theorem length_revisedGoals (hm : Sound m) (hl : Listed m) (hr : RequestFor m r)
    (ho : DeterministicFor m r o) :
    (revisedGoals m.missionId m.goals o).length = m.goals.entries.length := by
  have hids := congrArg List.length (ids_revisedGoals hm ho)
  rw [List.length_map, List.length_append, List.length_map] at hids
  have hnodup : m.goalOrder.Nodup := hm.order.nodup_iff.mpr (nodup_keys m.goals)
  have hremoved : (m.goalOrder.filter fun id => id ∈ removedIds r).Perm (removedIds r) := by
    refine (List.perm_ext_iff_of_nodup (hnodup.filter _) (nodup_removedIds r)).mpr fun id => ?_
    rw [List.mem_filter, decide_eq_true_eq, hm.order.mem_iff]
    exact and_iff_right_of_imp fun h => removed_mem_keys hm hl hr h
  have hsplit := List.length_eq_length_filter_add (l := m.goalOrder) fun id => id ∈ removedIds r
  have hkeys : m.goalOrder.length = m.goals.entries.length := by
    rw [hm.order.length_eq]
    exact List.length_map _
  have hcount := hremoved.length_eq
  have hrest : (m.goalOrder.filter fun id => !decide (id ∈ removedIds r)) =
      m.goalOrder.filter fun id => id ∉ removedIds r :=
    List.filter_congr fun id _ => by simp
  rw [hrest] at hsplit
  omega

/-- The ids of the new graph are distinct when no replacement is named as a goal that is kept. -/
theorem nodup_revisedGoals (hm : Sound m) (ho : DeterministicFor m r o) :
    ((revisedGoals m.missionId m.goals o).map Prod.fst).Nodup ↔
      ∀ id ∈ removedIds r, revisionId id r.revisionNumber ∈ m.goals.keys →
        revisionId id r.revisionNumber ∈ removedIds r := by
  have hnodup : m.goalOrder.Nodup := hm.order.nodup_iff.mpr (nodup_keys m.goals)
  have hnew : ((removedIds r).map fun id => revisionId id r.revisionNumber).Nodup :=
    (nodup_removedIds r).map fun _ _ h => revisionId_injective h
  rw [ids_revisedGoals hm ho, List.nodup_append']
  constructor
  · rintro ⟨-, -, hdisjoint⟩ id hid hkey
    by_contra hkept
    refine hdisjoint (List.mem_filter.mpr ⟨hm.order.mem_iff.mpr hkey, by simpa using hkept⟩) ?_
    exact List.mem_map.mpr ⟨id, hid, rfl⟩
  · intro hfresh
    refine ⟨hnodup.filter _, hnew, fun x hkept hx => ?_⟩
    obtain ⟨id, hid, rfl⟩ := List.mem_map.mp hx
    obtain ⟨hkey, hfree⟩ := List.mem_filter.mp hkept
    exact absurd (hfresh id hid (hm.order.mem_iff.mp hkey)) (by simpa using hfree)

/-- A replacement is a valid goal when its description, which got longer, is not too long. -/
theorem validateGoal_replacement {missionId : String} {g : Goal}
    (h : validateGoal missionId id g = []) (removed : List String) (n : ℕ) :
    validateGoal missionId (revisionId id n) ((replacement removed n id g).goal missionId) = [] ↔
      (revisedDescription g).toList.length ≤ maxDescriptionLength := by
  have htext : ((replacement removed n id g).goal missionId).goalDescription =
      revisedDescription g := rfl
  rw [validateGoal_eq_nil] at h ⊢
  rw [htext]
  obtain ⟨-, -, htype, -, -, hpriority, hdeps, hcriteria, -⟩ := h
  constructor
  · rintro ⟨-, -, -, -, hshort, -⟩
    exact hshort
  intro hshort
  have hid : isBlank (revisionId id n) = false := by
    refine isBlank_of_mem (c := '-') ?_ (by decide)
    simp [revisionId]
  have hdescription : isBlank (revisedDescription g) = false := by
    refine isBlank_of_mem (c := 'R') ?_ (by decide)
    unfold revisedDescription
    rw [String.toList_append]
    exact List.mem_append_left _ (by decide +kernel)
  refine ⟨hid, rfl, htype, hdescription, hshort, hpriority, ?_, hcriteria, rfl⟩
  exact (List.length_filter_le _ _).trans hdeps

/-- Ranks of the old goals are ranks of the new ones, with the replacements on top. -/
theorem ranked_revisedGoals (hm : Sound m) (ho : DeterministicFor m r o)
    (hindependent : ∀ id g, m.goals.get? id = some g → ∀ d ∈ g.dependsOn, d ∉ removedIds r)
    (hfresh : ∀ id ∈ removedIds r, revisionId id r.revisionNumber ∈ m.goals.keys →
      revisionId id r.revisionNumber ∈ removedIds r) :
    ∃ rank : String → ℕ, ∀ e ∈ revisedGoals m.missionId m.goals o, ∀ d ∈ e.2.dependsOn,
      d ∈ (revisedGoals m.missionId m.goals o).map Prod.fst ∧ rank d < rank e.1 := by
  obtain ⟨rank, hrank⟩ := hm.acyclic
  obtain ⟨top, htop⟩ := exists_bound rank m.goals.keys
  let kept : String → Prop := fun id => id ∈ m.goals.keys ∧ id ∉ removedIds r
  have hids : ∀ id, kept id → id ∈ (revisedGoals m.missionId m.goals o).map Prod.fst := by
    rintro id ⟨hkey, hfree⟩
    obtain ⟨g, hg⟩ := Dict.mem_keys.mp hkey
    exact List.mem_map_of_mem (a := (id, g)) ((mem_revisedGoals hm ho).mpr (.inl ⟨hfree, hg⟩))
  classical
  refine ⟨fun id => if kept id then rank id else top, fun e he d hd => ?_⟩
  rcases (mem_revisedGoals hm ho).mp he with ⟨hfree, hg⟩ | ⟨id, hid, g, hg, rfl⟩
  · have hself : kept e.1 := ⟨Dict.mem_keys.mpr ⟨_, hg⟩, hfree⟩
    obtain ⟨hkey, hlt⟩ := hrank e.1 e.2 hg d hd
    have hdep : kept d := ⟨hkey, hindependent e.1 e.2 hg d hd⟩
    refine ⟨hids d hdep, ?_⟩
    beta_reduce
    rw [if_pos hself, if_pos hdep]
    exact hlt
  · have hold : d ∈ g.dependsOn := (List.mem_filter.mp hd).1
    have hdep : kept d := ⟨(hrank id g hg d hold).1, hindependent id g hg d hold⟩
    have hself : ¬kept (revisionId id r.revisionNumber) := fun h => h.2 (hfresh id hid h.1)
    refine ⟨hids d hdep, ?_⟩
    beta_reduce
    rw [if_neg hself, if_pos hdep]
    exact htop d hdep.1

variable {t : Option Instant}

theorem buildable_revised (hm : Sound m) (hl : Listed m) (hr : RequestFor m r)
    (ho : DeterministicFor m r o) (h : Replannable F m r o t) :
    Buildable F.toGoalDigest m.missionId (revisedGoals m.missionId m.goals o) where
  nonempty := by
    intro hnil
    have hlen := length_revisedGoals hm hl hr ho
    rw [hnil] at hlen
    exact hm.nonempty (List.length_eq_zero_iff.mp hlen.symm)
  length_le := by
    rw [length_revisedGoals hm hl hr ho]
    exact hm.length_le
  ids := (nodup_revisedGoals hm ho).mpr h.fresh
  valid := by
    intro e he
    rcases (mem_revisedGoals hm ho).mp he with ⟨-, hg⟩ | ⟨id, hid, g, hg, rfl⟩
    · exact hm.valid e.1 e.2 hg
    · exact (validateGoal_replacement (hm.valid id g hg) _ _).mpr (h.short id hid g hg)
  semantics := h.distinct
  acyclic := ranked_revisedGoals hm ho h.independent h.fresh

/-! ## The order of the work -/

theorem goals_confirmed {now : Instant} :
    (sealMission F (moved (sealMission F (revised s completed b)) .running now)).goals =
      (revised s completed b).goals := rfl

theorem replannable_of_ordered (hm : Sound m) (hl : Listed m) (hr : RequestFor m r)
    (ho : DeterministicFor m r o)
    (hfp : o.outputFingerprint = F.output { o with outputFingerprint := "" })
    {clock later : Instant} (h : Ordered F m r o t clock later) : Replannable F m r o t := by
  obtain ⟨s, c, hs, hc, -, hkeep⟩ := h
  obtain ⟨hvalid, hmay, hstaged⟩ := stageReplan_ok hs
  obtain ⟨hscope, htime⟩ := (validate_deterministic hm hl hr ho hfp t).mp hvalid
  obtain ⟨-, completed, b, hcompleted, hbuild, hbuilt, rfl⟩ := confirmReplan_ok hstaged hc
  have hfresh := (nodup_revisedGoals hm ho).mp hbuild.ids
  have hkept : ∀ x a, DependsOn m.goals x a → a ∈ removedIds r →
      Relation.TransGen (DependsOn (revised s completed b).goals) (standIn r x) (standIn r a) := by
    intro x a hdep ha
    refine hkeep a x (.single hdep) (removed_mem_keys hm hl hr ha) fun hdone => ?_
    exact completed_not_removed hm hl hr hdone ha
  refine ⟨hmay, htime, hscope, fun id g hg d hd => ?_, hfresh, fun id hid g hg => ?_,
    hbuild.semantics⟩
  · exact independent_of_kept hm hl hr ho hfresh hcompleted hbuilt hkept id d ⟨g, hg, hd⟩
  · rw [← validateGoal_replacement (hm.valid id g hg) (removedIds r) r.revisionNumber]
    let e := (revisionId id r.revisionNumber,
      (replacement (removedIds r) r.revisionNumber id g).goal m.missionId)
    exact hbuild.valid e ((mem_revisedGoals hm ho).mpr (.inr ⟨id, hid, g, hg, rfl⟩))

theorem ordered_of_replannable (hm : Sound m) (hl : Listed m) (hr : RequestFor m r)
    (ho : DeterministicFor m r o)
    (hfp : o.outputFingerprint = F.output { o with outputFingerprint := "" })
    {clock later : Instant} (h : Replannable F m r o t) : Ordered F m r o t clock later := by
  have hvalid := (validate_deterministic hm hl hr ho hfp t).mpr ⟨h.scope, h.in_time⟩
  obtain ⟨s, hs⟩ := stageReplan_isOk clock hvalid h.status
  obtain ⟨-, -, hstaged⟩ := stageReplan_ok hs
  have hdone : ∀ id ∈ m.completedGoalIds, id ∈ m.goals.keys := by
    intro id hid
    rw [hl.completed] at hid
    exact hm.order.mem_iff.mp (List.mem_filter.mp hid).1
  obtain ⟨c, hc⟩ := confirmReplan_isOk later hstaged hdone (buildable_revised hm hl hr ho h)
  obtain ⟨-, completed, b, hcompleted, -, hbuilt, rfl⟩ := confirmReplan_ok hstaged hc
  refine ⟨s, _, hs, hc, fun id g hg hstatus => ?_, fun x y hpath _ _ => ?_⟩
  · rw [goals_confirmed, get?_confirmed hm hl hr ho hcompleted hbuilt, mem_revisedGoals hm ho]
    refine .inl ⟨completed_not_removed hm hl hr ?_, hg⟩
    simp [statusIn, hg, hstatus]
  · refine Relation.TransGen.lift (standIn r) (fun a d hdep => ?_) y x hpath
    have hfree : d ∉ removedIds r := by
      obtain ⟨g, hg, hd⟩ := hdep
      exact h.independent a g hg d hd
    have hstand : standIn r d = d := if_neg hfree
    change DependsOn (revised s completed b).goals (standIn r a) (standIn r d)
    rw [dependsOn_confirmed hm hl hr ho hcompleted hbuilt, hstand]
    by_cases ha : a ∈ removedIds r
    · exact .inr ⟨a, ha, if_pos ha, hfree, hdep⟩
    · have hself : standIn r a = a := if_neg ha
      rw [hself]
      exact .inl ⟨ha, hdep⟩

/-- A replan of the deterministic replanner keeps the order of the work exactly when the mission is
replannable: no goal may depend on one that is given up. -/
theorem replan_ordered_iff (hm : Sound m) (hl : Listed m)
    (hr : createReplanningRequest F m instruction scope now = .ok r)
    (ho : deterministicReplanner F r m = .ok o) (t : Option Instant) (clock later : Instant) :
    Ordered F m r o t clock later ↔ Replannable F m r o t := by
  have hreq := requestFor_of_ok hr
  obtain ⟨hdet, hfp⟩ := deterministicReplanner_ok ho
  exact ⟨replannable_of_ordered hm hl hreq hdet hfp, ordered_of_replannable hm hl hreq hdet hfp⟩

end Digest

/-! ## Two goals in a row -/

def sampleGoal (title : String) (status : GoalStatus) (dependsOn : List String) : Goal where
  missionId := "mission"
  goalTitle := title
  goalDescription := title
  goalType := "modify"
  goalStatus := status
  priority := 0
  dependsOn := dependsOn
  requiredCapabilities := []
  targetScope := ["src"]
  acceptanceCriteria := []
  validationRequirements := []
  maxAttempts := 3

def sampleGoals (first second : GoalStatus) : Goals :=
  (Dict.empty.set "a" (sampleGoal "First" first [])).set "b" (sampleGoal "Second" second ["a"])

/-- The goal `b` depends on `a`. -/
def sampleMission (status : MissionStatus) (first second : GoalStatus) : Mission where
  contract := missionContract
  missionId := "mission"
  missionStatus := status
  createdAt := 0
  updatedAt := 0
  expiresAt := missionLifetime
  missionPolicy := "block_dependents"
  goalGraph := graphOf sampleDigest.toGoalDigest "mission" (sampleGoals first second) ["a", "b"] true
  goalOrder := ["a", "b"]
  goals := sampleGoals first second
  completedGoalIds :=
    ["a", "b"].filter fun id => statusIn (sampleGoals first second) id = some .completed
  failedGoalIds :=
    ["a", "b"].filter fun id => statusIn (sampleGoals first second) id = some .failed
  blockedGoalIds :=
    ["a", "b"].filter fun id => statusIn (sampleGoals first second) id = some .blocked

theorem sampleMission_listed (status : MissionStatus) (first second : GoalStatus) :
    Listed (sampleMission status first second) := ⟨rfl, rfl, rfl⟩

theorem get?_sampleGoals {first second : GoalStatus} {id : String} {g : Goal}
    (h : (sampleGoals first second).get? id = some g) :
    (id = "a" ∧ g = sampleGoal "First" first []) ∨
      (id = "b" ∧ g = sampleGoal "Second" second ["a"]) := by
  have hmem := Dict.mem_entries.mpr h
  have hentries : (sampleGoals first second).entries =
      [("a", sampleGoal "First" first []), ("b", sampleGoal "Second" second ["a"])] := by
    rfl
  rw [hentries] at hmem
  simpa using hmem

theorem sampleMission_sound (status : MissionStatus) (first second : GoalStatus) :
    Sound (sampleMission status first second) where
  valid := by
    -- what is checked of a goal does not depend on its status
    have ha : validateGoal "mission" "a" (sampleGoal "First" .pending []) = [] := by
      decide +kernel
    have hb : validateGoal "mission" "b" (sampleGoal "Second" .pending ["a"]) = [] := by
      decide +kernel
    intro id g hg
    rcases get?_sampleGoals hg with ⟨rfl, rfl⟩ | ⟨rfl, rfl⟩
    · rw [validateGoal_eq_nil] at ha ⊢
      exact ha
    · rw [validateGoal_eq_nil] at hb ⊢
      exact hb
  acyclic := by
    refine ⟨fun id => if id = "a" then 0 else 1, fun id g hg d hd => ?_⟩
    rcases get?_sampleGoals hg with ⟨rfl, rfl⟩ | ⟨rfl, rfl⟩
    · cases hd
    · obtain rfl := List.mem_singleton.mp hd
      exact ⟨List.mem_cons_self, by decide⟩
  order := List.Perm.refl _
  nonempty := List.cons_ne_nil _ _
  length_le := Nat.le_of_ble_eq_true rfl

/-- With the first goal done and the second failed the replan keeps the order. -/
theorem replan_ordered_sample : ∃ r o,
    createReplanningRequest sampleDigest (sampleMission .partiallyCompleted .completed .failed)
      "" [] 0 = .ok r ∧
    deterministicReplanner sampleDigest r
      (sampleMission .partiallyCompleted .completed .failed) = .ok o ∧
    Ordered sampleDigest (sampleMission .partiallyCompleted .completed .failed) r o none 0 0 := by
  refine ⟨_, _, rfl, rfl, ?_⟩
  refine (replan_ordered_iff (sampleMission_sound _ _ _) (sampleMission_listed _ _ _) rfl rfl
    none 0 0).mpr ⟨?_, ?_, ?_, ?_, ?_, ?_, ?_⟩
  · exact .inr (by decide)
  · unfold InTime
    decide +kernel
  · intro id hid g hg hallowed
    exact absurd rfl hallowed
  · intro id g hg d hd
    rcases get?_sampleGoals hg with ⟨rfl, rfl⟩ | ⟨rfl, rfl⟩
    · cases hd
    · obtain rfl := List.mem_singleton.mp hd
      decide +kernel
  · decide +kernel
  · intro id hid g hg
    rcases get?_sampleGoals hg with ⟨rfl, rfl⟩ | ⟨rfl, rfl⟩
    · decide +kernel
    · decide +kernel
  · decide +kernel

/-- With the first goal failed and the second blocked by it, the replacement of the second does not
wait for the replacement of the first. -/
theorem replacement_order_lost : ∃ r o s c,
    createReplanningRequest sampleDigest (sampleMission .failed .failed .blocked) "" [] 0 = .ok r ∧
    deterministicReplanner sampleDigest r (sampleMission .failed .failed .blocked) = .ok o ∧
    stageReplan sampleDigest (sampleMission .failed .failed .blocked) r o none 0 = .ok s ∧
    confirmReplan sampleDigest s (matchingConfirmation r o) 0 = .ok c ∧
    DependsOn (sampleMission .failed .failed .blocked).goals "b" "a" ∧
    ¬Relation.TransGen (DependsOn c.goals) (standIn r "b") (standIn r "a") := by
  refine ⟨_, _, _, _, rfl, rfl, rfl, rfl, ⟨_, rfl, List.mem_cons_self⟩, fun hpath => ?_⟩
  obtain ⟨y, ⟨g, hg, hy⟩, -⟩ := Relation.TransGen.head'_iff.mp hpath
  cases hg
  cases hy

end Missions
end ZeroRuntime
