import ZeroRuntime.Missions.Accepted
import ZeroRuntime.Missions.Advanced
import ZeroRuntime.Missions.Gates

/-!
# ZeroRuntime.Missions.Reached

What a mission keeps from its creation on, whatever is called.

* `Created`: the mission that a plan makes.
* `Goal.Follows`: a goal stays the goal of the plan, with another status, session or priority.
* `Reached`: the invariant. `reached_created`, `reached_advanced` and `reached_submitted` say that
  every call keeps it.
-/

namespace ZeroRuntime
namespace Missions

open Lib Sessions

/-! ## The mission of a plan -/

section Digest

variable {F : OrchestratorDigest} {input targetPath : String} {plan : Option (List GoalItem)}
  {target workspace : Root} {config : MissionConfig} {now : Instant} {disk : Disk} {m : Mission}

def Mission.withPaths (m : Mission) (config : MissionConfig) : Mission :=
  { m with missionPath := config.missionPath, schedulerStatePath := config.schedulerStatePath }

/-- The mission that a plan makes: its goals are fresh, and nothing has happened yet. -/
structure Created (F : OrchestratorDigest) (plan : List GoalItem) (config : MissionConfig)
    (now : Instant) (missionId : String) (b : BuiltGraph) (m : Mission) : Prop where
  buildable : Buildable F.toGoalDigest missionId (normalizeFrom F.toGoalDigest missionId 0 plan)
  built : Built F.toGoalDigest missionId (normalizeFrom F.toGoalDigest missionId 0 plan) false b
  mission : m = sealMission F.toMissionDigest (Mission.withPaths
    (sealMission F.toMissionDigest (moved (sealMission F.toMissionDigest (moved
      (sealMission F.toMissionDigest (newMission missionId b config now)) .planning now))
      .waitingForPlanConfirmation now)) config)

theorem created_of_ok
    (h : (createMission F input plan target workspace targetPath config now disk).result = .ok m) :
    ∃ items missionId b, plan = some items ∧ Created F items config now missionId b m := by
  unfold createMission at h
  split at h
  · cases h
  rename_i items
  split at h
  · cases h
  obtain ⟨contract, hcontract, h⟩ := Logged.result_bind.mp h
  change createMissionContract F.toMissionDigest input items target workspace config now =
    .ok contract at hcontract
  have hsave : (saveIf F (contract.withPaths config)).result = .ok m := by
    dsimp only at h
    split at h
    · split at h
      · exact h
      · exact h
    · exact h
  rw [saveIf_eq] at hsave
  cases hsave
  unfold createMissionContract at hcontract
  split at hcontract
  · rename_i t w
    obtain ⟨b, hb, hcontract⟩ := bind_eq_ok.mp hcontract
    obtain ⟨x, hx, hcontract⟩ := bind_eq_ok.mp hcontract
    obtain ⟨-, rfl⟩ := transitionMission_ok hx
    obtain ⟨-, rfl⟩ := transitionMission_ok hcontract
    obtain ⟨hbuildable, hbuilt⟩ := buildGoalGraph_ok hb
    exact ⟨items, _, b, rfl, hbuildable, hbuilt, rfl⟩
  · cases hcontract

end Digest

/-! ## Another status -/

/-- The mission is the same but for its status, its times, its failure, its inputs and its seal. -/
structure StatusOnly (m m' : Mission) : Prop where
  contract : m'.contract = m.contract
  missionId : m'.missionId = m.missionId
  expiresAt : m'.expiresAt = m.expiresAt
  missionPolicy : m'.missionPolicy = m.missionPolicy
  goalOrder : m'.goalOrder = m.goalOrder
  goals : m'.goals = m.goals
  completedGoalIds : m'.completedGoalIds = m.completedGoalIds
  failedGoalIds : m'.failedGoalIds = m.failedGoalIds
  blockedGoalIds : m'.blockedGoalIds = m.blockedGoalIds
  sessionReferences : m'.sessionReferences = m.sessionReferences
  replanningHistory : m'.replanningHistory = m.replanningHistory
  missionPath : m'.missionPath = m.missionPath
  schedulerStatePath : m'.schedulerStatePath = m.schedulerStatePath

namespace StatusOnly

variable {m m' m'' : Mission}

theorem refl (m : Mission) : StatusOnly m m :=
  ⟨rfl, rfl, rfl, rfl, rfl, rfl, rfl, rfl, rfl, rfl, rfl, rfl, rfl⟩

theorem sealed {D : MissionDigest} (h : StatusOnly m m') : StatusOnly m (sealMission D m') :=
  ⟨h.1, h.2, h.3, h.4, h.5, h.6, h.7, h.8, h.9, h.10, h.11, h.12, h.13⟩

theorem moved (h : StatusOnly m m') (status : MissionStatus) (now : Instant) :
    StatusOnly m (moved m' status now) := by
  unfold Missions.moved
  dsimp only
  split
  · exact ⟨h.1, h.2, h.3, h.4, h.5, h.6, h.7, h.8, h.9, h.10, h.11, h.12, h.13⟩
  · exact ⟨h.1, h.2, h.3, h.4, h.5, h.6, h.7, h.8, h.9, h.10, h.11, h.12, h.13⟩

end StatusOnly

variable {m : Mission}

theorem settleStatus_ok {F : OrchestratorDigest} {settled : Mission} {now : Instant}
    (h : settleStatus F m now = .ok settled) :
    StatusOnly m settled ∧ settled.missionStatus = goalsStatus m.goals := by
  unfold settleStatus at h
  change (if goalsStatus m.goals ≠ m.missionStatus then
    transitionMission F.toMissionDigest m (goalsStatus m.goals) now else .ok m) = _ at h
  split at h
  · obtain ⟨-, rfl⟩ := transitionMission_ok h
    exact ⟨((StatusOnly.refl m).moved _ _).sealed, status_sealed _ _ _⟩
  · rename_i heq
    cases h
    exact ⟨.refl m, (not_not.mp heq).symm⟩

/-! ## Goals that stay the goals of their plan -/

/-- What a plan says of a goal, its priority apart. -/
def Goal.planned (g : Goal) : Goal := { freshGoal g with goalStatus := .pending, priority := 0 }

def Goal.InRange (g : Goal) : Prop := -100 ≤ g.priority ∧ g.priority ≤ 100

/-- A goal later on. -/
structure Goal.Follows (g g' : Goal) : Prop where
  planned : g'.planned = g.planned
  inRange : g.InRange → g'.InRange

namespace Goal.Follows

variable {g g' g'' : Goal}

theorem refl (g : Goal) : g.Follows g := ⟨rfl, id⟩

theorem of_eq (h : g'.planned = g.planned) (hpriority : g'.priority = g.priority) :
    g.Follows g' where
  planned := h
  inRange := by
    unfold Goal.InRange
    rw [hpriority]
    exact id

theorem field {α : Type} (h : g.Follows g') (f : Goal → α) : f g'.planned = f g.planned :=
  congrArg f h.planned

theorem dependsOn (h : g.Follows g') : g'.dependsOn = g.dependsOn := h.field Goal.dependsOn

theorem valid (h : g.Follows g') {missionId id : String} (hg : validateGoal missionId id g = []) :
    validateGoal missionId id g' = [] := by
  rw [validateGoal_eq_nil] at hg ⊢
  obtain ⟨hid, hmission, htype, hdescription, hlength, hrange, hdeps, hcriteria, hextra⟩ := hg
  have hmission' : g'.missionId = g.missionId := h.field Goal.missionId
  have htype' : g'.goalType = g.goalType := h.field Goal.goalType
  have hdescription' : g'.goalDescription = g.goalDescription := h.field Goal.goalDescription
  have hcriteria' : g'.acceptanceCriteria = g.acceptanceCriteria :=
    h.field Goal.acceptanceCriteria
  have hextra' : g'.extraFields = g.extraFields := h.field Goal.extraFields
  rw [hmission', htype', hdescription', h.dependsOn, hcriteria', hextra']
  exact ⟨hid, hmission, htype, hdescription, hlength, h.inRange hrange, hdeps, hcriteria, hextra⟩

end Goal.Follows

/-- All goals of a mission are there later on. -/
structure KeepsGoals (m m' : Mission) : Prop where
  missionId : m'.missionId = m.missionId
  order : m'.goalOrder = m.goalOrder
  keys : ∀ id, id ∈ m'.goals.keys ↔ id ∈ m.goals.keys
  goals : ∀ id g', m'.goals.get? id = some g' → ∃ g, m.goals.get? id = some g ∧ g.Follows g'

variable {m' : Mission}

theorem Sound.keeps (hm : Sound m) (h : KeepsGoals m m') : Sound m' := by
  have hperm : m'.goals.keys.Perm m.goals.keys :=
    (List.perm_ext_iff_of_nodup (nodup_keys _) (nodup_keys _)).mpr h.keys
  have hlength : m'.goals.entries.length = m.goals.entries.length := by
    have hkeys := hperm.length_eq
    unfold Dict.keys at hkeys
    rwa [List.length_map, List.length_map] at hkeys
  refine
    { valid := fun id g' hg' => ?_
      acyclic := ?_
      order := ?_
      nonempty := ?_
      length_le := hlength ▸ hm.length_le }
  · obtain ⟨g, hg, hfollows⟩ := h.goals id g' hg'
    rw [h.missionId]
    exact hfollows.valid (hm.valid id g hg)
  · obtain ⟨rank, hrank⟩ := hm.acyclic
    refine ⟨rank, fun id g' hg' d hd => ?_⟩
    obtain ⟨g, hg, hfollows⟩ := h.goals id g' hg'
    rw [hfollows.dependsOn] at hd
    obtain ⟨hmem, hlt⟩ := hrank id g hg d hd
    exact ⟨(h.keys d).mpr hmem, hlt⟩
  · rw [h.order]
    exact hm.order.trans hperm.symm
  · intro hnil
    rw [hnil] at hlength
    exact hm.nonempty (List.length_eq_zero_iff.mp hlength.symm)

theorem KeepsGoals.of_statusOnly {x : Mission} (h : KeepsGoals m x) (h' : StatusOnly x m') :
    KeepsGoals m m' where
  missionId := h'.missionId.trans h.missionId
  order := h'.goalOrder.trans h.order
  keys := by
    rw [h'.goals]
    exact h.keys
  goals := by
    rw [h'.goals]
    exact h.goals

theorem KeepsGoals.of_eq (hid : m'.missionId = m.missionId) (horder : m'.goalOrder = m.goalOrder)
    (hgoals : m'.goals = m.goals) : KeepsGoals m m' where
  missionId := hid
  order := horder
  keys := fun id => by rw [hgoals]
  goals := by
    rw [hgoals]
    exact fun _ g hg => ⟨g, hg, .refl g⟩

theorem KeepsGoals.set {id : String} {g g' : Goal} (hg : m.goals.get? id = some g)
    (hfollows : g.Follows g') (hid : m'.missionId = m.missionId)
    (horder : m'.goalOrder = m.goalOrder) (hgoals : m'.goals = m.goals.set id g') :
    KeepsGoals m m' where
  missionId := hid
  order := horder
  keys := by
    intro i
    rw [hgoals, Dict.mem_keys, Dict.mem_keys, Dict.get?_set]
    by_cases hi : i = id
    · rw [if_pos hi, hi]
      exact iff_of_true ⟨_, rfl⟩ ⟨g, hg⟩
    · rw [if_neg hi]
  goals := by
    intro i x hx
    rw [hgoals, Dict.get?_set] at hx
    split at hx
    · rename_i hi
      cases hx
      exact ⟨g, hi ▸ hg, hfollows⟩
    · exact ⟨x, hx, .refl x⟩

/-! ## The invariant -/

/-- The goal is completed. -/
def CompletedIn (m : Mission) (id : String) : Prop := statusIn m.goals id = some .completed

theorem completedIn_iff {id : String} :
    CompletedIn m id ↔ ∃ g, m.goals.get? id = some g ∧ g.goalStatus = .completed := by
  unfold CompletedIn statusIn
  rw [Option.map_eq_some_iff]

/-- A replan that waits keeps every completed goal, and every goal if it brings no other. -/
structure Spares (m : Mission) (record : ReplanRecord) : Prop where
  completed : ∀ id, CompletedIn m id → id ∈ record.output.unchangedGoalIds
  all : newGoals record.output = [] → ∀ id ∈ m.goals.keys, id ∈ record.output.unchangedGoalIds

/-- What a mission keeps from its creation on. -/
structure Reached (m : Mission) : Prop where
  sound : Sound m
  listed : ∀ id ∈ m.completedGoalIds, CompletedIn m id
  apart : ∀ id, CompletedIn m id → id ∉ m.failedGoalIds ++ m.blockedGoalIds
  staged : m.missionStatus = .waitingForReplanConfirmation → ∀ record,
    m.replanningHistory.getLast? = some record → Spares m record

/-- The completed goals are the same, and the lists are. -/
structure SameCompleted (m m' : Mission) : Prop where
  completed : ∀ id, CompletedIn m' id ↔ CompletedIn m id
  completedGoalIds : m'.completedGoalIds = m.completedGoalIds
  failedGoalIds : m'.failedGoalIds = m.failedGoalIds
  blockedGoalIds : m'.blockedGoalIds = m.blockedGoalIds

theorem SameCompleted.of_eq (hgoals : m'.goals = m.goals)
    (hcompleted : m'.completedGoalIds = m.completedGoalIds)
    (hfailed : m'.failedGoalIds = m.failedGoalIds) (hblocked : m'.blockedGoalIds = m.blockedGoalIds)
    : SameCompleted m m' where
  completed := fun id => by
    unfold CompletedIn
    rw [hgoals]
  completedGoalIds := hcompleted
  failedGoalIds := hfailed
  blockedGoalIds := hblocked

theorem SameCompleted.of_statusOnly (h : StatusOnly m m') : SameCompleted m m' :=
  .of_eq h.goals h.completedGoalIds h.failedGoalIds h.blockedGoalIds

theorem SameCompleted.trans {m'' : Mission} (h : SameCompleted m m') (h' : SameCompleted m' m'') :
    SameCompleted m m'' where
  completed := fun id => (h'.completed id).trans (h.completed id)
  completedGoalIds := h'.completedGoalIds.trans h.completedGoalIds
  failedGoalIds := h'.failedGoalIds.trans h.failedGoalIds
  blockedGoalIds := h'.blockedGoalIds.trans h.blockedGoalIds

/-- A call that changes no list and completes no goal keeps all but what it stages. -/
theorem Reached.keeps (hm : Reached m) (hgoals : KeepsGoals m m') (hsame : SameCompleted m m')
    (hstaged : m'.missionStatus = .waitingForReplanConfirmation →
      m.missionStatus = .waitingForReplanConfirmation ∧
        m'.replanningHistory.getLast? = m.replanningHistory.getLast?) : Reached m' where
  sound := hm.sound.keeps hgoals
  listed := by
    rw [hsame.completedGoalIds]
    exact fun id hid => (hsame.completed id).mpr (hm.listed id hid)
  apart := by
    rw [hsame.failedGoalIds, hsame.blockedGoalIds]
    exact fun id hid => hm.apart id ((hsame.completed id).mp hid)
  staged := by
    intro hwaiting record hrecord
    obtain ⟨hwaits, hlast⟩ := hstaged hwaiting
    obtain ⟨hcompleted, hall⟩ := hm.staged hwaits record (hlast ▸ hrecord)
    exact ⟨fun id hid => hcompleted id ((hsame.completed id).mp hid),
      fun hnew id hid => hall hnew id ((hgoals.keys id).mp hid)⟩

/-! ## At the beginning -/

theorem sound_of_built {D : GoalDigest} {missionId : String} {items : List (String × Goal)}
    {confirmed : Bool} {b : BuiltGraph} (hbuildable : Buildable D missionId items)
    (hbuilt : Built D missionId items confirmed b) (hid : m.missionId = missionId)
    (horder : m.goalOrder = b.goalOrder) (hgoals : m.goals = b.goals) : Sound m where
  valid := by
    intro id g hg
    rw [hgoals, ← Dict.mem_entries, hbuilt.entries] at hg
    rw [hid]
    exact hbuildable.valid (id, g) hg
  acyclic := by
    rw [hgoals]
    exact (acyclic_of_entries hbuilt.entries).mpr hbuildable.acyclic
  order := by
    rw [horder, hgoals]
    exact stableTopologicalOrder_ok hbuilt.order
  nonempty := by
    rw [hgoals, hbuilt.entries]
    exact hbuildable.nonempty
  length_le := by
    rw [hgoals, hbuilt.entries]
    exact hbuildable.length_le

section Digest

variable {F : OrchestratorDigest} {m m' : Mission}

theorem StatusOnly.withPaths {x y : Mission} (h : StatusOnly x y) (config : MissionConfig) :
    StatusOnly (x.withPaths config) (y.withPaths config) :=
  ⟨h.1, h.2, h.3, h.4, h.5, h.6, h.7, h.8, h.9, h.10, h.11, rfl, rfl⟩

variable {plan : List GoalItem} {config : MissionConfig}

theorem Created.statusOnly {now : Instant} {missionId : String} {b : BuiltGraph}
    (h : Created F plan config now missionId b m) :
    StatusOnly ((newMission missionId b config now).withPaths config) m ∧
      m.missionStatus = .waitingForPlanConfirmation := by
  rw [h.mission]
  have hplanning := ((StatusOnly.refl (newMission missionId b config now)).sealed
    (D := F.toMissionDigest)).moved .planning now
  have hwaiting := (hplanning.sealed (D := F.toMissionDigest)).moved .waitingForPlanConfirmation now
  refine ⟨((hwaiting.sealed (D := F.toMissionDigest)).withPaths config).sealed, ?_⟩
  exact @status_sealed F (sealMission F.toMissionDigest (moved (sealMission F.toMissionDigest
    (newMission missionId b config now)) .planning now)) .waitingForPlanConfirmation now

theorem reached_created {now : Instant} {missionId : String} {b : BuiltGraph}
    (h : Created F plan config now missionId b m) : Reached m := by
  obtain ⟨hsame, hstatus⟩ := h.statusOnly
  have hgoals : m.goals = mapGoals freshGoal b.goals := hsame.goals
  have hbuilt : Sound (m.withGoals b.goals) :=
    sound_of_built h.buildable h.built hsame.missionId hsame.goalOrder rfl
  have hkeeps : KeepsGoals (m.withGoals b.goals) m := by
    refine ⟨rfl, rfl, fun id => ?_, fun id g' hg' => ?_⟩
    · rw [hgoals, Dict.mem_keys, get?_mapGoals]
      change _ ↔ id ∈ b.goals.keys
      rw [Dict.mem_keys]
      cases b.goals.get? id <;> simp
    · rw [hgoals, get?_mapGoals] at hg'
      obtain ⟨g, hg, rfl⟩ := Option.map_eq_some_iff.mp hg'
      exact ⟨g, hg, .of_eq rfl rfl⟩
  refine ⟨hbuilt.keeps hkeeps, ?_, fun id _ => ?_, fun hwaiting => ?_⟩
  · rw [hsame.completedGoalIds]
    exact fun id hid => absurd hid List.not_mem_nil
  · rw [hsame.failedGoalIds, hsame.blockedGoalIds]
    exact List.not_mem_nil
  · rw [hstatus] at hwaiting
    cases hwaiting

/-! ## An advance -/

/-- With the lists made anew nothing else is needed. -/
theorem reached_of_relisted {x : Mission} (hx : Sound x) (h : StatusOnly (relisted x) m')
    (hstatus : m'.missionStatus ≠ .waitingForReplanConfirmation) : Reached m' where
  sound := hx.keeps ((KeepsGoals.of_eq rfl rfl rfl : KeepsGoals x (relisted x)).of_statusOnly h)
  listed := by
    intro id hid
    rw [h.completedGoalIds] at hid
    unfold CompletedIn
    rw [h.goals]
    exact of_decide_eq_true (List.mem_filter.mp hid).2
  apart := by
    intro id hid hmem
    unfold CompletedIn at hid
    rw [h.goals] at hid
    change statusIn x.goals id = _ at hid
    rw [h.failedGoalIds, h.blockedGoalIds] at hmem
    change id ∈ idsWith x .failed ++ idsWith x .blocked at hmem
    unfold idsWith at hmem
    simp [hid] at hmem
  staged := fun hwaiting => absurd hwaiting hstatus

variable {source : SchedulerSource}

theorem keepsGoals_withCreated {config : RuntimeConfig} {now : Instant} {disk : Disk}
    {target workspace : Root} {scheduler scheduler' : SchedulerState} {goals : Goals}
    {created : List NewSession} {settled : Mission} (hm : Sound m)
    (h : Advances F m source config now disk target workspace scheduler goals created scheduler'
      settled) : KeepsGoals m (withSessions (m.withGoals goals) created) := by
  have horder : m.goalOrder.Nodup := (hm.order.nodup_iff).mpr (nodup_keys _)
  have hgoal : ∀ n ∈ created, n.goalId ∈ (m.withGoals goals).goals.keys := fun n hn =>
    Dict.mem_keys.mpr ⟨_, (h.made n hn).goal⟩
  refine ⟨missionId_withSessions, goalOrder_withSessions, fun id => ?_, fun id g' hg' => ?_⟩
  · rw [mem_keys_withSessions hgoal]
    exact (mem_keys_refreshedGoals h.refreshed).2 id
  · rcases get?_withCreated (h.nodup horder) hg' with ⟨hg', -⟩ | ⟨n, hn, rfl, rfl⟩
    · obtain ⟨g, status, failure, fingerprint, hg, rfl⟩ :=
        refreshedGoals_frame horder h.refreshed hg'
      exact ⟨g, hg, .of_eq rfl rfl⟩
    · obtain ⟨g, status, failure, fingerprint, hg, heq⟩ :=
        refreshedGoals_frame horder h.refreshed (h.made n hn).goal
      rw [heq]
      exact ⟨g, hg, .of_eq rfl rfl⟩

theorem reached_advanced {config : RuntimeConfig} {now : Instant} {disk : Disk} (hm : Reached m)
    (h : (advanceMission F m source config now disk).result = .ok m') : Reached m' := by
  by_cases hentered : ∃ target workspace scheduler,
      Entered F m source config now disk target workspace scheduler
  · obtain ⟨target, workspace, scheduler, hentered⟩ := hentered
    have horder : m.goalOrder.Nodup := (hm.sound.order.nodup_iff).mpr (nodup_keys _)
    obtain ⟨goals, created, scheduler', settled, hadv⟩ := advances_of_ok hentered horder h
    rw [hadv.answer] at h
    cases h
    obtain ⟨hsame, hstatus⟩ := settleStatus_ok hadv.settles
    refine reached_of_relisted (hm.sound.keeps (keepsGoals_withCreated hm.sound hadv))
      hsame.sealed ?_
    change settled.missionStatus ≠ _
    rw [hstatus]
    exact goalsStatus_ne.1
  · rw [(advanceMission_of_not_entered hentered).2 m' h]
    exact hm

/-! ## An input -/

theorem SameCompleted.set {id : String} {g g' : Goal} (hg : m.goals.get? id = some g)
    (hstatus : g'.goalStatus = .completed ↔ g.goalStatus = .completed)
    (hgoals : m'.goals = m.goals.set id g') (hcompleted : m'.completedGoalIds = m.completedGoalIds)
    (hfailed : m'.failedGoalIds = m.failedGoalIds)
    (hblocked : m'.blockedGoalIds = m.blockedGoalIds) : SameCompleted m m' where
  completed := by
    intro i
    rw [completedIn_iff, completedIn_iff, hgoals]
    simp only [Dict.get?_set]
    by_cases hi : i = id
    · rw [hi, hg]
      simpa using hstatus
    · simp only [if_neg hi]
  completedGoalIds := hcompleted
  failedGoalIds := hfailed
  blockedGoalIds := hblocked

variable {r : ReplanningRequest}

theorem spares_staged {o : ReplannerOutput} {instruction : String} {scope : List String}
    {now : Instant} (hm : Reached m)
    (hr : createReplanningRequest F.toMissionDigest m instruction scope now = .ok r)
    (ho : deterministicReplanner F.toMissionDigest r m = .ok o) : Spares m (stagedRecord r o) := by
  have hfor := requestFor_of_ok hr
  obtain ⟨hdet, -⟩ := deterministicReplanner_ok ho
  have hmem : ∀ id ∈ m.goals.keys, id ∉ removedIds r → id ∈ o.unchangedGoalIds := by
    intro id hid hremoved
    rw [hdet.unchanged, List.mem_filter, hm.sound.order.mem_iff]
    exact ⟨hid, by simpa using hremoved⟩
  constructor
  · intro id hid
    obtain ⟨g, hg, -⟩ := completedIn_iff.mp hid
    refine hmem id (Dict.mem_keys.mpr ⟨g, hg⟩) ?_
    unfold removedIds
    rw [mem_sortedSet, hfor.failed, hfor.blocked]
    exact hm.apart id hid
  · intro hnew id hid
    refine hmem id hid ?_
    obtain ⟨sources, hids, -, hmap⟩ := hdet.new
    change newGoals o = [] at hnew
    rw [hnew] at hmap
    rw [← hids, List.map_eq_nil_iff.mp hmap.symm]
    exact List.not_mem_nil

section Confirmed

variable {p : ReplanConfirmation} {now : Instant} {record : ReplanRecord}
  {completed : List (String × Goal)} {b : BuiltGraph} {c : Mission}

/-- Confirming leaves the goals that the output describes. -/
theorem goals_replanned (hm : Reached m)
    (h : Replans F.toMissionDigest m p now record completed b c) :
    StatusOnly ((revised m completed b).withGoals b.goals) c ∧ c.missionStatus = .running := by
  obtain ⟨hids, hget⟩ := goalsNamed_ok h.named
  obtain ⟨hspared, -⟩ := hm.staged h.status record h.last
  have hback : putBack completed b.goals = b.goals := by
    refine putBack_of_get? fun e he => ?_
    have hid : e.1 ∈ m.completedGoalIds := hids ▸ List.mem_map_of_mem he
    rw [← Dict.mem_entries, h.built.entries]
    exact List.mem_append_left _ (mem_keptGoals.mpr ⟨hspared e.1 (hm.listed e.1 hid), hget e he⟩)
  have hrevised : revised m completed b = (revised m completed b).withGoals b.goals := by
    unfold revised Mission.withGoals
    rw [hback]
  rw [h.result]
  refine ⟨?_, status_sealed _ _ _⟩
  conv =>
    arg 2
    rw [hrevised]
  exact (((StatusOnly.refl _).sealed (D := F.toMissionDigest)).moved .running now).sealed

theorem completedIn_replanned (hm : Reached m)
    (h : Replans F.toMissionDigest m p now record completed b c) (id : String) :
    CompletedIn c id ↔ CompletedIn m id := by
  obtain ⟨hsame, -⟩ := goals_replanned hm h
  obtain ⟨hspared, -⟩ := hm.staged h.status record h.last
  have hgoals : c.goals = b.goals := hsame.goals
  constructor
  · intro hid
    obtain ⟨g, hg, hcompleted⟩ := completedIn_iff.mp hid
    rw [hgoals, ← Dict.mem_entries, h.built.entries] at hg
    rcases List.mem_append.mp hg with hkept | hnew
    · exact completedIn_iff.mpr ⟨g, (mem_keptGoals.mp hkept).2, hcompleted⟩
    · obtain ⟨x, -, heq⟩ := List.mem_map.mp hnew
      cases heq
      cases hcompleted
  · intro hid
    obtain ⟨g, hg, hcompleted⟩ := completedIn_iff.mp hid
    refine completedIn_iff.mpr ⟨g, ?_, hcompleted⟩
    rw [hgoals, ← Dict.mem_entries, h.built.entries]
    exact List.mem_append_left _ (mem_keptGoals.mpr ⟨hspared id hid, hg⟩)

theorem reached_replanned (hm : Reached m)
    (h : Replans F.toMissionDigest m p now record completed b c) : Reached c := by
  obtain ⟨hsame, hstatus⟩ := goals_replanned hm h
  refine ⟨sound_of_built h.buildable h.built hsame.missionId hsame.goalOrder hsame.goals, ?_, ?_,
    fun hwaiting => ?_⟩
  · rw [hsame.completedGoalIds]
    exact fun id hid => (completedIn_replanned hm h id).mpr (hm.listed id hid)
  · rw [hsame.failedGoalIds, hsame.blockedGoalIds]
    exact fun id hid => hm.apart id ((completedIn_replanned hm h id).mp hid)
  · rw [hstatus] at hwaiting
    cases hwaiting

end Confirmed

variable {input : MissionInput} {now : Option Instant} {clock : Instant}

theorem retried_statusOnly (m : Mission) (id : String) (g : Goal) (at' : Instant) :
    StatusOnly (withRetry m id g) (retried F m id g at') ∧
      (retried F m id g at').missionStatus =
        if m.missionStatus = .blocked then .running else m.missionStatus := by
  unfold retried
  split
  · exact ⟨((StatusOnly.refl _).moved .running at').sealed, status_sealed _ _ _⟩
  · exact ⟨.refl _, rfl⟩

theorem stageReplan_frame {o : ReplannerOutput} {s : Mission}
    (h : stageReplan F.toMissionDigest m r o now clock = .ok s) :
    s.goalOrder = m.goalOrder ∧ s.failedGoalIds = m.failedGoalIds ∧
      s.blockedGoalIds = m.blockedGoalIds := by
  unfold stageReplan at h
  dsimp only at h
  split at h
  · cases h
  split at h
  · cases h
    exact ⟨rfl, rfl, rfl⟩
  · obtain ⟨moved, hmoved, h⟩ := bind_eq_ok.mp h
    obtain ⟨-, rfl⟩ := transitionMission_ok hmoved
    cases h
    exact ⟨rfl, rfl, rfl⟩

def turnedDown (m : Mission) : Mission :=
  { m with
    replanRequired := false
    replanningStatus := "rejected"
    replanningHistory := markLast "rejected" m.replanningHistory }

theorem rejectedReplan_statusOnly (m : Mission) (at' : Instant) :
    StatusOnly (turnedDown m) (rejectedReplan F m at') ∧
      (rejectedReplan F m at').missionStatus = .blocked :=
  ⟨((StatusOnly.refl (turnedDown m)).moved .blocked at').sealed,
    @status_sealed F (turnedDown m) .blocked at'⟩

theorem reached_handled {x : Mission} (hm : Reached m) (h : Handled F m input now clock x) :
    Reached x := by
  cases h with
  | staged r o s type request output staged =>
    obtain ⟨-, -, hs⟩ := stageReplan_ok staged
    obtain ⟨horder, hfailed, hblocked⟩ := stageReplan_frame staged
    have hsame : SameCompleted m x := .of_eq hs.goals hs.completedGoalIds hfailed hblocked
    obtain ⟨hspared, hall⟩ := spares_staged hm request output
    refine ⟨hm.sound.keeps (.of_eq hs.missionId horder hs.goals), ?_, ?_,
      fun _ record hrecord => ?_⟩
    · rw [hsame.completedGoalIds]
      exact fun id hid => (hsame.completed id).mpr (hm.listed id hid)
    · rw [hfailed, hblocked]
      exact fun id hid => hm.apart id ((hsame.completed id).mp hid)
    · rw [hs.last, Option.some.injEq] at hrecord
      rw [← hrecord]
      refine ⟨fun id hid => hspared id ((hsame.completed id).mp hid), ?_⟩
      rw [hs.goals]
      exact hall
  | confirmed record completed b c type replans => exact reached_replanned hm replans
  | rejected type status =>
    obtain ⟨hsame, hstatus⟩ := rejectedReplan_statusOnly (F := F) m (now.getD clock)
    refine hm.keeps (.of_eq hsame.missionId hsame.goalOrder hsame.goals)
      (.of_eq hsame.goals hsame.completedGoalIds hsame.failedGoalIds hsame.blockedGoalIds)
      fun hwaiting => ?_
    rw [hstatus] at hwaiting
    cases hwaiting
  | clarified type => exact hm.keeps (.of_eq rfl rfl rfl) (.of_eq rfl rfl rfl rfl) fun h => ⟨h, rfl⟩
  | prioritized id g priority type named priority_eq range inactive =>
    have hg := (namedGoal_some.mp named).2
    have hfollows : g.Follows { g with priority } := ⟨rfl, fun _ => range⟩
    have hcompleted : ({ g with priority } : Goal).goalStatus = .completed ↔
        g.goalStatus = .completed := Iff.rfl
    exact hm.keeps (.set hg hfollows rfl rfl rfl) (.set hg hcompleted rfl rfl rfl rfl)
      fun h => ⟨h, rfl⟩
  | retried id g type named retryable =>
    have hg := (namedGoal_some.mp named).2
    obtain ⟨hsame, hstatus⟩ := retried_statusOnly (F := F) m id g (now.getD clock)
    have hfollows : g.Follows (retriedGoal g) := .of_eq rfl rfl
    have hcompleted : (retriedGoal g).goalStatus = .completed ↔ g.goalStatus = .completed := by
      rcases retryable.status with h | h <;> simp [retriedGoal, h]
    have hset : KeepsGoals m (withRetry m id g) := .set hg hfollows rfl rfl rfl
    have hlists : SameCompleted m (withRetry m id g) := .set hg hcompleted rfl rfl rfl rfl
    refine hm.keeps (hset.of_statusOnly hsame) (hlists.trans (.of_statusOnly hsame))
      fun hwaiting => ⟨?_, congrArg List.getLast? hsame.replanningHistory⟩
    rw [hstatus] at hwaiting
    split at hwaiting
    · cases hwaiting
    · exact hwaiting

theorem reached_submitted (hm : Reached m) (h : Submitted F m input now clock m') :
    Reached m' := by
  cases h with
  | same => exact hm
  | rejected status type =>
    have hsame : StatusOnly m (recorded F (rejectedPlan F m (now.getD clock)) input) := by
      have hmoved := ((StatusOnly.refl m).moved .blocked (now.getD clock)).sealed
        (D := F.toMissionDigest)
      exact ⟨hmoved.1, hmoved.2, hmoved.3, hmoved.4, hmoved.5, hmoved.6, hmoved.7, hmoved.8,
        hmoved.9, hmoved.10, hmoved.11, hmoved.12, hmoved.13⟩
    have hstatus : (recorded F (rejectedPlan F m (now.getD clock)) input).missionStatus =
        .blocked := @status_sealed F m .blocked (now.getD clock)
    refine hm.keeps (.of_eq hsame.missionId hsame.goalOrder hsame.goals) (.of_statusOnly hsame)
      fun hwaiting => ?_
    rw [hstatus] at hwaiting
    cases hwaiting
  | confirmed status type =>
    have hmoved := ((StatusOnly.refl { m with goalGraph := confirmedGraph F m.goalGraph }).moved
      .ready (now.getD clock)).sealed (D := F.toMissionDigest)
    have hstatus : (recorded F (confirmedPlan F m (now.getD clock)) input).missionStatus =
        .ready := @status_sealed F { m with goalGraph := confirmedGraph F m.goalGraph } .ready
          (now.getD clock)
    refine hm.keeps (.of_eq hmoved.missionId hmoved.goalOrder hmoved.goals)
      (.of_eq hmoved.goals hmoved.completedGoalIds hmoved.failedGoalIds hmoved.blockedGoalIds)
      fun hwaiting => ?_
    rw [hstatus] at hwaiting
    cases hwaiting
  | cancelled active type =>
    have hgoals : KeepsGoals m (m.withGoals (mapGoals cancelGoal m.goals)) := by
      refine ⟨rfl, rfl, fun id => ?_, fun id g' hg' => ?_⟩
      · change id ∈ (mapGoals cancelGoal m.goals).keys ↔ _
        rw [Dict.mem_keys, Dict.mem_keys, get?_mapGoals]
        cases m.goals.get? id <;> simp
      · change (mapGoals cancelGoal m.goals).get? id = some g' at hg'
        rw [get?_mapGoals] at hg'
        obtain ⟨g, hg, rfl⟩ := Option.map_eq_some_iff.mp hg'
        refine ⟨g, hg, .of_eq ?_ ?_⟩
        · unfold cancelGoal
          split <;> rfl
        · unfold cancelGoal
          split <;> rfl
    have hmoved := ((StatusOnly.refl (m.withGoals (mapGoals cancelGoal m.goals))).moved .cancelled
      (now.getD clock)).sealed (D := F.toMissionDigest)
    have hstatus : (sealMission F.toMissionDigest
        (cancelledMission F m (now.getD clock))).missionStatus = .cancelled :=
      @status_sealed F (m.withGoals (mapGoals cancelGoal m.goals)) .cancelled (now.getD clock)
    refine reached_of_relisted (hm.sound.keeps (hgoals.of_statusOnly hmoved))
      ((StatusOnly.refl _).sealed) ?_
    rw [hstatus]
    exact MissionStatus.noConfusion
  | handled x new ok type =>
    exact (reached_handled hm (handleInput_ok ok)).keeps (.of_eq rfl rfl rfl)
      (.of_eq rfl rfl rfl rfl) fun h => ⟨h, rfl⟩

end Digest

end Missions
end ZeroRuntime
