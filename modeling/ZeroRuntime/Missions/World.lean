import ZeroRuntime.Lib.Machine
import ZeroRuntime.Missions.Inputs

/-!
# ZeroRuntime.Missions.World

A mission and its files as calls come in, one after the other.

* An `Event` is a call on the mission, or one on the session of a goal: it is resumed or cancelled,
  and the result is saved where it was.
* `missionMachine` takes events; a call that raises leaves the mission as it was.
* `Entered`: an advance that gets as far as the goals. `advanceMission_of_entered` and
  `advanceMission_of_not_entered` say what an advance does.
* `createSessions_idle`, `createSessions_writes`, `createSessions_fails`: sessions for goals.
-/

namespace ZeroRuntime
namespace Missions

open Lib Sessions

structure World where
  mission : Mission
  disk : Disk

inductive Event where
  | advance (source : SchedulerSource) (config : RuntimeConfig) (now : Instant)
  | submit (input : MissionInput) (now : Option Instant) (clock : Instant)
  | resume (path : String) (input : SessionInput) (decision : Decision)
    (targetRoot workspaceRoot : Root) (now : Instant)
  | cancel (path operatorId : String) (now : Instant)

section Digest

variable (F : OrchestratorDigest)

/-- A session is read from its file, and what `f` makes of it is saved there. -/
def onSession (w : World) (path : String) (f : Session → Except Err Session) :
    Logged Write Mission :=
  match w.disk.sessions.get? path with
  | none => .raise .osError
  | some s => do
    let s ← .ofExcept (f s)
    .write (.session path (sealSession F.toSessionDigest s))
    pure w.mission

def Event.call (w : World) : Event → Logged Write Mission
  | .advance source config now => advanceMission F w.mission source config now w.disk
  | .submit input now clock => submitMissionInput F w.mission input now clock
  | .resume path input decision target workspace now =>
    onSession F w path fun s =>
      resumeRuntimeSession F.toSessionDigest s input decision target workspace now
  | .cancel path operatorId now =>
    onSession F w path fun s => cancelRuntimeSession F.toSessionDigest s operatorId now

def World.after (w : World) (answer : Logged Write Mission) : World where
  mission := answer.result.toOption.getD w.mission
  disk := w.disk.after answer.writes

def missionMachine : Machine World Event (Logged Write Mission) where
  step w e := (e.call F w, w.after (e.call F w))

end Digest

/-! ## An advance that gets as far as the goals -/

section Digest

variable {F : OrchestratorDigest}

structure Entered (F : OrchestratorDigest) (m : Mission) (source : SchedulerSource)
    (config : RuntimeConfig) (now : Instant) (disk : Disk) (target workspace : Root)
    (scheduler : SchedulerState) : Prop where
  valid : validateMissionAt F.toMissionDigest m now = []
  active : m.missionStatus.terminal = false
  confirmed : m.missionStatus ≠ .waitingForPlanConfirmation
  opened : openScheduler F m source disk = .ok scheduler
  schedulerValid : validateSchedulerState F.toQueueDigest scheduler = []
  target : config.targetRoot = some target
  workspace : config.workspaceRoot = some workspace

variable {m : Mission} {source : SchedulerSource} {config : RuntimeConfig} {now : Instant}
  {disk : Disk} {target workspace : Root} {scheduler : SchedulerState}

theorem advanceMission_of_entered
    (h : Entered F m source config now disk target workspace scheduler) :
    advanceMission F m source config now disk =
      advanceGoals F m source config now disk target workspace scheduler := by
  unfold advanceMission
  dsimp only
  rw [if_neg (not_not.mpr h.valid), if_neg (by simp [h.active]), if_neg h.confirmed, h.opened,
    Logged.ofExcept_bind_ok, if_neg (not_not.mpr h.schedulerValid), h.target, h.workspace]

/-- Otherwise nothing is written, and the mission is answered as it is, if at all. -/
theorem advanceMission_of_not_entered
    (h : ¬∃ target workspace scheduler,
      Entered F m source config now disk target workspace scheduler) :
    (advanceMission F m source config now disk).writes = [] ∧
      ∀ m', (advanceMission F m source config now disk).result = .ok m' → m' = m := by
  unfold advanceMission
  dsimp only
  split
  · exact ⟨rfl, fun m' h' => by cases h'⟩
  rename_i hvalid
  split
  · exact ⟨rfl, fun m' h' => by cases h'; rfl⟩
  rename_i hactive
  split
  · exact ⟨rfl, fun m' h' => by cases h'; rfl⟩
  rename_i hconfirmed
  cases hopened : openScheduler F m source disk with
  | error e => exact ⟨rfl, fun m' h' => by cases h'⟩
  | ok scheduler =>
    rw [Logged.ofExcept_bind_ok]
    split
    · exact ⟨rfl, fun m' h' => by cases h'⟩
    rename_i hscheduler
    split
    · rename_i target workspace htarget hworkspace
      exact absurd ⟨target, workspace, scheduler, not_not.mp hvalid, by simpa using hactive,
        hconfirmed, hopened, not_not.mp hscheduler, htarget, hworkspace⟩ h
    · exact ⟨rfl, fun m' h' => by cases h'⟩

/-! ## New sessions -/

/-- The goal waits for its first session, or for the next one. -/
def needsSession (g : Goal) : Bool := g.goalStatus = .ready && g.sessionId.isNone

/-- The session of a goal can be made, and its file has a place. -/
def CanCreate (m : Mission) (config : RuntimeConfig) (target workspace : Root) : Prop :=
  (∃ directory, sessionDir m.missionPath config = .ok directory) ∧ target.isSome = true ∧
    workspace.isSome = true

theorem createRuntimeSession_isOk {D : SessionDigest} (natural : Entries) {t w : String}
    (c : SessionConfig) (now : Instant) :
    ∃ s, createRuntimeSession D natural (some t) (some w) c now = .ok s := ⟨_, rfl⟩

theorem attemptSession_isOk (htarget : target.isSome = true) (hworkspace : workspace.isSome = true)
    (m : Mission) (goalId : String) (g : Goal) (config : RuntimeConfig) (now : Instant) :
    ∃ s, attemptSession F m goalId g target workspace config now = .ok s := by
  obtain ⟨t, rfl⟩ := Option.isSome_iff_exists.mp htarget
  obtain ⟨w, rfl⟩ := Option.isSome_iff_exists.mp hworkspace
  exact createRuntimeSession_isOk _ _ _

theorem attemptSession_error (h : ¬(target.isSome = true ∧ workspace.isSome = true))
    (m : Mission) (goalId : String) (g : Goal) (config : RuntimeConfig) (now : Instant) :
    attemptSession F m goalId g target workspace config now = .error .osError := by
  unfold attemptSession createRuntimeSession
  cases target with
  | none => rfl
  | some t =>
    cases workspace with
    | none => rfl
    | some w => exact absurd ⟨rfl, rfl⟩ h

variable {g : Goal}

theorem needsSession_iff : needsSession g = true ↔ g.goalStatus = .ready ∧ g.sessionId = none := by
  unfold needsSession
  rw [Bool.and_eq_true, decide_eq_true_eq, Option.isNone_iff_eq_none]

variable {id : String}

theorem createSessions_skip (hg : m.goals.get? id = some g) (hneeds : needsSession g = false)
    (ids : List String) :
    createSessions F target workspace config now (id :: ids) m scheduler =
      createSessions F target workspace config now ids m scheduler := by
  rw [createSessions, hg]
  dsimp only
  split
  · rename_i hready
    have hsession : g.sessionId.isSome = true := by
      rw [← Bool.not_eq_true, needsSession_iff, not_and, ← ne_eq] at hneeds
      exact Option.isSome_iff_ne_none.mpr (hneeds hready)
    have hskip : createGoalSession F target workspace config now id m scheduler =
        pure (m, scheduler) := by
      unfold createGoalSession
      rw [hg]
      dsimp only
      rw [if_pos hsession]
    rw [hskip]
    rfl
  · rfl

theorem createSessions_next (hg : m.goals.get? id = some g) (hneeds : needsSession g = true)
    (ids : List String) :
    createSessions F target workspace config now (id :: ids) m scheduler =
      createGoalSession F target workspace config now id m scheduler >>= fun r =>
        createSessions F target workspace config now ids r.1 r.2 := by
  rw [createSessions, hg]
  dsimp only
  rw [if_pos (needsSession_iff.mp hneeds).1]

variable {ids : List String}

theorem createSessions_idle (h : ∀ id ∈ ids, ∃ g, m.goals.get? id = some g ∧ needsSession g = false)
    : createSessions F target workspace config now ids m scheduler = pure (m, scheduler) := by
  induction ids with
  | nil => rfl
  | cons id ids ih =>
    rw [List.forall_mem_cons] at h
    obtain ⟨g, hg, hneeds⟩ := h.1
    rw [createSessions_skip hg hneeds]
    exact ih h.2

structure NewSession where
  goalId : String
  goal : Goal
  path : String
  session : Session

/-- A session that an advance makes for a goal of `m`. -/
structure NewSession.For (F : OrchestratorDigest) (m : Mission) (config : RuntimeConfig)
    (target workspace : Root) (now : Instant) (n : NewSession) : Prop where
  goal : m.goals.get? n.goalId = some n.goal
  needs : needsSession n.goal = true
  path : ∃ directory, sessionDir m.missionPath config = .ok directory ∧
    n.path = filePath directory (attemptName n.goalId (n.goal.attemptCount + 1))
  session : attemptSession F m n.goalId n.goal target workspace config now = .ok n.session

def NewSession.write (n : NewSession) : Write := .session n.path n.session

def enqueueNew (F : OrchestratorDigest) (target workspace : Root) (now : Instant)
    (scheduler : SchedulerState) (n : NewSession) : Except Err SchedulerState :=
  enqueueSession F.toQueueDigest scheduler n.path
    (checkedSession F n.session target workspace now) n.goal.priority now

theorem exists_newSession (hg : m.goals.get? id = some g) (hneeds : needsSession g = true)
    (hcan : CanCreate m config target workspace) (now : Instant) :
    ∃ n : NewSession, n.goalId = id ∧ n.goal = g ∧ n.For F m config target workspace now := by
  obtain ⟨⟨directory, hdirectory⟩, htarget, hworkspace⟩ := hcan
  obtain ⟨s, hs⟩ := attemptSession_isOk (F := F) htarget hworkspace m id g config now
  exact ⟨⟨id, g, filePath directory (attemptName id (g.attemptCount + 1)), s⟩, rfl, rfl, hg,
    hneeds, ⟨directory, hdirectory, rfl⟩, hs⟩

/-- A new session is written, then it is put into the queue. -/
theorem createGoalSession_eq {n : NewSession} (hn : n.For F m config target workspace now) :
    createGoalSession F target workspace config now n.goalId m scheduler =
      ⟨[n.write], (enqueueNew F target workspace now scheduler n).map fun scheduler' =>
        (withSession m n.goalId n.goal n.path n.session, scheduler')⟩ := by
  obtain ⟨directory, hdirectory, hpath⟩ := hn.path
  have hnone : ¬n.goal.sessionId.isSome = true := by
    rw [(needsSession_iff.mp hn.needs).2]
    exact Bool.false_ne_true
  unfold createGoalSession
  rw [hn.goal]
  dsimp only
  rw [if_neg hnone, hdirectory, Logged.ofExcept_bind_ok, hn.session, Logged.ofExcept_bind_ok,
    ← hpath]
  unfold enqueueNew
  cases enqueueSession F.toQueueDigest scheduler n.path
    (checkedSession F n.session target workspace now) n.goal.priority now <;> rfl

theorem createGoalSession_fails (hg : m.goals.get? id = some g) (hneeds : needsSession g = true)
    (hcan : ¬CanCreate m config target workspace) :
    ∃ e, createGoalSession F target workspace config now id m scheduler = .raise e := by
  have hnone : ¬g.sessionId.isSome = true := by
    rw [(needsSession_iff.mp hneeds).2]
    exact Bool.false_ne_true
  unfold createGoalSession
  rw [hg]
  dsimp only
  rw [if_neg hnone]
  cases hdirectory : sessionDir m.missionPath config with
  | error e => exact ⟨e, rfl⟩
  | ok directory =>
    have hroots : ¬(target.isSome = true ∧ workspace.isSome = true) := fun h =>
      hcan ⟨⟨directory, hdirectory⟩, h⟩
    rw [Logged.ofExcept_bind_ok, attemptSession_error hroots]
    exact ⟨.osError, rfl⟩

theorem createSessions_writes (hids : ∀ id ∈ ids, id ∈ m.goals.keys) (hid : id ∈ ids)
    (hg : m.goals.get? id = some g) (hneeds : needsSession g = true)
    (hcan : CanCreate m config target workspace) :
    ∃ path s, Write.session path s ∈
      (createSessions F target workspace config now ids m scheduler).writes := by
  induction ids with
  | nil => cases hid
  | cons i ids ih =>
    rw [List.forall_mem_cons] at hids
    obtain ⟨first, hfirst⟩ := Dict.mem_keys.mp hids.1
    by_cases hi : needsSession first = true
    · obtain ⟨n, rfl, rfl, hn⟩ := exists_newSession (F := F) hfirst hi hcan now
      rw [createSessions_next hfirst hi, createGoalSession_eq hn]
      exact ⟨n.path, n.session, Logged.mem_writes_bind.mpr (.inl List.mem_cons_self)⟩
    · have hrest : id ∈ ids := by
        refine (List.mem_cons.mp hid).resolve_left fun heq => ?_
        rw [heq, hfirst, Option.some.injEq] at hg
        exact hi (hg ▸ hneeds)
      rw [createSessions_skip hfirst (by simpa using hi)]
      exact ih hids.2 hrest

/-- Where no session can be made the first goal that needs one ends the loop. -/
theorem createSessions_fails (hids : ∀ id ∈ ids, id ∈ m.goals.keys) (hid : id ∈ ids)
    (hg : m.goals.get? id = some g) (hneeds : needsSession g = true)
    (hcan : ¬CanCreate m config target workspace) :
    ∃ e, createSessions F target workspace config now ids m scheduler = .raise e := by
  induction ids with
  | nil => cases hid
  | cons i ids ih =>
    rw [List.forall_mem_cons] at hids
    obtain ⟨first, hfirst⟩ := Dict.mem_keys.mp hids.1
    by_cases hi : needsSession first = true
    · obtain ⟨e, he⟩ : ∃ e, createGoalSession F target workspace config now i m scheduler =
          .raise e := createGoalSession_fails hfirst hi hcan
      rw [createSessions_next hfirst hi, he]
      exact ⟨e, rfl⟩
    · have hrest : id ∈ ids := by
        refine (List.mem_cons.mp hid).resolve_left fun heq => ?_
        rw [heq, hfirst, Option.some.injEq] at hg
        exact hi (hg ▸ hneeds)
      rw [createSessions_skip hfirst (by simpa using hi)]
      exact ih hids.2 hrest

/-! ## All the sessions that are made -/

def withSessions (m : Mission) (created : List NewSession) : Mission :=
  created.foldl (fun m n => withSession m n.goalId n.goal n.path n.session) m

/-- The queue with the new sessions. -/
def enqueueAll (F : OrchestratorDigest) (target workspace : Root) (now : Instant) :
    List NewSession → SchedulerState → Except Err SchedulerState
  | [], scheduler => .ok scheduler
  | n :: ns, scheduler => do
    let scheduler ← enqueueNew F target workspace now scheduler n
    enqueueAll F target workspace now ns scheduler

/-- The goals of `ids` that need a session. -/
def needing (goals : Goals) (ids : List String) : List String :=
  ids.filter fun id => ((goals.get? id).map needsSession).getD false

/-- The sessions that a loop over `ids` has made: all that are needed, if it came to its end. -/
structure Makes (F : OrchestratorDigest) (m : Mission) (config : RuntimeConfig)
    (target workspace : Root) (now : Instant) (scheduler : SchedulerState) (ids : List String)
    (created : List NewSession) (answer : Logged Write (Mission × SchedulerState)) : Prop where
  writes : answer.writes = created.map NewSession.write
  made : ∀ n ∈ created, n.goalId ∈ ids ∧ n.For F m config target workspace now
  ok : ∀ r, answer.result = .ok r → created.map NewSession.goalId = needing m.goals ids ∧
    r.1 = withSessions m created ∧ enqueueAll F target workspace now created scheduler = .ok r.2

theorem Makes.of_raise (e : Err) (ids : List String) :
    Makes F m config target workspace now scheduler ids [] (.raise e) where
  writes := rfl
  made := fun n hn => absurd hn List.not_mem_nil
  ok := fun r hr => by cases hr

theorem For_withSession {n n' : NewSession} (hne : n'.goalId ≠ n.goalId)
    (h : n'.For F (withSession m n.goalId n.goal n.path n.session) config target workspace now) :
    n'.For F m config target workspace now where
  goal := by
    have hgoal := h.goal
    change (m.goals.set n.goalId (sessionGoal n.goal n.path n.session)).get? n'.goalId = _ at hgoal
    rwa [Dict.get?_set, if_neg hne] at hgoal
  needs := h.needs
  path := h.path
  session := h.session

theorem needing_withSession {n : NewSession} (h : n.goalId ∉ ids) :
    needing (withSession m n.goalId n.goal n.path n.session).goals ids = needing m.goals ids := by
  unfold needing
  refine List.filter_congr fun id hid => ?_
  have hne : id ≠ n.goalId := fun heq => h (heq ▸ hid)
  change (((m.goals.set n.goalId (sessionGoal n.goal n.path n.session)).get? id).map
    needsSession).getD false = _
  rw [Dict.get?_set, if_neg hne]

theorem createSessions_makes (hids : ids.Nodup) :
    ∃ created, Makes F m config target workspace now scheduler ids created
      (createSessions F target workspace config now ids m scheduler) := by
  induction ids generalizing m scheduler with
  | nil =>
    refine ⟨[], rfl, fun n hn => absurd hn List.not_mem_nil, fun r hr => ?_⟩
    cases hr
    exact ⟨rfl, rfl, rfl⟩
  | cons id ids ih =>
    obtain ⟨hid, hrest⟩ := List.nodup_cons.mp hids
    cases hg : m.goals.get? id with
    | none =>
      rw [createSessions, hg]
      exact ⟨[], .of_raise _ _⟩
    | some g =>
      by_cases hneeds : needsSession g = true
      · rw [createSessions_next hg hneeds]
        by_cases hcan : CanCreate m config target workspace
        · obtain ⟨n, rfl, rfl, hn⟩ := exists_newSession (F := F) hg hneeds hcan now
          rw [createGoalSession_eq hn]
          have hneed : needing m.goals (n.goalId :: ids) = n.goalId :: needing m.goals ids := by
            unfold needing
            rw [List.filter_cons_of_pos]
            rw [hn.goal]
            exact hneeds
          cases hqueue : enqueueNew F target workspace now scheduler n with
          | error e =>
            rw [Logged.bind_of_error rfl]
            refine ⟨[n], rfl, fun x hx => ?_, fun r hr => by cases hr⟩
            rw [List.mem_singleton.mp hx]
            exact ⟨List.mem_cons_self, hn⟩
          | ok scheduler' =>
            obtain ⟨created, hcreated⟩ : ∃ created, Makes F
                (withSession m n.goalId n.goal n.path n.session) config target workspace now
                scheduler' ids created _ := ih hrest
            rw [Logged.bind_of_ok rfl]
            refine ⟨n :: created, ?_, fun x hx => ?_, fun r hr => ?_⟩
            · exact congrArg (n.write :: ·) hcreated.writes
            · rcases List.mem_cons.mp hx with rfl | hx
              · exact ⟨List.mem_cons_self, hn⟩
              · obtain ⟨hin, hfor⟩ := hcreated.made x hx
                have hne : x.goalId ≠ n.goalId := fun heq => hid (heq ▸ hin)
                exact ⟨List.mem_cons_of_mem _ hin, For_withSession hne hfor⟩
            · obtain ⟨hmade, hmission, hqueued⟩ := hcreated.ok r hr
              refine ⟨?_, hmission, ?_⟩
              · rw [List.map_cons, hmade, hneed, needing_withSession hid]
              · rw [enqueueAll, hqueue]
                exact hqueued
        · obtain ⟨e, he⟩ : ∃ e, createGoalSession F target workspace config now id m scheduler =
              .raise e := createGoalSession_fails hg hneeds hcan
          rw [he]
          exact ⟨[], .of_raise _ _⟩
      · rw [createSessions_skip hg (by simpa using hneeds)]
        obtain ⟨created, hcreated⟩ : ∃ created, Makes F m config target workspace now scheduler ids
            created (createSessions F target workspace config now ids m scheduler) := ih hrest
        have hskip : needing m.goals (id :: ids) = needing m.goals ids := by
          unfold needing
          rw [List.filter_cons_of_neg]
          rw [hg]
          exact hneeds
        refine ⟨created, hcreated.writes, fun n hn => ?_, fun r hr => ?_⟩
        · exact (hcreated.made n hn).imp_left (List.mem_cons_of_mem _)
        · rw [hskip]
          exact hcreated.ok r hr

/-! ## What is saved at the end -/

/-- The file that saving a mission writes, if it has one. -/
def missionWrites (F : OrchestratorDigest) (m : Mission) : List Write :=
  match m.missionPath with
  | some path => [.mission path (sealMission F.toMissionDigest m)]
  | none => []

theorem saveIf_eq (m : Mission) :
    saveIf F m = ⟨missionWrites F m, .ok (sealMission F.toMissionDigest m)⟩ := by
  unfold saveIf missionWrites
  dsimp only
  have hpath : (sealMission F.toMissionDigest m).missionPath = m.missionPath := rfl
  rw [hpath]
  cases m.missionPath <;> rfl

/-- The file that saving the scheduler writes, if there is one. -/
def schedulerWrites (F : OrchestratorDigest) (source : SchedulerSource) (m : Mission)
    (scheduler : SchedulerState) : List Write :=
  match source.savePath m with
  | some path => [.scheduler path (sealSchedulerState F.toQueueDigest scheduler)]
  | none => []

theorem rebuildLists_ok (h : ∀ id ∈ m.goalOrder, id ∈ m.goals.keys) :
    rebuildLists m = .ok (relisted m) := by
  unfold rebuildLists
  rw [if_pos]
  refine List.all_eq_true.mpr fun id hid => ?_
  exact Dict.contains_iff.mpr (Dict.mem_keys.mp (h id hid))

theorem finishAdvance_ok {settled : Mission} (h : ∀ id ∈ m.goalOrder, id ∈ m.goals.keys)
    (hsettled : settleStatus F (relisted m) now = .ok settled) :
    finishAdvance F source now m scheduler =
      ⟨schedulerWrites F source settled scheduler ++ missionWrites F settled,
        .ok (sealMission F.toMissionDigest settled)⟩ := by
  unfold finishAdvance schedulerWrites
  rw [rebuildLists_ok h, Logged.ofExcept_bind_ok, hsettled, Logged.ofExcept_bind_ok]
  cases source.savePath settled with
  | none =>
    dsimp only
    rw [saveIf_eq]
    rfl
  | some path =>
    dsimp only
    rw [saveIf_eq]
    rfl

theorem finishAdvance_error {e : Err} (h : ∀ id ∈ m.goalOrder, id ∈ m.goals.keys)
    (hsettled : settleStatus F (relisted m) now = .error e) :
    finishAdvance F source now m scheduler = .raise e := by
  unfold finishAdvance
  rw [rebuildLists_ok h, Logged.ofExcept_bind_ok, hsettled]
  rfl

end Digest

end Missions
end ZeroRuntime
