import ZeroRuntime.Missions.Dispatch
import ZeroRuntime.Missions.Seconds

/-!
# ZeroRuntime.Missions.Crash

A process that stops in the middle of an advance, and the advance that follows on the files as they
are left.

* `valid_enqueued`, `enqueueAll_again`: a queue is valid after a session was put into it, and putting
  the same sessions into it again changes nothing.
* `createSessions_of_enqueue`: the sessions that are needed are made, if they can be queued.
* `RunEvent`: a call, the work of the scheduler on its own queue, or a crash with the advance after
  it.
* `NoOrphan`: the law. `orphanless_run`: it holds after every event of a run whose events are
  `Orphanless`.
-/

namespace ZeroRuntime
namespace Missions

open Lib Sessions

/-! ## A queue that a session was put into -/

section Queue

variable {D : QueueDigest}

theorem entryReasons_eq_nil {before : List QueueEntry} {e : QueueEntry} :
    entryReasons D before e = [] ↔ e.entryFingerprint = D.entry (unsignedEntry e) ∧
      (before.any fun b => b.sequenceNumber = e.sequenceNumber) = false ∧
      ((before.any fun b => b.sessionId = e.sessionId) && !e.sessionStatus.terminal) = false ∧
      (e.leaseActive && before.any fun b => b.leaseActive && b.sessionId = e.sessionId) = false := by
  unfold entryReasons
  simp only [List.append_eq_nil_iff, ite_eq_left_iff, ite_eq_right_iff, List.cons_ne_nil,
    imp_false, not_not, Bool.not_eq_true, and_assoc]

theorem entriesReasons_append (before es es' : List QueueEntry) :
    entriesReasons D before (es ++ es') =
      entriesReasons D before es ++ entriesReasons D (before ++ es) es' := by
  induction es generalizing before with
  | nil => simp [entriesReasons]
  | cons e es ih =>
    rw [List.cons_append, entriesReasons, entriesReasons, ih, List.append_assoc,
      List.append_assoc]
    rfl

/-- Valid entries are sealed already. -/
theorem map_sealEntry {before es : List QueueEntry} (h : entriesReasons D before es = []) :
    es.map (sealEntry D) = es := by
  induction es generalizing before with
  | nil => rfl
  | cons e es ih =>
    rw [entriesReasons, List.append_eq_nil_iff] at h
    have hsealed : sealEntry D e = e := by
      unfold sealEntry
      rw [← (entryReasons_eq_nil.mp h.1).1]
    rw [List.map_cons, hsealed, ih h.2]

theorem sequence_lt {es : List QueueEntry} {e : QueueEntry} (h : e ∈ es) (n : ℕ) :
    e.sequenceNumber < es.foldl (fun n e => max n e.sequenceNumber) n + 1 := by
  have hle : ∀ (es : List QueueEntry) (n : ℕ),
      n ≤ es.foldl (fun n e => max n e.sequenceNumber) n := by
    intro es
    induction es with
    | nil => exact fun n => Nat.le_refl n
    | cons x es ih => exact fun n => (Nat.le_max_left n x.sequenceNumber).trans (ih _)
  induction es generalizing n with
  | nil => cases h
  | cons x es ih =>
    rw [List.foldl_cons]
    rcases List.mem_cons.mp h with rfl | h
    · have hmax := (Nat.le_max_right n e.sequenceNumber).trans (hle es (max n e.sequenceNumber))
      omega
    · exact ih h _

variable {st : SchedulerState}

theorem validateSchedulerState_eq_nil :
    validateSchedulerState D st = [] ↔ st.contract = schedulerContract ∧
      st.queueVersion = queueVersion ∧
      st.schedulerFingerprint = D.scheduler (unsignedScheduler st) ∧
      entriesReasons D [] st.entries = [] := by
  unfold validateSchedulerState
  simp only [List.append_eq_nil_iff, ite_eq_left_iff, List.cons_ne_nil, imp_false, not_not,
    and_assoc]

theorem sealSchedulerState_of_valid (h : validateSchedulerState D st = []) :
    sealSchedulerState D st = st := by
  obtain ⟨-, -, hfingerprint, hentries⟩ := validateSchedulerState_eq_nil.mp h
  unfold sealSchedulerState
  dsimp only
  rw [map_sealEntry hentries, ← hfingerprint]

/-- The state with one more entry for a session that was not in it. -/
theorem valid_appended (h : validateSchedulerState D st = []) {s : Session}
    (hnew : ∀ e ∈ st.entries, e.sessionId ≠ s.sessionId) (path : String) (priority : ℤ)
    (now : Instant) :
    validateSchedulerState D (sealSchedulerState D
      { st with
        entries := st.entries ++ [projection D s path priority (nextSequence st.entries) now]
        updatedAt := timeText now }) = [] := by
  obtain ⟨hcontract, hversion, -, hentries⟩ := validateSchedulerState_eq_nil.mp h
  have hsealed : (st.entries ++ [projection D s path priority (nextSequence st.entries) now]).map
      (sealEntry D) = st.entries ++
        [projection D s path priority (nextSequence st.entries) now] := by
    rw [List.map_append, map_sealEntry hentries]
    rfl
  refine validateSchedulerState_eq_nil.mpr ⟨hcontract, hversion, rfl, ?_⟩
  change entriesReasons D [] ((st.entries ++
    [projection D s path priority (nextSequence st.entries) now]).map (sealEntry D)) = []
  rw [hsealed, entriesReasons_append, hentries, List.nil_append, List.nil_append, entriesReasons,
    entriesReasons, List.append_nil, entryReasons_eq_nil]
  refine ⟨rfl, ?_, ?_, rfl⟩
  · rw [List.any_eq_false]
    intro e he
    have hlt : e.sequenceNumber < nextSequence st.entries := sequence_lt he 0
    have hne : e.sequenceNumber ≠ nextSequence st.entries := Nat.ne_of_lt hlt
    exact decide_eq_false hne ▸ Bool.false_ne_true
  · rw [Bool.and_eq_false_iff]
    left
    rw [List.any_eq_false]
    intro e he
    exact decide_eq_false (hnew e he) ▸ Bool.false_ne_true

end Queue

section Digest

variable {F : OrchestratorDigest} {target workspace : Root} {now : Instant}
  {st st' : SchedulerState}

variable {n : NewSession}

theorem valid_enqueued (h : enqueueNew F target workspace now st n = .ok st') :
    validateSchedulerState F.toQueueDigest st = [] ∧
      validateSchedulerState F.toQueueDigest st' = [] := by
  unfold enqueueNew enqueueSession at h
  dsimp only at h
  split at h
  · cases h
  rename_i hvalid
  have hvalid := not_not.mp hvalid
  refine ⟨hvalid, ?_⟩
  split at h
  · cases h
  obtain ⟨s, hs, h⟩ := bind_eq_ok.mp h
  split at h
  · split at h
    · cases h
      exact hvalid
    · cases h
  · rename_i hfind
    split at h
    · cases h
    · cases h
      refine valid_appended hvalid (fun e he hid => ?_) _ _ _
      exact List.find?_eq_none.mp hfind e he (decide_eq_true hid)

variable {created : List NewSession}

theorem valid_enqueueAll (hvalid : validateSchedulerState F.toQueueDigest st = [])
    (h : enqueueAll F target workspace now created st = .ok st') :
    validateSchedulerState F.toQueueDigest st' = [] := by
  induction created generalizing st with
  | nil =>
    cases h
    exact hvalid
  | cons n created ih =>
    rw [enqueueAll] at h
    obtain ⟨next, hnext, h⟩ := bind_eq_ok.mp h
    exact ih (valid_enqueued hnext).2 h

/-- A session that is in the queue already, as it is, is not put there again. -/
theorem enqueueNew_again {other next : SchedulerState}
    (hvalid : validateSchedulerState F.toQueueDigest st = [])
    (hn : enqueueNew F target workspace now other n = .ok next)
    (honce : ((places st).map Place.sessionId).Nodup)
    (hplace : ∃ p ∈ places st, p.sessionId = n.session.sessionId ∧
      p.sessionFingerprint = n.session.sessionFingerprint) :
    enqueueNew F target workspace now st n = .ok st := by
  unfold enqueueNew enqueueSession at hn ⊢
  dsimp only at hn ⊢
  rw [if_neg (not_not.mpr hvalid)]
  split at hn
  · cases hn
  split at hn
  · cases hn
  rename_i hrange
  rw [if_neg hrange]
  obtain ⟨s, hs, -⟩ := bind_eq_ok.mp hn
  have hsame : s = n.session := by
    have hs' := hs
    unfold checkedSession at hs'
    dsimp only at hs'
    split at hs'
    · cases hs'
    · cases hs'
      rfl
  subst hsame
  obtain ⟨p, hp, hid, hfingerprint⟩ := hplace
  obtain ⟨e, he, rfl⟩ := List.mem_map.mp hp
  cases hfind : st.entries.find? fun e => e.sessionId = n.session.sessionId with
  | none => exact absurd (decide_eq_true hid) (List.find?_eq_none.mp hfind e he)
  | some x =>
    have hx : x.sessionId = n.session.sessionId := by simpa using List.find?_some hfind
    have hentries : (st.entries.map QueueEntry.sessionId).Nodup := by
      unfold places at honce
      rwa [List.map_map] at honce
    have heq : x = e := List.inj_on_of_nodup_map hentries (List.mem_of_find?_eq_some hfind) he
      (hx.trans hid.symm)
    rw [hs]
    dsimp only [bind, Except.bind]
    rw [hfind]
    dsimp only
    rw [if_pos (heq ▸ hfingerprint)]

/-- Putting the same sessions into the queue again changes nothing. -/
theorem enqueueAll_again (hvalid : validateSchedulerState F.toQueueDigest st = [])
    (h : enqueueAll F target workspace now created st = .ok st')
    (honce : ((places st).map Place.sessionId).Nodup) :
    enqueueAll F target workspace now created st' = .ok st' := by
  have hvalid' := valid_enqueueAll hvalid h
  obtain ⟨hplaces, hall⟩ := enqueueAll_places h
  have honce' : ((places st').map Place.sessionId).Nodup := by
    rw [hplaces]
    exact nodup_putPlaces honce
  have hok : ∀ n ∈ created, ∃ other next,
      enqueueNew F target workspace now other n = .ok next := by
    clear hplaces hall honce honce' hvalid hvalid'
    induction created generalizing st with
    | nil => exact fun n hn => absurd hn List.not_mem_nil
    | cons x created ih =>
      rw [enqueueAll] at h
      obtain ⟨next, hnext, h⟩ := bind_eq_ok.mp h
      rw [List.forall_mem_cons]
      exact ⟨⟨st, next, hnext⟩, ih h⟩
  clear h hplaces
  induction created with
  | nil => rfl
  | cons n created ih =>
    rw [List.forall_mem_cons] at hall hok
    obtain ⟨other, next, hn⟩ := hok.1
    rw [enqueueAll, enqueueNew_again hvalid' hn honce' hall.1]
    exact ih hall.2 hok.2

/-! ## The same sessions once more -/

variable {m : Mission} {config : RuntimeConfig} {scheduler scheduler' : SchedulerState}

theorem For_after_withSession {n' : NewSession} (hne : n'.goalId ≠ n.goalId)
    (h : n'.For F m config target workspace now) :
    n'.For F (withSession m n.goalId n.goal n.path n.session) config target workspace now where
  goal := by
    change (m.goals.set n.goalId (sessionGoal n.goal n.path n.session)).get? n'.goalId = _
    rw [Dict.get?_set, if_neg hne]
    exact h.goal
  needs := h.needs
  path := h.path
  session := h.session

/-- The sessions that are needed are made, if they can be queued. -/
theorem createSessions_of_enqueue {ids : List String} (hids : ids.Nodup)
    (hkeys : ∀ id ∈ ids, id ∈ m.goals.keys)
    (hmade : ∀ n ∈ created, n.For F m config target workspace now)
    (hneeded : created.map NewSession.goalId = needing m.goals ids)
    (h : enqueueAll F target workspace now created scheduler = .ok scheduler') :
    createSessions F target workspace config now ids m scheduler =
      ⟨created.map NewSession.write, .ok (withSessions m created, scheduler')⟩ := by
  induction ids generalizing m created scheduler with
  | nil =>
    have hnil : created = [] := List.map_eq_nil_iff.mp hneeded
    subst hnil
    cases h
    rfl
  | cons id ids ih =>
    obtain ⟨hid, hrest⟩ := List.nodup_cons.mp hids
    rw [List.forall_mem_cons] at hkeys
    obtain ⟨g, hg⟩ := Dict.mem_keys.mp hkeys.1
    by_cases hneeds : needsSession g = true
    · have hneed : needing m.goals (id :: ids) = id :: needing m.goals ids := by
        unfold needing
        rw [List.filter_cons_of_pos]
        rw [hg]
        exact hneeds
      rw [hneed] at hneeded
      obtain ⟨n, rest, rfl, rfl, hothers⟩ := List.map_eq_cons_iff.mp hneeded
      rw [List.forall_mem_cons] at hmade
      rw [enqueueAll] at h
      obtain ⟨next, hnext, h⟩ := bind_eq_ok.mp h
      have hout : ∀ x ∈ rest, x.goalId ∈ ids := fun x hx => by
        have hmem := List.mem_map_of_mem (f := NewSession.goalId) hx
        rw [hothers] at hmem
        exact (List.mem_filter.mp hmem).1
      have hkeys' : ∀ i ∈ ids,
          i ∈ (withSession m n.goalId n.goal n.path n.session).goals.keys := by
        intro i hi
        have hset := @mem_keys_withSessions m [n] (fun x hx => by
          rw [List.mem_singleton.mp hx]
          exact hkeys.1) i
        exact hset.mpr (hkeys.2 i hi)
      have hmade' : ∀ x ∈ rest, x.For F (withSession m n.goalId n.goal n.path n.session) config
          target workspace now := fun x hx =>
        For_after_withSession (fun heq => hid (heq ▸ hout x hx)) (hmade.2 x hx)
      have hloop := ih hrest hkeys' hmade' (by rw [needing_withSession hid, hothers]) h
      rw [createSessions_next hg hneeds, createGoalSession_eq hmade.1, hnext]
      change (⟨[n.write], .ok (withSession m n.goalId n.goal n.path n.session, next)⟩ :
        Logged Write (Mission × SchedulerState)) >>= _ = _
      rw [Logged.bind_of_ok rfl]
      dsimp only
      rw [hloop]
      rfl
    · have hskip : needing m.goals (id :: ids) = needing m.goals ids := by
        unfold needing
        rw [List.filter_cons_of_neg]
        rw [hg]
        exact hneeds
      rw [hskip] at hneeded
      rw [createSessions_skip hg (by simpa using hneeds)]
      exact ih hrest hkeys.2 hmade hneeded h

theorem refreshGoal_of_sessions {disk disk' : Disk} {g : Goal}
    (h : ∀ path, g.sessionPath = some path →
      disk'.sessions.get? path = disk.sessions.get? path) :
    refreshGoal F disk' target workspace now g = refreshGoal F disk target workspace now g := by
  unfold refreshGoal loadSession
  cases hpath : g.sessionPath with
  | none => rfl
  | some path =>
    dsimp only
    rw [h path hpath]

/-- Only the files of the goals' sessions are read. -/
theorem refreshGoals_of_sessions {disk disk' : Disk} {goals : Goals}
    (h : ∀ id g path, goals.get? id = some g → g.sessionPath = some path →
      disk'.sessions.get? path = disk.sessions.get? path) (ids : List String) :
    refreshGoals F disk' target workspace now ids goals =
      refreshGoals F disk target workspace now ids goals := by
  induction ids generalizing goals with
  | nil => rfl
  | cons i ids ih =>
    rw [refreshGoals, refreshGoals]
    cases hg : goals.get? i with
    | none => rfl
    | some g =>
      dsimp only
      rw [refreshGoal_of_sessions fun path hpath => h i g path hg hpath]
      cases hresult : refreshGoal F disk target workspace now g with
      | error e => rfl
      | ok g' =>
        refine ih fun id x path hx hpath => ?_
        rw [Dict.get?_set] at hx
        split at hx
        · obtain ⟨_, _, _, hframe⟩ := refreshGoal_frame hresult
          cases hx
          rw [hframe] at hpath
          exact h i g path hg hpath
        · exact h id x path hx hpath

end Digest

/-! ## A crash and the advance after it -/

structure AdvanceCall where
  source : SchedulerSource
  config : RuntimeConfig
  now : Instant

inductive RunEvent where
  | call (e : Event)
  /-- The scheduler saves its queue. -/
  | requeue (st : SchedulerState)
  /-- An advance stops after so many writes, and there is another one on the files as left. -/
  | crash (first : AdvanceCall) (written : ℕ) (second : AdvanceCall)

/-- The mission is loaded from its file. -/
def World.restarted (w : World) (disk : Disk) : World where
  mission := (w.mission.missionPath.bind disk.missions.get?).getD w.mission
  disk := disk

section Digest

variable (F : OrchestratorDigest)

def World.advanced (w : World) (a : AdvanceCall) : Logged Write Mission :=
  advanceMission F w.mission a.source a.config a.now w.disk

def World.stopped (w : World) (a : AdvanceCall) (written : ℕ) : World :=
  w.restarted (w.disk.after ((w.advanced F a).writes.take written))

def RunEvent.next (w : World) : RunEvent → World
  | .call e => w.after (e.call F w)
  | .requeue st =>
    match w.mission.schedulerStatePath with
    | some path => ⟨w.mission, w.disk.write (.scheduler path st)⟩
    | none => w
  | .crash first written second =>
    (w.stopped F first written).after ((w.stopped F first written).advanced F second)

def runMachine : Machine World RunEvent Unit where
  step w e := ((), e.next F w)

/-- Every goal with a session is referenced by one entry of the queue, whose file holds that
session, and no entry names a session that the mission does not reference. -/
structure NoOrphan (w : World) : Prop where
  goals : ∀ id g sid, w.mission.goals.get? id = some g → g.sessionId = some sid →
    ∃ st e s, w.queue = some st ∧ (st.entries.filter fun e => e.sessionId = sid) = [e] ∧
      w.disk.sessions.get? e.sessionPath = some s ∧ s.sessionId = sid
  entries : ∀ st, w.queue = some st → ∀ e ∈ st.entries, w.mission.Knows e.sessionId

/-- The writes stop between the save of the queue and that of the mission, after a session. -/
structure BetweenSaves (ws : List Write) : Prop where
  session : ∃ path s, Write.session path s ∈ ws
  scheduler : ∃ path st, Write.scheduler path st ∈ ws
  mission : ∀ path x, Write.mission path x ∉ ws

/-- What an event must be like. -/
def Orphanless (w : World) : RunEvent → Prop
  | .call (.advance source config now) => Tidy F w source config now
  | .call (.submit ..) | .call (.resume ..) | .call (.cancel ..) => True
  | .requeue st => ∀ path, w.mission.schedulerStatePath = some path →
    (places st).map (fun p => (p.sessionId, p.sessionPath)) =
      (w.disk.queued path).map fun p => (p.sessionId, p.sessionPath)
  | .crash first written second =>
    Tidy F w first.source first.config first.now ∧
      (BetweenSaves ((w.advanced F first).writes.take written) →
        second.source.OfMission (w.stopped F first written) ∧ second.config = first.config ∧
          timeText second.now = timeText first.now) ∧
      (¬BetweenSaves ((w.advanced F first).writes.take written) →
        Tidy F (w.stopped F first written) second.source second.config second.now)

end Digest

/-! ## The same advance once more -/

section Again

variable {F : OrchestratorDigest} {mp sp : String} {w : World}

variable {created : List NewSession} {disk : Disk}

theorem Disk.after_present (h : ∀ n ∈ created, disk.sessions.get? n.path = some n.session) :
    disk.after (created.map NewSession.write) = disk := by
  induction created with
  | nil => rfl
  | cons n created ih =>
    rw [List.forall_mem_cons] at h
    have hwrite : disk.write n.write = disk := by
      change ({ disk with sessions := disk.sessions.set n.path n.session } : Disk) = disk
      rw [Dict.set_of_get? h.1]
    change (disk.write n.write).after (created.map NewSession.write) = disk
    rw [hwrite]
    exact ih h.2

variable {m : Mission}

theorem World.restarted_of_saved (hpath : w.mission.missionPath = some mp)
    (h : disk.missions.get? mp = some m) : w.restarted disk = ⟨m, disk⟩ := by
  unfold World.restarted
  rw [hpath, Option.bind_some, h]
  rfl

section Advance

variable {source source' : SchedulerSource} {config : RuntimeConfig} {now : Instant}
  {target workspace : Root} {scheduler scheduler' : SchedulerState} {goals : Goals}
  {created : List NewSession} {settled : Mission}

/-- The disk with the new sessions of an advance and its queue, but not its mission. -/
def Disk.betweenSaves (F : OrchestratorDigest) (disk : Disk) (sp : String)
    (created : List NewSession) (scheduler' : SchedulerState) : Disk :=
  (disk.after (created.map NewSession.write)).write
    (.scheduler sp (sealSchedulerState F.toQueueDigest scheduler'))

theorem sessions_betweenSaves (disk : Disk) :
    (disk.betweenSaves F sp created scheduler').sessions =
      (disk.after (created.map NewSession.write)).sessions := rfl

/-- An advance on what it has left between its saves does the same as before. -/
theorem Advances.again (hw : Orderly mp sp w)
    (hentered : Entered F w.mission source config now w.disk target workspace scheduler)
    (hopened : w.disk.queued sp = places scheduler)
    (h : Advances F w.mission source config now w.disk target workspace scheduler goals created
      scheduler' settled)
    (hunused : Unused w.mission (w.disk.queued sp) config)
    (hagain : source'.OfMission ⟨w.mission, w.disk.betweenSaves F sp created scheduler'⟩) :
    Advances F w.mission source' config now (w.disk.betweenSaves F sp created scheduler') target
      workspace scheduler' goals created scheduler' settled := by
  have horder : w.mission.goalOrder.Nodup := (hw.reached.sound.order.nodup_iff).mpr (nodup_keys _)
  have hvalid : validateSchedulerState F.toQueueDigest scheduler' = [] :=
    valid_enqueueAll hentered.schedulerValid h.queued
  have honce : ((places scheduler).map Place.sessionId).Nodup := hopened ▸ hw.queue.once
  have hfile : (w.disk.betweenSaves F sp created scheduler').schedulers.get? sp =
      some scheduler' := by
    change (Dict.set _ sp (sealSchedulerState F.toQueueDigest scheduler')).get? sp = _
    rw [Dict.get?_set, if_pos rfl, sealSchedulerState_of_valid hvalid]
  have hsame : openScheduler F w.mission source' (w.disk.betweenSaves F sp created scheduler') =
      .ok scheduler' := by
    have hqueue : World.queue ⟨w.mission, w.disk.betweenSaves F sp created scheduler'⟩ =
        some scheduler' := by
      unfold World.queue
      rw [hw.schedulerStatePath, Option.bind_some]
      exact hfile
    have hsave := savePath_ofMission hagain (m := w.mission) rfl
    cases source' with
    | given st =>
      rcases hagain with hst | ⟨hnone, -⟩
      · rw [hqueue, Option.some.injEq] at hst
        rw [hst]
        rfl
      · rw [hqueue] at hnone
        cases hnone
    | fromMission =>
      unfold openScheduler
      dsimp only
      rw [hsave, hw.schedulerStatePath, Option.bind_some, hfile]
      dsimp only
      rw [if_neg (not_not.mpr hvalid)]
    | path p =>
      unfold openScheduler
      dsimp only
      rw [hsave, hw.schedulerStatePath, Option.bind_some, hfile]
      dsimp only
      rw [if_neg (not_not.mpr hvalid)]
  have hnew : Entered F w.mission source' config now
      (w.disk.betweenSaves F sp created scheduler') target workspace scheduler' :=
    ⟨hentered.valid, hentered.active, hentered.confirmed, hsame, hvalid, hentered.target,
      hentered.workspace⟩
  have hrefreshed : refreshedGoals F w.mission (w.disk.betweenSaves F sp created scheduler')
      target workspace now = .ok goals := by
    have hnext := (h.written horder).next
    have hgoals := h.refreshed
    unfold refreshedGoals at hgoals ⊢
    have hfiles : ∀ id g path, w.mission.goals.get? id = some g → g.sessionPath = some path →
        (w.disk.betweenSaves F sp created scheduler').sessions.get? path =
          w.disk.sessions.get? path := by
      intro id g path hg hpath
      rw [sessions_betweenSaves, sessions_after]
      exact not_mem_created fun n hn heq =>
        hunused.goals n.goalId n.path (hnext n hn) id g hg (heq ▸ hpath)
    rw [refreshGoals_of_sessions hfiles, hgoals]
  have hqueued := enqueueAll_again hentered.schedulerValid h.queued honce
  exact .of_entered hnew hrefreshed h.made h.needed hqueued
    (createSessions_of_enqueue horder (mem_keys_refreshedGoals hrefreshed).1 h.made h.needed
      hqueued) h.settles

/-- So the world is in the end as if the advance had not been stopped. -/
theorem after_betweenSaves (hw : Orderly mp sp w) (hsource : source.OfMission w)
    (hentered : Entered F w.mission source config now w.disk target workspace scheduler)
    (hopened : w.disk.queued sp = places scheduler)
    (h : Advances F w.mission source config now w.disk target workspace scheduler goals created
      scheduler' settled)
    (hunused : Unused w.mission (w.disk.queued sp) config)
    (hagain : source'.OfMission ⟨w.mission, w.disk.betweenSaves F sp created scheduler'⟩) :
    World.after ⟨w.mission, w.disk.betweenSaves F sp created scheduler'⟩
        (advanceMission F w.mission source' config now
          (w.disk.betweenSaves F sp created scheduler')) =
      w.after (advanceMission F w.mission source config now w.disk) := by
  have horder : w.mission.goalOrder.Nodup := (hw.reached.sound.order.nodup_iff).mpr (nodup_keys _)
  have hnew := h.again hw hentered hopened hunused hagain
  obtain ⟨hsame, hanswer⟩ := h.writes_eq hw hsource
  have hpaths := (h.written horder).paths hunused
  have hsessions : (w.disk.betweenSaves F sp created scheduler').after
      (created.map NewSession.write) = w.disk.betweenSaves F sp created scheduler' :=
    Disk.after_present fun n hn => sessions_after_created hpaths hn w.disk
  have hpath : settled.schedulerStatePath = w.mission.schedulerStatePath := by
    rw [hsame.schedulerStatePath]
    change (withSessions (w.mission.withGoals goals) created).schedulerStatePath = _
    rw [schedulerStatePath_withSessions]
    rfl
  have hsecond : advanceMission F w.mission source' config now
      (w.disk.betweenSaves F sp created scheduler') =
        advanceMission F w.mission source config now w.disk := by
    rw [hnew.answer, h.answer]
    unfold schedulerWrites
    rw [savePath_ofMission hsource hpath, savePath_ofMission hagain hpath]
  rw [hsecond, hanswer]
  unfold World.after
  rw [Disk.after_append, Disk.after_append, hsessions]
  have hqueue : (w.disk.betweenSaves F sp created scheduler').write
      (.scheduler sp (sealSchedulerState F.toQueueDigest scheduler')) =
        w.disk.betweenSaves F sp created scheduler' := by
    unfold Disk.betweenSaves Disk.write
    dsimp only
    rw [Dict.set_of_get? ((Dict.get?_set _ _ _ _).trans (if_pos rfl))]
  change (⟨_, ((w.disk.betweenSaves F sp created scheduler').write
    (.scheduler sp (sealSchedulerState F.toQueueDigest scheduler'))).write
      (.mission mp (sealMission F.toMissionDigest settled))⟩ : World) = _
  rw [hqueue]
  rfl

end Advance

/-! ## The law -/

theorem orderly_requeue (hw : Orderly mp sp w) {st : SchedulerState}
    (h : (places st).map (fun p => (p.sessionId, p.sessionPath)) =
      (w.disk.queued sp).map fun p => (p.sessionId, p.sessionPath)) :
    Orderly mp sp ⟨w.mission, w.disk.write (.scheduler sp st)⟩ := by
  have hqueued : (w.disk.write (.scheduler sp st)).queued sp = places st :=
    Disk.queued_of_get? ((Dict.get?_set _ _ _ _).trans (if_pos rfl))
  have hids : (places st).map Place.sessionId = (w.disk.queued sp).map Place.sessionId := by
    have hfirst := congrArg (List.map Prod.fst) h
    rwa [List.map_map, List.map_map] at hfirst
  have hback : ∀ p ∈ places st, ∃ q ∈ w.disk.queued sp,
      q.sessionId = p.sessionId ∧ q.sessionPath = p.sessionPath := by
    intro p hp
    have hmem : (p.sessionId, p.sessionPath) ∈
        (w.disk.queued sp).map fun p => (p.sessionId, p.sessionPath) := by
      rw [← h]
      exact List.mem_map_of_mem hp
    obtain ⟨q, hq, heq⟩ := List.mem_map.mp hmem
    rw [Prod.mk.injEq] at heq
    exact ⟨q, hq, heq⟩
  have hd := hw.queue
  refine ⟨hw.missionPath, hw.schedulerStatePath, hw.saved, hw.reached, ?_⟩
  change Dispatched w.mission ((w.disk.write (.scheduler sp st)).queued sp) _
  rw [hqueued]
  refine ⟨fun id g sid hg hsid => ?_, ?_, fun p hp => ?_, fun p hp => ?_⟩
  · rw [hids]
    exact hd.queued id g sid hg hsid
  · rw [hids]
    exact hd.once
  · obtain ⟨q, hq, hid, hpath⟩ := hback p hp
    rw [← hid, ← hpath]
    exact hd.stored q hq
  · obtain ⟨q, hq, hid, -⟩ := hback p hp
    rw [← hid]
    exact hd.known q hq

theorem not_betweenSaves_created (created : List NewSession) :
    ¬BetweenSaves (created.map NewSession.write) := by
  rintro ⟨-, ⟨path, st, h⟩, -⟩
  obtain ⟨n, -, heq⟩ := List.mem_map.mp h
  cases heq

/-- The world in which an advance has stopped before it saved its queue is in order. -/
theorem orderly_of_writes (hw : Orderly mp sp w) {a : AdvanceCall} {k : ℕ}
    (htake : (w.advanced F a).writes.take k = (created.take k).map NewSession.write)
    (hnext : ∀ n ∈ created, NextFile w.mission a.config n.goalId n.path)
    (hunused : Unused w.mission (w.disk.queued sp) a.config) :
    Orderly mp sp (w.stopped F a k) ∧ ¬BetweenSaves ((w.advanced F a).writes.take k) := by
  have hnext' : ∀ n ∈ created.take k, NextFile w.mission a.config n.goalId n.path :=
    fun n hn => hnext n (List.mem_of_mem_take hn)
  have horderly := hw.written hnext' hunused
  have hworld : w.stopped F a k =
      ⟨w.mission, w.disk.after ((created.take k).map NewSession.write)⟩ := by
    unfold World.stopped
    rw [htake]
    exact World.restarted_of_saved hw.missionPath horderly.saved
  rw [hworld, htake]
  exact ⟨horderly, not_betweenSaves_created _⟩

theorem orderly_crash (hw : Orderly mp sp w) {first second : AdvanceCall} {k : ℕ}
    (h : Orphanless F w (.crash first k second)) :
    Orderly mp sp ((w.stopped F first k).after ((w.stopped F first k).advanced F second)) := by
  obtain ⟨htidy, hbetween, hrest⟩ := h
  have hdone : Orderly mp sp (w.stopped F first k) →
      ¬BetweenSaves ((w.advanced F first).writes.take k) →
      Orderly mp sp ((w.stopped F first k).after ((w.stopped F first k).advanced F second)) :=
    fun horderly hnot => orderly_advance horderly (hrest hnot)
  have horder : w.mission.goalOrder.Nodup := (hw.reached.sound.order.nodup_iff).mpr (nodup_keys _)
  by_cases hentered : ∃ target workspace scheduler,
      Entered F w.mission first.source first.config first.now w.disk target workspace scheduler
  · obtain ⟨target, workspace, scheduler, hentered⟩ := hentered
    have hopened := hw.opened htidy.ofMission hentered
    have hunused := htidy.unused target workspace scheduler hentered
    rw [← hopened] at hunused
    cases hresult : (w.advanced F first).result with
    | error e =>
      obtain ⟨created, hwrites, hnext⟩ := advance_of_error hentered horder hresult
      have htake : (w.advanced F first).writes.take k =
          (created.take k).map NewSession.write := by
        rw [List.map_take]
        exact congrArg (List.take k) hwrites
      obtain ⟨horderly, hnot⟩ := orderly_of_writes hw htake hnext hunused
      exact hdone horderly hnot
    | ok m' =>
      obtain ⟨goals, created, scheduler', settled, hadv⟩ :=
        advances_of_ok hentered horder hresult
      obtain ⟨-, hanswer⟩ := hadv.writes_eq hw htidy.ofMission
      have hnext := (hadv.written horder).next
      have hwrites : (w.advanced F first).writes = created.map NewSession.write ++
          [.scheduler sp (sealSchedulerState F.toQueueDigest scheduler'),
            .mission mp (sealMission F.toMissionDigest settled)] :=
        congrArg Logged.writes hanswer
      have hafter := hadv.orderly hw hopened htidy.ofMission hunused
      rcases Nat.lt_trichotomy k (created.length + 1) with hk | hk | hk
      · -- Some sessions are saved, or all of them.
        have htake : (w.advanced F first).writes.take k =
            (created.take k).map NewSession.write := by
          rw [hwrites, List.take_append_of_le_length (by rw [List.length_map]; omega),
            List.map_take]
        obtain ⟨horderly, hnot⟩ := orderly_of_writes hw htake hnext hunused
        exact hdone horderly hnot
      · -- The queue is saved, and the mission is not.
        have htake : (w.advanced F first).writes.take k = created.map NewSession.write ++
            [.scheduler sp (sealSchedulerState F.toQueueDigest scheduler')] := by
          have hlength : created.length = (created.map NewSession.write).length :=
            (List.length_map _).symm
          rw [hwrites, hk, hlength, List.take_length_add_append]
          rfl
        have hworld : w.stopped F first k =
            ⟨w.mission, w.disk.betweenSaves F sp created scheduler'⟩ := by
          have hmissions := (schedulers_after_created created w.disk).2
          unfold World.stopped
          rw [htake, Disk.after_append]
          refine World.restarted_of_saved hw.missionPath ?_
          change (w.disk.after (created.map NewSession.write)).missions.get? mp = _
          rw [hmissions]
          exact hw.saved
        by_cases hnone : created = []
        · subst hnone
          have hscheduler : scheduler' = scheduler := by
            have hqueued := hadv.queued
            cases hqueued
            rfl
          refine hdone ?_ ?_
          · rw [hworld]
            refine orderly_requeue hw ?_
            rw [places_sealed, hscheduler, hopened]
          · rw [htake]
            rintro ⟨⟨path, s, hs⟩, -, -⟩
            cases List.mem_singleton.mp hs
        · have hb : BetweenSaves ((w.advanced F first).writes.take k) := by
            obtain ⟨n, rest, rfl⟩ := List.exists_cons_of_ne_nil hnone
            rw [htake]
            refine ⟨⟨n.path, n.session, List.mem_cons_self⟩, ⟨sp, _,
              List.mem_append_right _ (List.mem_singleton.mpr rfl)⟩, fun path x hx => ?_⟩
            rcases List.mem_append.mp hx with hx | hx
            · obtain ⟨y, -, heq⟩ := List.mem_map.mp hx
              cases heq
            · cases List.mem_singleton.mp hx
          obtain ⟨hsource, hconfig, hnow⟩ := hbetween hb
          rw [hworld] at hsource ⊢
          have hsame : World.advanced F ⟨w.mission, w.disk.betweenSaves F sp created scheduler'⟩
              second = advanceMission F w.mission second.source first.config first.now
                (w.disk.betweenSaves F sp created scheduler') := by
            unfold World.advanced
            rw [hconfig]
            exact advanceMission_second hnow second.source
          rw [hsame, after_betweenSaves hw htidy.ofMission hentered hopened hadv hunused hsource]
          exact hafter
      · -- Everything is saved.
        have htake : (w.advanced F first).writes.take k = (w.advanced F first).writes := by
          refine List.take_of_length_le ?_
          rw [hwrites, List.length_append, List.length_map]
          exact hk
        have hworld : w.stopped F first k = w.after (w.advanced F first) := by
          unfold World.stopped
          rw [htake]
          refine World.restarted_of_saved hw.missionPath ?_
          rw [hwrites, Disk.after_append, show w.advanced F first = _ from hanswer]
          exact (Dict.get?_set _ _ _ _).trans (if_pos rfl)
        refine hdone ?_ ?_
        · rw [hworld]
          exact hafter
        · rw [htake, hwrites]
          rintro ⟨-, -, hmission⟩
          exact hmission mp _ (List.mem_append_right _ (.tail _ (.head _)))
  · obtain ⟨hwrites, -⟩ := advanceMission_of_not_entered hentered
    have htake : (w.advanced F first).writes.take k = [] := by
      rw [show (w.advanced F first).writes = [] from hwrites, List.take_nil]
    have hworld : w.stopped F first k = w := by
      unfold World.stopped
      rw [htake]
      exact World.restarted_of_saved hw.missionPath hw.saved
    refine hdone ?_ ?_
    · rw [hworld]
      exact hw
    · rw [htake]
      exact not_betweenSaves_created []

theorem orderly_step (hw : Orderly mp sp w) (e : RunEvent) (h : Orphanless F w e) :
    Orderly mp sp (e.next F w) := by
  cases e with
  | call e =>
    cases e with
    | advance source config now => exact orderly_advance hw h
    | submit input now clock => exact orderly_submit hw input now clock
    | resume path input decision target workspace now =>
      exact orderly_onSession hw fun s s' hs => sessionId_resume hs
    | cancel path operatorId now => exact orderly_onSession hw fun s s' hs => sessionId_cancel hs
  | requeue st =>
    unfold RunEvent.next
    rw [hw.schedulerStatePath]
    exact orderly_requeue hw (h sp hw.schedulerStatePath)
  | crash first written second => exact orderly_crash hw h

theorem filter_eq_singleton {es : List QueueEntry} (h : (es.map QueueEntry.sessionId).Nodup)
    {e : QueueEntry} (he : e ∈ es) :
    es.filter (fun x => x.sessionId = e.sessionId) = [e] := by
  induction es with
  | nil => cases he
  | cons x es ih =>
    obtain ⟨hx, hes⟩ := List.nodup_cons.mp h
    rcases List.mem_cons.mp he with rfl | he
    · have hnone : es.filter (fun x => x.sessionId = e.sessionId) = [] := by
        rw [List.filter_eq_nil_iff]
        intro y hy hid
        exact hx (of_decide_eq_true hid ▸ List.mem_map_of_mem hy)
      rw [List.filter_cons_of_pos (by simp), hnone]
    · have hne : x.sessionId ≠ e.sessionId := fun heq => hx (heq ▸ List.mem_map_of_mem he)
      rw [List.filter_cons_of_neg (by simpa using hne), ih hes he]

/-- Where the queue is in order no session is without its goal, and no goal without its entry. -/
theorem Orderly.noOrphan (hw : Orderly mp sp w) : NoOrphan w := by
  have hqueue : w.queue = w.disk.schedulers.get? sp := by
    unfold World.queue
    rw [hw.schedulerStatePath, Option.bind_some]
  constructor
  · intro id g sid hg hsid
    have hmem := hw.queue.queued id g sid hg hsid
    cases hst : w.disk.schedulers.get? sp with
    | none =>
      unfold Disk.queued at hmem
      rw [hst] at hmem
      cases hmem
    | some st =>
      rw [Disk.queued_of_get? hst] at hmem
      obtain ⟨e, he, rfl⟩ := mem_ids.mp hmem
      have honce := hw.queue.once
      rw [Disk.queued_of_get? hst] at honce
      unfold places at honce
      rw [List.map_map] at honce
      obtain ⟨s, hs, hid⟩ := hw.queue.stored (placeOf e) (by
        rw [Disk.queued_of_get? hst]
        exact List.mem_map_of_mem he)
      exact ⟨st, e, s, hqueue.trans hst, filter_eq_singleton honce he, hs, hid⟩
  · intro st hst e he
    refine hw.queue.known (placeOf e) ?_
    rw [Disk.queued_of_get? (hqueue.symm.trans hst)]
    exact List.mem_map_of_mem he

/-! ## Runs -/

instance (m : Mission) (sid : String) : Decidable (m.Knows sid) :=
  decidable_of_iff
    (∃ e ∈ m.sessionReferences.entries, sid ∈ e.2.map SessionReference.sessionId) <| by
      unfold Mission.Knows
      simp only [Prod.exists, Dict.mem_entries]

def World.allKnown (w : World) : Bool :=
  w.queue.all fun st => st.entries.all fun e => w.mission.Knows e.sessionId

theorem NoOrphan.allKnown (h : NoOrphan w) : w.allKnown = true := by
  unfold World.allKnown
  cases hst : w.queue with
  | none => rfl
  | some st =>
    rw [Option.all_some, List.all_eq_true]
    exact fun e he => decide_eq_true (h.entries st hst e he)

variable {plan : Option (List GoalItem)} {config : MissionConfig}

theorem writes_created {input targetPath : String} {target workspace : Root} {now : Instant}
    (h : (createMission F input plan target workspace targetPath config now disk).result = .ok m)
    (hmission : config.missionPath = some mp) (hscheduler : config.schedulerStatePath = some sp) :
    m.missionPath = some mp ∧ m.schedulerStatePath = some sp ∧
      (createMission F input plan target workspace targetPath config now disk).writes =
        (if disk.schedulers.contains sp then []
          else [.scheduler sp (createSchedulerState F.toQueueDigest now)]) ++ [.mission mp m] := by
  unfold createMission at h ⊢
  split at h
  · cases h
  split at h
  · cases h
  rename_i houtside
  rw [if_neg houtside]
  obtain ⟨contract, hcontract, h⟩ := Logged.result_bind.mp h
  change createMissionContract F.toMissionDigest input _ target workspace config now =
    .ok contract at hcontract
  rw [hcontract, Logged.ofExcept_bind_ok]
  have hsave : saveIf F (contract.withPaths config) =
      ⟨[.mission mp (sealMission F.toMissionDigest (contract.withPaths config))],
        .ok (sealMission F.toMissionDigest (contract.withPaths config))⟩ := by
    rw [saveIf_eq]
    unfold missionWrites
    rw [show (contract.withPaths config).missionPath = some mp from hmission]
  change (match config.schedulerStatePath with
    | some path => if disk.schedulers.contains path then saveIf F (contract.withPaths config)
      else Logged.write (Write.scheduler path (createSchedulerState F.toQueueDigest now)) >>=
        fun _ => saveIf F (contract.withPaths config)
    | none => saveIf F (contract.withPaths config)).result = .ok m at h
  change _ ∧ _ ∧ (match config.schedulerStatePath with
    | some path => if disk.schedulers.contains path then saveIf F (contract.withPaths config)
      else Logged.write (Write.scheduler path (createSchedulerState F.toQueueDigest now)) >>=
        fun _ => saveIf F (contract.withPaths config)
    | none => saveIf F (contract.withPaths config)).writes = _
  rw [hscheduler, hsave] at h ⊢
  dsimp only at h ⊢
  split at h
  · rename_i hfile
    cases h
    refine ⟨hmission, hscheduler, ?_⟩
    rw [if_pos hfile, if_pos hfile]
    rfl
  · rename_i hfile
    cases h
    refine ⟨hmission, hscheduler, ?_⟩
    rw [if_neg hfile, if_neg hfile]
    rfl

/-- A mission begins in order, if its queue is empty. -/
theorem orderly_created {input targetPath : String} {target workspace : Root} {now : Instant}
    (h : (createMission F input plan target workspace targetPath config now disk).result = .ok m)
    (hmission : config.missionPath = some mp) (hscheduler : config.schedulerStatePath = some sp)
    (hempty : ∀ st, disk.schedulers.get? sp = some st → st.entries = []) :
    Orderly mp sp ⟨m, disk.after
      (createMission F input plan target workspace targetPath config now disk).writes⟩ := by
  obtain ⟨hmp, hsp, hwrites⟩ := writes_created h hmission hscheduler
  obtain ⟨items, missionId, b, -, hcreated⟩ := created_of_ok h
  have hgoals : m.goals = mapGoals freshGoal b.goals := hcreated.statusOnly.1.goals
  rw [hwrites, Disk.after_append]
  refine ⟨hmp, hsp, (Dict.get?_set _ _ _ _).trans (if_pos rfl), reached_created hcreated, ?_⟩
  have hqueued : Disk.queued ((disk.after (if disk.schedulers.contains sp then []
      else [Write.scheduler sp (createSchedulerState F.toQueueDigest now)])).after
        [.mission mp m]) sp = [] := by
    unfold Disk.queued
    cases hst : disk.schedulers.get? sp with
    | none =>
      have hfile : ¬disk.schedulers.contains sp = true := by
        unfold Dict.contains
        rw [hst]
        exact Bool.false_ne_true
      rw [if_neg hfile]
      change Option.getD (Option.map places (Dict.get? (Dict.set _ sp _) sp)) [] = []
      rw [Dict.get?_set, if_pos rfl]
      rfl
    | some st =>
      have hfile : disk.schedulers.contains sp = true := Dict.contains_iff.mpr ⟨st, hst⟩
      rw [if_pos hfile]
      change Option.getD (Option.map places (disk.schedulers.get? sp)) [] = []
      rw [hst]
      change st.entries.map placeOf = []
      rw [hempty st hst]
      rfl
  change Dispatched m (Disk.queued _ sp) _
  rw [hqueued]
  refine ⟨fun id g sid hg hsid => ?_, List.nodup_nil, fun p hp => ?_, fun p hp => ?_⟩
  · rw [hgoals, get?_mapGoals] at hg
    obtain ⟨x, -, rfl⟩ := Option.map_eq_some_iff.mp hg
    cases hsid
  · cases hp
  · cases hp

/-- In every run with crashes, if none is between the save of the queue and that of the mission,
or the advance after it makes the same sessions, no dispatch is orphaned. -/
theorem orphanless_run {input targetPath : String} {plan : Option (List GoalItem)}
    {target workspace : Root} {config : MissionConfig} {now : Instant} {disk : Disk} {m : Mission}
    (hcreate : (createMission F input plan target workspace targetPath config now
      disk).result = .ok m)
    (hmission : config.missionPath = some mp) (hscheduler : config.schedulerStatePath = some sp)
    (hempty : ∀ st, disk.schedulers.get? sp = some st → st.entries = [])
    (events : List RunEvent)
    (h : (runMachine F).Guarded (Orphanless F) ⟨m, disk.after
      (createMission F input plan target workspace targetPath config now disk).writes⟩ events) :
    (runMachine F).Guarded (fun w e => NoOrphan (e.next F w)) ⟨m, disk.after
      (createMission F input plan target workspace targetPath config now disk).writes⟩ events := by
  have hstep : ∀ w e, Orderly mp sp w → Orphanless F w e →
      NoOrphan (e.next F w) ∧ Orderly mp sp (e.next F w) := by
    intro w e hw he
    have hnext := orderly_step hw e he
    exact ⟨hnext.noOrphan, hnext⟩
  exact Machine.Guarded.of_invariant hstep h
    (orderly_created hcreate hmission hscheduler hempty)

theorem not_betweenSaves_sessions {ws : List Write} (h : ws.all Write.isSession = true) :
    ¬BetweenSaves ws := by
  rintro ⟨-, ⟨path, st, hst⟩, -⟩
  cases List.all_eq_true.mp h _ hst

/-- Where nothing is queued and there is one goal, an advance is in nobody's way. -/
theorem tidy_first {config : RuntimeConfig} {now : Instant}
    (hpath : w.mission.schedulerStatePath = some sp) (hqueue : w.disk.queued sp = [])
    (hsingle : w.mission.goals.keys.length ≤ 1)
    (hnone : ∀ g ∈ w.mission.goals.values, g.sessionPath = none) :
    Tidy F w .fromMission config now where
  ofMission := trivial
  unused := by
    intro target workspace scheduler hentered
    have hplaces : places scheduler = [] := by
      have hsource : SchedulerSource.OfMission w .fromMission := trivial
      rw [← opened_ofMission hpath hsource hentered.opened]
      exact hqueue
    rw [hplaces]
    refine ⟨fun _ _ _ _ hp => absurd hp List.not_mem_nil, fun id path _ id' g' hg' hsome => ?_,
      ?_⟩
    · rw [hnone g' (Dict.mem_values.mpr ⟨id', hg'⟩)] at hsome
      cases hsome
    · rintro id id' path ⟨-, g, -, hg, -⟩ ⟨-, g', -, hg', -⟩
      have hid := Dict.mem_keys.mpr ⟨g, hg⟩
      have hid' := Dict.mem_keys.mpr ⟨g', hg'⟩
      match hkeys : w.mission.goals.keys with
      | [] =>
        rw [hkeys] at hid
        cases hid
      | [i] =>
        rw [hkeys] at hid hid'
        rw [List.mem_singleton.mp hid, List.mem_singleton.mp hid']
      | i :: j :: rest =>
        rw [hkeys, List.length_cons, List.length_cons] at hsingle
        omega

end Again

/-! ## A crash after the queue is saved -/

/-- Sessions have the time of their creation in their ids. -/
def timedRuntime : OrchestratorDigest :=
  { sampleRuntime with value := fun v => (Val.getIn "created_at" v.entries).toText }

/-- An advance of a mission with a confirmed plan stops, and one second later there is another. -/
def sampleCrash (m : Mission) (written : ℕ) : List RunEvent :=
  [.call (.submit (sampleInput m "confirm" .confirmGoalPlan (samplePlan m)) none 0),
    .crash ⟨.fromMission, sampleConfig, 0⟩ written ⟨.fromMission, sampleConfig, 1000000⟩]

theorem orphanless_run_sample : ∃ answer m,
    createMission timedRuntime "task" (some [sampleItem "a" []]) (some "/target")
      (some "/workspace") "/target" samplePaths 0 {} = answer ∧ answer.result = .ok m ∧
    (runMachine timedRuntime).Guarded (fun w e => NoOrphan (e.next timedRuntime w))
      ⟨m, ({} : Disk).after answer.writes⟩ (sampleCrash m 1) := by
  refine ⟨_, _, rfl, rfl, ?_⟩
  refine @orphanless_run _ "/data/mission.json" "/data/scheduler.json" _ _ _ _ _ _ _ _ _ rfl rfl
    rfl (fun st hst => by cases hst) _ ⟨trivial, ⟨?_, fun hb => ?_, fun _ => ?_⟩, trivial⟩
  · exact @tidy_first _ "/data/scheduler.json" _ _ _ (by decide +kernel) (by decide +kernel)
      (by decide +kernel) (by decide +kernel)
  · exact absurd hb (not_betweenSaves_sessions (by decide +kernel))
  · exact @tidy_first _ "/data/scheduler.json" _ _ _ (by decide +kernel) (by decide +kernel)
      (by decide +kernel) (by decide +kernel)

/-- The session that is queued is written over by the next one, and its entry is left. -/
theorem crash_leaves_orphan : ∃ answer m,
    createMission timedRuntime "task" (some [sampleItem "a" []]) (some "/target")
      (some "/workspace") "/target" samplePaths 0 {} = answer ∧ answer.result = .ok m ∧
    ¬(runMachine timedRuntime).Guarded (fun w e => NoOrphan (e.next timedRuntime w))
      ⟨m, ({} : Disk).after answer.writes⟩ (sampleCrash m 2) := by
  refine ⟨_, _, rfl, rfl, fun h => ?_⟩
  have hknown := h.2.1.allKnown
  revert hknown
  decide +kernel

end Missions
end ZeroRuntime
