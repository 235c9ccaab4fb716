import ZeroRuntime.Missions.Completed

/-!
# ZeroRuntime.Missions.Dispatch

The queue of a mission: every goal that has a session is in it once, and nothing else is.

* A `Place` is what an entry of the queue says of its session. `putPlace` is what putting a session
  into the queue does to the places: `enqueueNew_places`, `enqueueAll_places`.
* `Dispatched`: the law. `dispatched_advanced`: a whole advance keeps it.
* `Unused`: no new session of an advance lies where a session is that is known already.
-/

namespace ZeroRuntime
namespace Missions

open Lib Sessions

/-! ## Places -/

structure Place where
  sessionId : String
  sessionPath : String
  sessionFingerprint : String
deriving DecidableEq, Repr

def placeOf (e : QueueEntry) : Place := ⟨e.sessionId, e.sessionPath, e.sessionFingerprint⟩

def places (st : SchedulerState) : List Place := st.entries.map placeOf

def NewSession.place (n : NewSession) : Place :=
  ⟨n.session.sessionId, n.path, n.session.sessionFingerprint⟩

/-- A session is put into the queue once. -/
def putPlace (q : List Place) (p : Place) : List Place :=
  if p.sessionId ∈ q.map Place.sessionId then q else q ++ [p]

def putPlaces (q : List Place) (created : List NewSession) : List Place :=
  created.foldl (fun q n => putPlace q n.place) q

theorem places_sealed (D : QueueDigest) (st : SchedulerState) :
    places (sealSchedulerState D st) = places st := by
  unfold places sealSchedulerState
  dsimp only
  rw [List.map_map]
  rfl

variable {q : List Place}

theorem mem_putPlace {p x : Place} (h : x ∈ putPlace q p) : x ∈ q ∨ x = p := by
  unfold putPlace at h
  split at h
  · exact .inl h
  · rcases List.mem_append.mp h with h | h
    · exact .inl h
    · exact .inr (List.mem_singleton.mp h)

theorem putPlace_sublist (q : List Place) (p : Place) : q.Sublist (putPlace q p) := by
  unfold putPlace
  split
  · exact List.Sublist.refl q
  · exact List.sublist_append_left q [p]

theorem nodup_putPlace (h : (q.map Place.sessionId).Nodup) (p : Place) :
    ((putPlace q p).map Place.sessionId).Nodup := by
  unfold putPlace
  split
  · exact h
  · rename_i hnew
    rw [List.map_append, List.nodup_append]
    refine ⟨h, List.nodup_singleton _, fun a ha b hb hab => ?_⟩
    rw [List.map_singleton, List.mem_singleton] at hb
    exact hnew (hb ▸ hab ▸ ha)

theorem id_mem_putPlace (q : List Place) (p : Place) :
    p.sessionId ∈ (putPlace q p).map Place.sessionId := by
  unfold putPlace
  split
  · rename_i h
    exact h
  · rw [List.map_append]
    exact List.mem_append_right _ List.mem_cons_self

section Places

variable {q : List Place} {created : List NewSession}

theorem putPlaces_cons (n : NewSession) :
    putPlaces q (n :: created) = putPlaces (putPlace q n.place) created := rfl

theorem putPlaces_sublist : q.Sublist (putPlaces q created) := by
  induction created generalizing q with
  | nil => exact List.Sublist.refl q
  | cons n created ih =>
    rw [putPlaces_cons]
    exact (putPlace_sublist q n.place).trans ih

theorem mem_putPlaces {x : Place} (h : x ∈ putPlaces q created) :
    x ∈ q ∨ ∃ n ∈ created, x = n.place := by
  induction created generalizing q with
  | nil => exact .inl h
  | cons n created ih =>
    rw [putPlaces_cons] at h
    rcases ih h with h | ⟨y, hy, rfl⟩
    · rcases mem_putPlace h with h | rfl
      · exact .inl h
      · exact .inr ⟨n, List.mem_cons_self, rfl⟩
    · exact .inr ⟨y, List.mem_cons_of_mem _ hy, rfl⟩

theorem nodup_putPlaces (h : (q.map Place.sessionId).Nodup) :
    ((putPlaces q created).map Place.sessionId).Nodup := by
  induction created generalizing q with
  | nil => exact h
  | cons n created ih =>
    rw [putPlaces_cons]
    exact ih (nodup_putPlace h n.place)

theorem id_mem_putPlaces {n : NewSession} (h : n ∈ created) :
    n.session.sessionId ∈ (putPlaces q created).map Place.sessionId := by
  induction created generalizing q with
  | nil => cases h
  | cons x created ih =>
    rw [putPlaces_cons]
    rcases List.mem_cons.mp h with rfl | h
    · exact (putPlaces_sublist.map Place.sessionId).subset (id_mem_putPlace q n.place)
    · exact ih h

end Places

/-! ## Putting sessions into the queue -/

section Digest

variable {F : OrchestratorDigest} {target workspace : Root} {now : Instant}
  {st st' : SchedulerState}

theorem mem_ids {id : String} :
    id ∈ (places st).map Place.sessionId ↔ ∃ e ∈ st.entries, e.sessionId = id := by
  unfold places
  rw [List.map_map, List.mem_map]
  rfl

/-- A session that is put into the queue has one place in it, which is the session's own if it was
not there before. -/
theorem enqueueNew_places {n : NewSession}
    (h : enqueueNew F target workspace now st n = .ok st') :
    places st' = putPlace (places st) n.place ∧
      ∃ p ∈ places st', p.sessionId = n.session.sessionId ∧
        p.sessionFingerprint = n.session.sessionFingerprint := by
  unfold enqueueNew enqueueSession at h
  dsimp only at h
  split at h
  · cases h
  split at h
  · cases h
  obtain ⟨s, hs, h⟩ := bind_eq_ok.mp h
  have hsame : s = n.session := by
    unfold checkedSession at hs
    dsimp only at hs
    split at hs
    · cases hs
    · cases hs
      rfl
  subst hsame
  split at h
  · rename_i existing hfind
    split at h
    · rename_i hfingerprint
      cases h
      have hmem := List.mem_of_find?_eq_some hfind
      have hid : existing.sessionId = n.session.sessionId := by
        simpa using List.find?_some hfind
      refine ⟨?_, placeOf existing, List.mem_map_of_mem hmem, hid, hfingerprint⟩
      have hthere : n.place.sessionId ∈ (places st).map Place.sessionId :=
        mem_ids.mpr ⟨existing, hmem, hid⟩
      unfold putPlace
      rw [if_pos hthere]
    · cases h
  · rename_i hfind
    split at h
    · cases h
    · cases h
      have hnone : n.place.sessionId ∉ (places st).map Place.sessionId := by
        rw [mem_ids]
        rintro ⟨e, he, hid⟩
        have hne := List.find?_eq_none.mp hfind e he
        exact hne (decide_eq_true hid)
      rw [places_sealed]
      unfold putPlace
      rw [if_neg hnone]
      have hplaces : ∀ e : QueueEntry, places { st with
          entries := st.entries ++ [e], updatedAt := timeText now } = places st ++ [placeOf e] := by
        intro e
        unfold places
        rw [List.map_append]
        rfl
      rw [hplaces]
      exact ⟨rfl, n.place, List.mem_append_right _ List.mem_cons_self, rfl, rfl⟩

theorem enqueueAll_places {created : List NewSession}
    (h : enqueueAll F target workspace now created st = .ok st') :
    places st' = putPlaces (places st) created ∧
      ∀ n ∈ created, ∃ p ∈ places st', p.sessionId = n.session.sessionId ∧
        p.sessionFingerprint = n.session.sessionFingerprint := by
  induction created generalizing st with
  | nil =>
    cases h
    exact ⟨rfl, fun n hn => absurd hn List.not_mem_nil⟩
  | cons n created ih =>
    rw [enqueueAll] at h
    obtain ⟨next, hnext, h⟩ := bind_eq_ok.mp h
    obtain ⟨hplaces, p, hp, hid, hfingerprint⟩ := enqueueNew_places hnext
    obtain ⟨hrest, hall⟩ := ih h
    rw [hplaces] at hrest hp
    refine ⟨hrest, fun x hx => ?_⟩
    rcases List.mem_cons.mp hx with rfl | hx
    · refine ⟨p, ?_, hid, hfingerprint⟩
      rw [hrest]
      exact putPlaces_sublist.subset hp
    · exact hall x hx

end Digest

/-! ## The law -/

/-- The mission knows of the session, be it archived or not. -/
def Mission.Knows (m : Mission) (sid : String) : Prop :=
  ∃ id refs, m.sessionReferences.get? id = some refs ∧ sid ∈ refs.map SessionReference.sessionId

/-- Every goal that has a session is in the queue once, with the file of the session, and the
mission knows every session of the queue. -/
structure Dispatched (m : Mission) (q : List Place) (disk : Disk) : Prop where
  queued : ∀ id g sid, m.goals.get? id = some g → g.sessionId = some sid →
    sid ∈ q.map Place.sessionId
  once : (q.map Place.sessionId).Nodup
  stored : ∀ p ∈ q, ∃ s, disk.sessions.get? p.sessionPath = some s ∧ s.sessionId = p.sessionId
  known : ∀ p ∈ q, m.Knows p.sessionId

def attemptPath (directory id : String) (g : Goal) : String :=
  filePath directory (attemptName id (g.attemptCount + 1))

/-- Goals without a session, with the files of their next attempts. -/
def NextFile (m : Mission) (config : RuntimeConfig) (id path : String) : Prop :=
  ∃ directory g, sessionDir m.missionPath config = .ok directory ∧ m.goals.get? id = some g ∧
    g.sessionId = none ∧ path = attemptPath directory id g

/-- The files of the next attempts are those of no session in the queue and of no goal, and no two
are the same. -/
structure Unused (m : Mission) (q : List Place) (config : RuntimeConfig) : Prop where
  queue : ∀ id path, NextFile m config id path → ∀ p ∈ q, p.sessionPath ≠ path
  goals : ∀ id path, NextFile m config id path →
    ∀ id' g', m.goals.get? id' = some g' → g'.sessionPath ≠ some path
  apart : ∀ id id' path, NextFile m config id path → NextFile m config id' path → id = id'

theorem Dispatched.of_eq {m m' : Mission} {disk : Disk} (h : Dispatched m q disk)
    (hgoals : m'.goals = m.goals) (hrefs : m'.sessionReferences = m.sessionReferences) :
    Dispatched m' q disk where
  queued := by
    rw [hgoals]
    exact h.queued
  once := h.once
  stored := h.stored
  known := by
    unfold Mission.Knows
    rw [hrefs]
    exact h.known

/-! ## The files that an advance writes -/

theorem Disk.after_append (disk : Disk) (ws ws' : List Write) :
    disk.after (ws ++ ws') = (disk.after ws).after ws' := List.foldl_append

variable {created : List NewSession}

/-- The last of the files at a path stays. -/
theorem sessions_after_created (h : (created.map NewSession.path).Nodup) {n : NewSession}
    (hn : n ∈ created) (disk : Disk) :
    (disk.after (created.map NewSession.write)).sessions.get? n.path = some n.session := by
  induction created generalizing disk with
  | nil => cases hn
  | cons x created ih =>
    obtain ⟨hx, hrest⟩ := List.nodup_cons.mp h
    change ((disk.write x.write).after (created.map NewSession.write)).sessions.get? n.path = _
    rcases List.mem_cons.mp hn with rfl | hn
    · rw [sessions_after]
      · change (disk.sessions.set n.path n.session).get? n.path = _
        rw [Dict.get?_set, if_pos rfl]
      · intro s hs
        obtain ⟨y, hy, heq⟩ := List.mem_map.mp hs
        have hpath : y.path = n.path := by injection heq
        exact hx (hpath ▸ List.mem_map_of_mem hy)
    · exact ih hrest hn _

theorem not_mem_created {path : String} (h : ∀ n ∈ created, n.path ≠ path) (s : Session) :
    Write.session path s ∉ created.map NewSession.write := by
  intro hs
  obtain ⟨n, hn, heq⟩ := List.mem_map.mp hs
  cases heq
  exact h n hn rfl

section Digest

variable {F : OrchestratorDigest} {m : Mission} {config : RuntimeConfig} {now : Instant}
  {disk : Disk} {target workspace : Root} {goals : Goals} {created : List NewSession}
  {q : List Place}

theorem nextFile_of_made (horder : m.goalOrder.Nodup)
    (hgoals : refreshedGoals F m disk target workspace now = .ok goals) {n : NewSession}
    (hn : n.For F (m.withGoals goals) config target workspace now) :
    NextFile m config n.goalId n.path := by
  obtain ⟨directory, hdirectory, hpath⟩ := hn.path
  obtain ⟨g, status, failure, fingerprint, hg, hsame⟩ :=
    refreshedGoals_frame horder hgoals hn.goal
  have hnone := (needsSession_iff.mp hn.needs).2
  rw [hsame] at hnone hpath
  exact ⟨directory, g, hdirectory, hg, hnone, hpath⟩

/-- The sessions of an advance that are written, be it all of them or the first ones. -/
structure Written (m : Mission) (config : RuntimeConfig) (created : List NewSession) : Prop where
  nodup : (created.map NewSession.goalId).Nodup
  next : ∀ n ∈ created, NextFile m config n.goalId n.path

theorem Written.paths (h : Written m config created)
    (hunused : Unused m q config) : (created.map NewSession.path).Nodup := by
  have hids := h.nodup
  unfold List.Nodup at hids ⊢
  rw [List.pairwise_map] at hids ⊢
  refine hids.imp_of_mem fun {a b} ha hb hne heq => hne ?_
  exact hunused.apart _ _ a.path (h.next a ha) (heq ▸ h.next b hb)

/-- Sessions that are only written disturb nothing. -/
theorem Dispatched.written (hd : Dispatched m q disk)
    (h : ∀ n ∈ created, NextFile m config n.goalId n.path) (hunused : Unused m q config) :
    Dispatched m q (disk.after (created.map NewSession.write)) where
  queued := hd.queued
  once := hd.once
  stored := by
    intro p hp
    rw [sessions_after]
    · exact hd.stored p hp
    · exact not_mem_created fun n hn heq => hunused.queue n.goalId n.path (h n hn) p hp heq.symm
  known := hd.known

/-! ## The mission with its new sessions -/

theorem knows_withSession {id path sid : String} {g : Goal} {s : Session} :
    (withSession m id g path s).Knows sid ↔ m.Knows sid ∨ sid = s.sessionId := by
  unfold Mission.Knows
  have hrefs : ∀ i, (withSession m id g path s).sessionReferences.get? i =
      if i = id then some ((m.sessionReferences.get? id).getD [] ++
        [{ sessionId := s.sessionId, sessionPath := path
           sessionFingerprint := s.sessionFingerprint, goalId := id
           attempt := g.attemptCount + 1, archived := false }])
      else m.sessionReferences.get? i := fun i => Dict.get?_set _ _ _ _
  constructor
  · rintro ⟨i, refs, hget, hsid⟩
    rw [hrefs] at hget
    split at hget
    · cases hget
      rw [List.map_append, List.mem_append] at hsid
      rcases hsid with hsid | hsid
      · cases hold : m.sessionReferences.get? id with
        | none =>
          rw [hold] at hsid
          cases hsid
        | some refs =>
          rw [hold] at hsid
          exact .inl ⟨id, refs, hold, hsid⟩
      · exact .inr (List.mem_singleton.mp hsid)
    · exact .inl ⟨i, refs, hget, hsid⟩
  · rintro (⟨i, refs, hget, hsid⟩ | rfl)
    · by_cases hi : i = id
      · refine ⟨id, _, (hrefs id).trans (if_pos rfl), ?_⟩
        rw [← hi, hget, List.map_append]
        exact List.mem_append_left _ hsid
      · exact ⟨i, refs, ((hrefs i).trans (if_neg hi)).trans hget, hsid⟩
    · refine ⟨id, _, (hrefs id).trans (if_pos rfl), ?_⟩
      rw [List.map_append]
      exact List.mem_append_right _ List.mem_cons_self

theorem knows_withSessions {sid : String} : (withSessions m created).Knows sid ↔
    m.Knows sid ∨ ∃ n ∈ created, sid = n.session.sessionId := by
  induction created generalizing m with
  | nil => simp [withSessions]
  | cons n created ih =>
    rw [withSessions_cons, ih, knows_withSession, or_assoc]
    simp

theorem dispatched_advanced (hd : Dispatched m q disk) (horder : m.goalOrder.Nodup)
    (hgoals : refreshedGoals F m disk target workspace now = .ok goals)
    (h : Written m config created) (hunused : Unused m q config) :
    Dispatched (withSessions (m.withGoals goals) created) (putPlaces q created)
      (disk.after (created.map NewSession.write)) where
  queued := by
    intro id g' sid hg' hsid
    rcases get?_withCreated h.nodup hg' with ⟨hg', -⟩ | ⟨n, hn, -, rfl⟩
    · obtain ⟨g, status, failure, fingerprint, hg, rfl⟩ :=
        refreshedGoals_frame horder hgoals hg'
      exact (putPlaces_sublist.map Place.sessionId).subset (hd.queued id g sid hg hsid)
    · change some n.session.sessionId = some sid at hsid
      cases hsid
      exact id_mem_putPlaces hn
  once := nodup_putPlaces hd.once
  stored := by
    intro p hp
    rcases mem_putPlaces hp with hp | ⟨n, hn, rfl⟩
    · exact (hd.written h.next hunused).stored p hp
    · exact ⟨n.session, sessions_after_created (h.paths hunused) hn disk, rfl⟩
  known := by
    intro p hp
    rw [knows_withSessions]
    rcases mem_putPlaces hp with hp | ⟨n, hn, rfl⟩
    · exact .inl (hd.known p hp)
    · exact .inr ⟨n, hn, rfl⟩

/-! ## What is left to know of an advance -/

variable {source : SchedulerSource}

/-- An advance that raises has written sessions at most. -/
theorem advance_of_error {scheduler : SchedulerState} {e : Err}
    (hentered : Entered F m source config now disk target workspace scheduler)
    (horder : m.goalOrder.Nodup) (h : (advanceMission F m source config now disk).result = .error e)
    :
    ∃ created : List NewSession,
      (advanceMission F m source config now disk).writes = created.map NewSession.write ∧
        ∀ n ∈ created, NextFile m config n.goalId n.path := by
  have hcall := advanceMission_of_entered hentered
  rw [hcall] at h ⊢
  unfold advanceGoals at h ⊢
  cases hgoals : refreshedGoals F m disk target workspace now with
  | error e => exact ⟨[], rfl, fun n hn => absurd hn List.not_mem_nil⟩
  | ok goals =>
    rw [hgoals, Logged.ofExcept_bind_ok] at h
    rw [Logged.ofExcept_bind_ok]
    obtain ⟨created, hmakes⟩ : ∃ created, Makes F (m.withGoals goals) config target workspace now
        scheduler m.goalOrder created (createSessions F target workspace config now m.goalOrder
          (m.withGoals goals) scheduler) := createSessions_makes horder
    refine ⟨created, ?_, fun n hn => nextFile_of_made horder hgoals (hmakes.made n hn).2⟩
    cases hr : (createSessions F target workspace config now m.goalOrder (m.withGoals goals)
      scheduler).result with
    | error e => rw [Logged.bind_of_error hr, hmakes.writes]
    | ok r =>
      obtain ⟨-, hmission, -⟩ := hmakes.ok r hr
      have hkeys := keys_of_made hgoals fun (n : NewSession) hn => (hmakes.made n hn).2
      rw [Logged.bind_of_ok hr] at h ⊢
      obtain ⟨mission, scheduler'⟩ := r
      change mission = _ at hmission
      subst hmission
      dsimp only at h ⊢
      cases hsettle : settleStatus F (relisted (withSessions (m.withGoals goals) created)) now with
      | error e =>
        rw [finishAdvance_error hkeys hsettle, hmakes.writes]
        exact List.append_nil _
      | ok settled =>
        rw [finishAdvance_ok hkeys hsettle] at h
        cases h

/-- The new sessions of an advance that answers. -/
theorem Advances.written {scheduler scheduler' : SchedulerState} {settled : Mission}
    (horder : m.goalOrder.Nodup)
    (h : Advances F m source config now disk target workspace scheduler goals created scheduler'
      settled) : Written m config created where
  nodup := h.nodup horder
  next := fun n hn => nextFile_of_made horder h.refreshed (h.made n hn)

end Digest

/-! ## An input keeps the law -/

section Submit

variable {F : OrchestratorDigest} {m m' : Mission} {input : MissionInput} {now : Option Instant}
  {clock : Instant}

/-- What an input leaves: the two paths, and every session that is known. -/
structure KeepsKnown (m m' : Mission) : Prop where
  missionPath : m'.missionPath = m.missionPath
  schedulerStatePath : m'.schedulerStatePath = m.schedulerStatePath
  knows : ∀ sid, m.Knows sid → m'.Knows sid

theorem KeepsKnown.of_eq (hmission : m'.missionPath = m.missionPath)
    (hscheduler : m'.schedulerStatePath = m.schedulerStatePath)
    (hrefs : m'.sessionReferences = m.sessionReferences) : KeepsKnown m m' where
  missionPath := hmission
  schedulerStatePath := hscheduler
  knows := by
    unfold Mission.Knows
    rw [hrefs]
    exact fun _ h => h

theorem KeepsKnown.of_statusOnly (h : StatusOnly m m') : KeepsKnown m m' :=
  .of_eq h.missionPath h.schedulerStatePath h.sessionReferences

theorem KeepsKnown.trans {a b c : Mission} (h : KeepsKnown a b) (h' : KeepsKnown b c) :
    KeepsKnown a c where
  missionPath := h'.missionPath.trans h.missionPath
  schedulerStatePath := h'.schedulerStatePath.trans h.schedulerStatePath
  knows := fun sid hsid => h'.knows sid (h.knows sid hsid)

theorem keepsKnown_retry (m : Mission) (id : String) (g : Goal) :
    KeepsKnown m (withRetry m id g) where
  missionPath := rfl
  schedulerStatePath := rfl
  knows := by
    rintro sid ⟨i, refs, hrefs, hsid⟩
    have hget : (withRetry m id g).sessionReferences.get? i =
        if i = id then (m.sessionReferences.get? id).map archiveLast
        else m.sessionReferences.get? i := Dict.get?_modify _ _ _ _
    by_cases hi : i = id
    · refine ⟨i, archiveLast refs, ?_, ?_⟩
      · rw [hget, if_pos hi, ← hi, hrefs]
        rfl
      · rwa [sessionIds_archiveLast]
    · exact ⟨i, refs, by rw [hget, if_neg hi, hrefs], hsid⟩

theorem keepsKnown_handled {x : Mission} (h : Handled F m input now clock x) : KeepsKnown m x := by
  cases h with
  | staged r o s type request output staged =>
    obtain ⟨-, -, hs⟩ := stageReplan_ok staged
    obtain ⟨hmission, hscheduler⟩ : x.missionPath = m.missionPath ∧
        x.schedulerStatePath = m.schedulerStatePath := by
      unfold stageReplan at staged
      dsimp only at staged
      split at staged
      · cases staged
      split at staged
      · cases staged
        exact ⟨rfl, rfl⟩
      · obtain ⟨moved, hmoved, staged⟩ := bind_eq_ok.mp staged
        obtain ⟨-, rfl⟩ := transitionMission_ok hmoved
        cases staged
        exact ⟨rfl, rfl⟩
    exact .of_eq hmission hscheduler hs.sessionReferences
  | confirmed record completed b c type replans =>
    rw [replans.result]
    have hmoved := (((StatusOnly.refl (revised m completed b)).sealed
      (D := F.toMissionDigest)).moved .running (now.getD clock)).sealed (D := F.toMissionDigest)
    exact .of_eq hmoved.missionPath hmoved.schedulerStatePath hmoved.sessionReferences
  | rejected type status =>
    have hsame := (rejectedReplan_statusOnly (F := F) m (now.getD clock)).1
    exact .of_eq hsame.missionPath hsame.schedulerStatePath hsame.sessionReferences
  | clarified type => exact .of_eq rfl rfl rfl
  | prioritized id g priority type named priority_eq range inactive => exact .of_eq rfl rfl rfl
  | retried id g type named retryable =>
    exact (keepsKnown_retry m id g).trans
      (.of_statusOnly (retried_statusOnly (F := F) m id g (now.getD clock)).1)

theorem keepsKnown_submitted (h : Submitted F m input now clock m') : KeepsKnown m m' := by
  cases h with
  | same => exact .of_eq rfl rfl rfl
  | rejected status type =>
    have hmoved := (StatusOnly.refl m).moved .blocked (now.getD clock)
    exact .of_eq hmoved.missionPath hmoved.schedulerStatePath hmoved.sessionReferences
  | confirmed status type =>
    have hmoved := (StatusOnly.refl { m with goalGraph := confirmedGraph F m.goalGraph }).moved
      .ready (now.getD clock)
    exact .of_eq hmoved.missionPath hmoved.schedulerStatePath hmoved.sessionReferences
  | cancelled active type =>
    have hmoved := (StatusOnly.refl (m.withGoals (mapGoals cancelGoal m.goals))).moved .cancelled
      (now.getD clock)
    exact .of_eq hmoved.missionPath hmoved.schedulerStatePath hmoved.sessionReferences
  | handled x new ok type => exact (keepsKnown_handled (handleInput_ok ok)).trans (.of_eq rfl rfl rfl)

theorem Dispatched.submitted {q : List Place} {disk : Disk} (hd : Dispatched m q disk)
    (h : Submitted F m input now clock m') : Dispatched m' q disk where
  queued := by
    intro id g' sid hg' hsid
    rcases (sameSessions_submitted h).goals id g' hg' with hnone | ⟨g, hg, hsame⟩
    · rw [hnone] at hsid
      cases hsid
    · exact hd.queued id g sid hg (hsame.trans hsid)
  once := hd.once
  stored := hd.stored
  known := fun p hp => (keepsKnown_submitted h).knows _ (hd.known p hp)

/-! ## What is saved of the mission -/

/-- A call that writes nothing and changes nothing, or saves the mission it answers. -/
def SavesOrKeeps (F : OrchestratorDigest) (m : Mission) (answer : Logged Write Mission) : Prop :=
  (answer.writes = [] ∧ ∀ m', answer.result = .ok m' → m' = m) ∨
    ∃ x, answer = ⟨missionWrites F x, .ok (sealMission F.toMissionDigest x)⟩

theorem SavesOrKeeps.raise (e : Err) : SavesOrKeeps F m (.raise e) :=
  .inl ⟨rfl, fun m' h => by cases h⟩

theorem SavesOrKeeps.pure : SavesOrKeeps F m (Pure.pure m) :=
  .inl ⟨rfl, fun m' h => by cases h; rfl⟩

theorem SavesOrKeeps.bind {α : Type} (x : Except Err α) {f : α → Logged Write Mission}
    (h : ∀ a, x = .ok a → SavesOrKeeps F m (f a)) : SavesOrKeeps F m (.ofExcept x >>= f) := by
  cases x with
  | error e => exact .raise e
  | ok a => exact h a rfl

theorem SavesOrKeeps.saveIf (x : Mission) : SavesOrKeeps F m (saveIf F x) :=
  .inr ⟨x, saveIf_eq x⟩

theorem submit_saves : SavesOrKeeps F m (submitMissionInput F m input now clock) := by
  have hplan : SavesOrKeeps F m (confirmMissionPlan F m input (now.getD clock)) := by
    unfold confirmMissionPlan
    dsimp only
    split
    · exact .raise _
    refine .bind _ fun duplicate _ => ?_
    split
    · exact .pure
    split
    · exact .raise _
    split
    · exact .bind _ fun x _ => .saveIf _
    · split
      · exact .raise _
      split
      · exact .raise _
      · exact .bind _ fun x _ => .saveIf _
    · exact .raise _
  unfold submitMissionInput
  split
  · exact hplan
  · exact hplan
  refine .bind _ fun duplicate _ => ?_
  split
  · exact .pure
  split
  · unfold cancelMission
    split
    · exact .raise _
    split
    · exact .pure
    · exact .bind _ fun x _ => .bind _ fun y _ => .saveIf _
  · exact .bind _ fun x _ => .saveIf _

end Submit

/-! ## A session keeps its id -/

section SessionIds

variable {D : SessionDigest} {s s' : Session} {now : Instant}

variable {status : SessionStatus}

theorem sessionId_transition (h : transition D s status now = .ok s') :
    s'.sessionId = s.sessionId := by
  unfold transition at h
  split at h
  · cases h
    rfl
  · cases h

theorem sessionId_setArtifacts (artifacts : Entries) :
    (setArtifacts D s artifacts).sessionId = s.sessionId := by
  unfold setArtifacts
  induction artifacts generalizing s with
  | nil => rfl
  | cons e artifacts ih =>
    rw [List.foldl_cons, ih]
    rfl

theorem sessionId_block {reasons : List String} {critical : Bool}
    (h : block D s reasons critical now = .ok s') : s'.sessionId = s.sessionId := by
  obtain ⟨x, hx, h⟩ := bind_eq_ok.mp h
  have hid := sessionId_transition hx
  cases h
  exact hid

variable {action : RequiredAction}

theorem sessionId_pause (h : pause D s status action now = .ok s') :
    s'.sessionId = s.sessionId := by
  obtain ⟨x, hx, h⟩ := bind_eq_ok.mp h
  have hid := sessionId_transition hx
  cases h
  exact hid

theorem sessionId_settleTransaction {result : Val}
    (h : settleTransaction D s result now = .ok s') : s'.sessionId = s.sessionId := by
  unfold settleTransaction at h
  dsimp only at h
  split at h
  · have hid := sessionId_block h
    exact hid
  split at h
  · have hid := sessionId_block h
    exact hid
  · obtain ⟨x, hx, h⟩ := bind_eq_ok.mp h
    have hid := sessionId_transition hx
    cases h
    exact hid

theorem sessionId_settleAction {d : Decision} (h : settleAction D s action d now = .ok s') :
    s'.sessionId = s.sessionId := by
  unfold settleAction at h
  dsimp only at h
  rw [← sessionId_setArtifacts (D := D) (s := s) d.artifacts]
  split at h
  · cases h
  · exact sessionId_block h
  · exact sessionId_pause h
  · split at h
    · exact sessionId_settleTransaction h
    · cases h

theorem sessionId_resume {input : SessionInput} {d : Decision} {target workspace : Root}
    (h : resumeRuntimeSession D s input d target workspace now = .ok s') :
    s'.sessionId = s.sessionId := by
  unfold resumeRuntimeSession at h
  dsimp only at h
  split at h
  · cases h
  split at h
  · cases h
    rfl
  obtain ⟨duplicate, -, h⟩ := bind_eq_ok.mp h
  split at h
  · cases h
    rfl
  · obtain ⟨started, hstarted, h⟩ := bind_eq_ok.mp h
    obtain ⟨settled, hsettled, h⟩ := bind_eq_ok.mp h
    cases h
    exact (sessionId_settleAction hsettled).trans (sessionId_transition hstarted)

theorem sessionId_cancel {operatorId : String}
    (h : cancelRuntimeSession D s operatorId now = .ok s') : s'.sessionId = s.sessionId := by
  unfold cancelRuntimeSession at h
  split at h
  · cases h
  split at h
  · cases h
    rfl
  · cases h
    rfl
  · cases h
    rfl
  · obtain ⟨x, hx, h⟩ := bind_eq_ok.mp h
    have hid := sessionId_transition hx
    cases h
    exact hid

end SessionIds

/-! ## The mission and its files -/

/-- The places of a queue file; there are none where there is no file. -/
def Disk.queued (d : Disk) (path : String) : List Place :=
  ((d.schedulers.get? path).map places).getD []

theorem Disk.queued_of_get? {d : Disk} {path : String} {st : SchedulerState}
    (h : d.schedulers.get? path = some st) : d.queued path = places st := by
  unfold Disk.queued
  rw [h]
  rfl

/-- The mission is saved as it is, and its queue is in order. -/
structure Orderly (mp sp : String) (w : World) : Prop where
  missionPath : w.mission.missionPath = some mp
  schedulerStatePath : w.mission.schedulerStatePath = some sp
  saved : w.disk.missions.get? mp = some w.mission
  reached : Reached w.mission
  queue : Dispatched w.mission (w.disk.queued sp) w.disk

section Files

variable {F : OrchestratorDigest} {mp sp : String} {w : World}

theorem schedulers_after_created (created : List NewSession) (disk : Disk) :
    (disk.after (created.map NewSession.write)).schedulers = disk.schedulers ∧
      (disk.after (created.map NewSession.write)).missions = disk.missions := by
  induction created generalizing disk with
  | nil => exact ⟨rfl, rfl⟩
  | cons n created ih =>
    change ((disk.write n.write).after (created.map NewSession.write)).schedulers = _ ∧
      ((disk.write n.write).after (created.map NewSession.write)).missions = _
    exact ih _

theorem orderly_submit (hw : Orderly mp sp w) (input : MissionInput) (now : Option Instant)
    (clock : Instant) : Orderly mp sp (w.after ((Event.submit input now clock).call F w)) := by
  change Orderly mp sp (w.after (submitMissionInput F w.mission input now clock))
  have hsaves := @submit_saves F w.mission input now clock
  generalize hanswer : submitMissionInput F w.mission input now clock = answer at hsaves
  rcases hsaves with ⟨hwrites, hsame⟩ | ⟨x, rfl⟩
  · have hworld : w.after answer = w := by
      have hmission := mission_after_of_same hsame
      unfold World.after at hmission ⊢
      rw [hwrites]
      exact congrArg (fun m => (⟨m, w.disk⟩ : World)) hmission
    rw [hworld]
    exact hw
  · have hsubmitted : Submitted F w.mission input now clock (sealMission F.toMissionDigest x) :=
      submitMissionInput_ok (by rw [hanswer])
    have hknown := keepsKnown_submitted hsubmitted
    have hpath : x.missionPath = some mp := hknown.missionPath.trans hw.missionPath
    have hworld : w.after ⟨missionWrites F x, .ok (sealMission F.toMissionDigest x)⟩ =
        ⟨sealMission F.toMissionDigest x,
          w.disk.write (.mission mp (sealMission F.toMissionDigest x))⟩ := by
      unfold World.after missionWrites
      rw [hpath]
      rfl
    rw [hworld]
    refine ⟨hpath, hknown.schedulerStatePath.trans hw.schedulerStatePath, ?_,
      reached_submitted hw.reached hsubmitted, ?_⟩
    · change (w.disk.missions.set mp _).get? mp = _
      rw [Dict.get?_set, if_pos rfl]
    · have hkept := hw.queue.submitted hsubmitted
      exact ⟨hkept.queued, hkept.once, hkept.stored, hkept.known⟩

theorem orderly_onSession (hw : Orderly mp sp w) {path : String}
    {f : Session → Except Err Session} (hf : ∀ s s', f s = .ok s' → s'.sessionId = s.sessionId) :
    Orderly mp sp (w.after (onSession F w path f)) := by
  unfold onSession
  cases hs : w.disk.sessions.get? path with
  | none => exact hw
  | some s =>
    dsimp only
    cases hresult : f s with
    | error e => exact hw
    | ok s' =>
      have hd := hw.queue
      refine ⟨hw.missionPath, hw.schedulerStatePath, hw.saved, hw.reached, hd.queued, hd.once,
        fun p hp => ?_, hd.known⟩
      obtain ⟨x, hx, hid⟩ := hd.stored p hp
      change ∃ y, (w.disk.sessions.set path (sealSession F.toSessionDigest s')).get? p.sessionPath =
        some y ∧ _
      rw [Dict.get?_set]
      by_cases hp : p.sessionPath = path
      · rw [if_pos hp]
        rw [hp, hs, Option.some.injEq] at hx
        exact ⟨_, rfl, (hf s s' hresult).trans (hx ▸ hid)⟩
      · rw [if_neg hp]
        exact ⟨x, hx, hid⟩

/-! ## An advance -/

def World.queue (w : World) : Option SchedulerState :=
  w.mission.schedulerStatePath.bind w.disk.schedulers.get?

/-- The call works on the queue of the mission, as its file has it. -/
def SchedulerSource.OfMission (w : World) : SchedulerSource → Prop
  | .fromMission => True
  | .path p => p ≠ "" ∧ w.mission.schedulerStatePath = some p
  | .given st => w.queue = some st ∨ (w.queue = none ∧ st.entries = [])

variable {source : SchedulerSource}

theorem savePath_ofMission (h : source.OfMission w) {m : Mission}
    (hpath : m.schedulerStatePath = w.mission.schedulerStatePath) :
    source.savePath m = w.mission.schedulerStatePath := by
  cases source with
  | fromMission => exact hpath
  | given st => exact hpath
  | path p =>
    rw [h.2]
    exact if_neg h.1

theorem opened_ofMission {scheduler : SchedulerState}
    (hpath : w.mission.schedulerStatePath = some sp) (hsource : source.OfMission w)
    (h : openScheduler F w.mission source w.disk = .ok scheduler) :
    w.disk.queued sp = places scheduler := by
  have hqueue : w.queue = w.disk.schedulers.get? sp := by
    unfold World.queue
    rw [hpath, Option.bind_some]
  have hsave := savePath_ofMission hsource (m := w.mission) rfl
  unfold openScheduler at h
  split at h
  · cases h
    rcases hsource with hst | ⟨hnone, hentries⟩
    · exact Disk.queued_of_get? (hqueue.symm.trans hst)
    · unfold Disk.queued places
      rw [← hqueue, hnone, hentries]
      rfl
  · rw [hsave, hpath, Option.bind_some] at h
    split at h
    · cases h
    · rename_i st hst
      dsimp only at h
      split at h
      · cases h
      · cases h
        exact Disk.queued_of_get? hst

/-- What an advance needs: it opens the scheduler of the mission, and if it gets to the goals no
file of a next attempt is in use. -/
structure Tidy (F : OrchestratorDigest) (w : World) (source : SchedulerSource)
    (config : RuntimeConfig) (now : Instant) : Prop where
  ofMission : source.OfMission w
  unused : ∀ target workspace scheduler,
    Entered F w.mission source config now w.disk target workspace scheduler →
      Unused w.mission (places scheduler) config

section Advance

variable {source : SchedulerSource} {config : RuntimeConfig} {now : Instant}
  {target workspace : Root} {scheduler : SchedulerState}

theorem Orderly.opened (hw : Orderly mp sp w)
    (hsource : source.OfMission w)
    (hentered : Entered F w.mission source config now w.disk target workspace scheduler) :
    w.disk.queued sp = places scheduler :=
  opened_ofMission hw.schedulerStatePath hsource hentered.opened

variable {created : List NewSession}

/-- Sessions alone do not disturb the order. -/
theorem Orderly.written (hw : Orderly mp sp w)
    (h : ∀ n ∈ created, NextFile w.mission config n.goalId n.path)
    (hunused : Unused w.mission (w.disk.queued sp) config) :
    Orderly mp sp ⟨w.mission, w.disk.after (created.map NewSession.write)⟩ := by
  obtain ⟨hschedulers, hmissions⟩ := schedulers_after_created created w.disk
  have hqueued : (w.disk.after (created.map NewSession.write)).queued sp = w.disk.queued sp := by
    unfold Disk.queued
    rw [hschedulers]
  refine ⟨hw.missionPath, hw.schedulerStatePath, ?_, hw.reached, ?_⟩
  · change (w.disk.after (created.map NewSession.write)).missions.get? mp = _
    rw [hmissions]
    exact hw.saved
  · change Dispatched w.mission ((w.disk.after (created.map NewSession.write)).queued sp) _
    rw [hqueued]
    exact hw.queue.written h hunused

variable {scheduler' : SchedulerState}

theorem Advances.writes_eq {goals : Goals} {settled : Mission} (hw : Orderly mp sp w)
    (hsource : source.OfMission w)
    (h : Advances F w.mission source config now w.disk target workspace scheduler goals created
      scheduler' settled) :
    StatusOnly (relisted (withSessions (w.mission.withGoals goals) created)) settled ∧
      advanceMission F w.mission source config now w.disk =
        ⟨created.map NewSession.write ++
            [.scheduler sp (sealSchedulerState F.toQueueDigest scheduler'),
              .mission mp (sealMission F.toMissionDigest settled)],
          .ok (sealMission F.toMissionDigest settled)⟩ := by
  obtain ⟨hsame, -⟩ := settleStatus_ok h.settles
  have hmission : settled.missionPath = some mp := by
    rw [hsame.missionPath]
    change (withSessions (w.mission.withGoals goals) created).missionPath = _
    rw [missionPath_withSessions]
    exact hw.missionPath
  have hscheduler : settled.schedulerStatePath = some sp := by
    rw [hsame.schedulerStatePath]
    change (withSessions (w.mission.withGoals goals) created).schedulerStatePath = _
    rw [schedulerStatePath_withSessions]
    exact hw.schedulerStatePath
  have hsave : source.savePath settled = some sp :=
    (savePath_ofMission hsource (hscheduler.trans hw.schedulerStatePath.symm)).trans
      hw.schedulerStatePath
  refine ⟨hsame, ?_⟩
  rw [h.answer]
  unfold schedulerWrites missionWrites
  rw [hsave, hmission]
  rfl

/-- The world after an advance that answers is in order. -/
theorem Advances.orderly {goals : Goals} {settled : Mission} (hw : Orderly mp sp w)
    (hopened : w.disk.queued sp = places scheduler) (hsource : source.OfMission w)
    (h : Advances F w.mission source config now w.disk target workspace scheduler goals created
      scheduler' settled) (hunused : Unused w.mission (w.disk.queued sp) config) :
    Orderly mp sp (w.after (advanceMission F w.mission source config now w.disk)) := by
  have horder : w.mission.goalOrder.Nodup := (hw.reached.sound.order.nodup_iff).mpr (nodup_keys _)
  obtain ⟨hsame, hanswer⟩ := h.writes_eq hw hsource
  have hreached : Reached (sealMission F.toMissionDigest settled) :=
    reached_advanced hw.reached (by rw [hanswer])
  have hdispatched := dispatched_advanced hw.queue horder h.refreshed (h.written horder) hunused
  obtain ⟨hplaces, -⟩ := enqueueAll_places h.queued
  rw [hanswer]
  unfold World.after
  rw [Disk.after_append]
  refine ⟨?_, ?_, ?_, hreached, ?_⟩
  · change settled.missionPath = _
    rw [hsame.missionPath]
    change (withSessions (w.mission.withGoals goals) created).missionPath = _
    rw [missionPath_withSessions]
    exact hw.missionPath
  · change settled.schedulerStatePath = _
    rw [hsame.schedulerStatePath]
    change (withSessions (w.mission.withGoals goals) created).schedulerStatePath = _
    rw [schedulerStatePath_withSessions]
    exact hw.schedulerStatePath
  · change (Dict.set _ mp (sealMission F.toMissionDigest settled)).get? mp = _
    rw [Dict.get?_set, if_pos rfl]
    rfl
  · have hqueued : Disk.queued { w.disk.after (created.map NewSession.write) with
        schedulers := (w.disk.after (created.map NewSession.write)).schedulers.set sp
          (sealSchedulerState F.toQueueDigest scheduler') } sp =
            putPlaces (w.disk.queued sp) created := by
      have hfile : ((w.disk.after (created.map NewSession.write)).schedulers.set sp
          (sealSchedulerState F.toQueueDigest scheduler')).get? sp =
            some (sealSchedulerState F.toQueueDigest scheduler') :=
        (Dict.get?_set _ _ _ _).trans (if_pos rfl)
      rw [Disk.queued_of_get? hfile, places_sealed, hplaces, hopened]
    have hfinal : Dispatched (sealMission F.toMissionDigest settled)
        (putPlaces (w.disk.queued sp) created) (w.disk.after (created.map NewSession.write)) :=
      hdispatched.of_eq hsame.goals hsame.sessionReferences
    rw [← hqueued] at hfinal
    exact ⟨hfinal.queued, hfinal.once, hfinal.stored, hfinal.known⟩

theorem orderly_advance (hw : Orderly mp sp w) (htidy : Tidy F w source config now) :
    Orderly mp sp (w.after (advanceMission F w.mission source config now w.disk)) := by
  have horder : w.mission.goalOrder.Nodup := (hw.reached.sound.order.nodup_iff).mpr (nodup_keys _)
  by_cases hentered : ∃ target workspace scheduler,
      Entered F w.mission source config now w.disk target workspace scheduler
  · obtain ⟨target, workspace, scheduler, hentered⟩ := hentered
    have hopened := hw.opened htidy.ofMission hentered
    have hunused := htidy.unused target workspace scheduler hentered
    rw [← hopened] at hunused
    cases hresult : (advanceMission F w.mission source config now w.disk).result with
    | error e =>
      obtain ⟨created, hwrites, hnext⟩ := advance_of_error hentered horder hresult
      have hworld : w.after (advanceMission F w.mission source config now w.disk) =
          ⟨w.mission, w.disk.after (created.map NewSession.write)⟩ := by
        unfold World.after
        rw [hresult, hwrites]
        rfl
      rw [hworld]
      exact hw.written hnext hunused
    | ok m' =>
      obtain ⟨goals, created, scheduler', settled, hadv⟩ :=
        advances_of_ok hentered horder hresult
      exact hadv.orderly hw hopened htidy.ofMission hunused
  · obtain ⟨hwrites, hsame⟩ := advanceMission_of_not_entered hentered
    have hworld : w.after (advanceMission F w.mission source config now w.disk) = w := by
      have hmission := mission_after_of_same hsame
      unfold World.after at hmission ⊢
      rw [hwrites]
      exact congrArg (fun m => (⟨m, w.disk⟩ : World)) hmission
    rw [hworld]
    exact hw

end Advance

end Files

end Missions
end ZeroRuntime
