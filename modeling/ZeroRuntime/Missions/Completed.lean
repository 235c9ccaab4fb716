import ZeroRuntime.Missions.Reached

/-!
# ZeroRuntime.Missions.Completed

A goal that is completed stays so, and a mission whose goals are all completed is completed.

* `Kept`: a call keeps what is completed.
* `Safe`: what an advance needs for that. Every session is validated again at every advance, also
  that of a goal that is completed: its expiry and its roots count again.
* `Finished`: the session of a completed goal. No call on a session changes it.
* `Assured`: the invariant. `run_kept`: a whole run.
-/

namespace ZeroRuntime
namespace Missions

open Lib Sessions

/-! ## What is kept, and when -/

def AllCompleted (m : Mission) : Prop := ∀ id ∈ m.goals.keys, CompletedIn m id

/-- What is completed before a call is completed after it, and the mission is when all goals are. -/
structure Kept (F : OrchestratorDigest) (w : World) (e : Event) : Prop where
  goals : ∀ id, CompletedIn w.mission id → CompletedIn (w.after (e.call F w)).mission id
  becomes : AllCompleted (w.after (e.call F w)).mission →
    (w.after (e.call F w)).mission.missionStatus = .completed
  stays : AllCompleted w.mission → (w.after (e.call F w)).mission.missionStatus = .completed

/-- A session that a call with these roots may read at this time. -/
structure Readable (s : Session) (target workspace : Root) (now : Instant) : Prop where
  unexpired : reached now s.expiresAt = false
  target : target = some s.targetRootIdentity
  workspace : workspace = some s.workspaceRootIdentity

/-- An advance that gets to the goals may read the sessions of those that are completed, and has no
completed session in the place of one that it may make. -/
structure SafeAdvance (w : World) (config : RuntimeConfig) (now : Instant)
    (target workspace : Root) : Prop where
  readable : ∀ id g path s, w.mission.goals.get? id = some g → g.goalStatus = .completed →
    g.sessionPath = some path → w.disk.sessions.get? path = some s →
      Readable s target workspace now
  fresh : ∀ id g directory s, w.mission.goals.get? id = some g → g.sessionId = none →
    sessionDir w.mission.missionPath config = .ok directory →
    w.disk.sessions.get? (filePath directory (attemptName id (g.attemptCount + 1))) = some s →
    (∃ id' g', w.mission.goals.get? id' = some g' ∧
      g'.sessionPath = some (filePath directory (attemptName id (g.attemptCount + 1)))) →
    s.sessionStatus ≠ .completed

def Safe (F : OrchestratorDigest) (w : World) : Event → Prop
  | .advance source config now => ∀ target workspace scheduler,
    Entered F w.mission source config now w.disk target workspace scheduler →
      SafeAdvance w config now target workspace
  | .submit .. | .resume .. | .cancel .. => True

/-! ## The session of a completed goal -/

/-- A completed session that nothing speaks against. -/
structure Finished (F : OrchestratorDigest) (s : Session) : Prop where
  contract : s.contract = sessionContract
  fingerprint : s.sessionFingerprint = F.session (Sessions.unsigned s)
  artifacts : artifactReasons F.toSessionDigest s = []
  status : s.sessionStatus = .completed
  reasons : completionReasons F s = .ok []

/-- The session of the goal, if it has one, is finished. -/
def Proven (F : OrchestratorDigest) (disk : Disk) (g : Goal) : Prop :=
  ∀ path, g.sessionPath = some path → ∃ s, disk.sessions.get? path = some s ∧
    g.sessionId = some s.sessionId ∧ Finished F s

section Digest

variable {F : OrchestratorDigest} {s : Session} {target workspace : Root} {now : Instant}
  {disk : Disk} {g g' : Goal}

theorem rootReasons_eq_nil : rootReasons s target workspace = [] ↔
    target = some s.targetRootIdentity ∧ workspace = some s.workspaceRootIdentity := by
  unfold rootReasons
  cases target with
  | none => simp
  | some t =>
    cases workspace with
    | none => simp
    | some u => simp

theorem validateSession_eq_nil : validateSession F.toSessionDigest s target workspace now = [] ↔
    s.contract = sessionContract ∧ s.sessionFingerprint = F.session (Sessions.unsigned s) ∧
      artifactReasons F.toSessionDigest s = [] ∧ Readable s target workspace now := by
  unfold validateSession
  simp only [List.append_eq_nil_iff, rootReasons_eq_nil]
  constructor
  · rintro ⟨⟨⟨⟨hcontract, hfingerprint⟩, hartifacts⟩, htarget, hworkspace⟩, hexpires⟩
    refine ⟨?_, ?_, hartifacts, ?_, htarget, hworkspace⟩
    · by_contra hne
      rw [if_neg hne] at hcontract
      cases hcontract
    · by_contra hne
      rw [if_neg hne] at hfingerprint
      cases hfingerprint
    · by_contra hreached
      rw [if_pos (by simpa using hreached)] at hexpires
      cases hexpires
  · rintro ⟨hcontract, hfingerprint, hartifacts, hexpires, htarget, hworkspace⟩
    rw [if_pos hcontract, if_pos hfingerprint, hexpires]
    exact ⟨⟨⟨⟨rfl, rfl⟩, hartifacts⟩, htarget, hworkspace⟩, rfl⟩

variable {path : String}

theorem loadSession_ok :
    loadSession F disk path target workspace now = .ok s ↔ disk.sessions.get? path = some s ∧
      validateSession F.toSessionDigest s target workspace now = [] := by
  unfold loadSession checkedSession
  cases disk.sessions.get? path with
  | none => simp
  | some x =>
    dsimp only
    by_cases hx : validateSession F.toSessionDigest x target workspace now = []
    · rw [if_neg (not_not.mpr hx)]
      constructor
      · intro h
        cases h
        exact ⟨rfl, hx⟩
      · rintro ⟨h, -⟩
        cases h
        rfl
    · rw [if_pos hx]
      refine iff_of_false (by simp) ?_
      rintro ⟨h, hs⟩
      cases h
      exact hx hs

/-- A goal whose finished session may be read is completed. -/
theorem refreshGoal_of_proven (hproven : Proven F disk g) (hstatus : g.goalStatus = .completed)
    (hread : ∀ path s, g.sessionPath = some path → disk.sessions.get? path = some s →
      Readable s target workspace now) :
    ∃ g', refreshGoal F disk target workspace now g = .ok g' ∧ g'.goalStatus = .completed := by
  unfold refreshGoal
  cases hpath : g.sessionPath with
  | none => exact ⟨g, rfl, hstatus⟩
  | some path =>
    obtain ⟨s, hs, hid, hfinished⟩ := hproven path hpath
    have hload : loadSession F disk path target workspace now = .ok s :=
      loadSession_ok.mpr ⟨hs, validateSession_eq_nil.mpr ⟨hfinished.contract,
        hfinished.fingerprint, hfinished.artifacts, hread path s hpath hs⟩⟩
    dsimp only
    rw [hload]
    dsimp only
    rw [if_neg (not_not.mpr hid)]
    have hproject : projectGoal F g s = .ok { g with goalStatus := .completed } := by
      unfold projectGoal
      rw [hfinished.status]
      dsimp only
      rw [hfinished.reasons]
      rfl
    rw [hproject]
    exact ⟨_, rfl, rfl⟩

/-- A goal is found completed only with a finished session. -/
theorem proven_of_refreshGoal (h : refreshGoal F disk target workspace now g = .ok g')
    (hstatus : g'.goalStatus = .completed) : Proven F disk g' := by
  intro path hpath
  obtain ⟨_, _, _, hframe⟩ := refreshGoal_frame h
  have hsame : g'.sessionPath = g.sessionPath ∧ g'.sessionId = g.sessionId := by
    rw [hframe]
    exact ⟨rfl, rfl⟩
  unfold refreshGoal at h
  rw [← hsame.1, hpath] at h
  dsimp only at h
  split at h
  · cases h
    cases hstatus
  · cases h
  · rename_i s hs
    obtain ⟨hget, hvalid⟩ := loadSession_ok.mp hs
    obtain ⟨hcontract, hfingerprint, hartifacts, -⟩ := validateSession_eq_nil.mp hvalid
    split at h
    · cases h
      cases hstatus
    rename_i hid
    obtain ⟨x, hx, h⟩ := bind_eq_ok.mp h
    cases h
    change x.goalStatus = .completed at hstatus
    have hend : s.sessionStatus = .completed ∧ completionReasons F s = .ok [] := by
      unfold projectGoal at hx
      split at hx
      case h_9 hcompleted =>
        obtain ⟨reasons, hreasons, hx⟩ := bind_eq_ok.mp hx
        split at hx
        · rename_i hnil
          exact ⟨hcompleted, hnil ▸ hreasons⟩
        · cases hx
          cases hstatus
      all_goals
        cases hx
        cases hstatus
    exact ⟨s, hget, hsame.2.trans (not_not.mp hid), hcontract, hfingerprint, hartifacts,
      hend.1, hend.2⟩

/-! ## Calls that complete no goal -/

/-- The goals that are completed are the same, with the same sessions, and no goal is gone. -/
structure KeepsCompleted (m m' : Mission) : Prop where
  keys : ∀ id ∈ m.goals.keys, id ∈ m'.goals.keys
  forth : ∀ id, CompletedIn m id → CompletedIn m' id
  back : ∀ id g', m'.goals.get? id = some g' → g'.goalStatus = .completed →
    ∃ g, m.goals.get? id = some g ∧ g.goalStatus = .completed ∧ g'.sessionPath = g.sessionPath ∧
      g'.sessionId = g.sessionId

variable {m m' : Mission}

theorem KeepsCompleted.of_eq (h : m'.goals = m.goals) : KeepsCompleted m m' where
  keys := fun id hid => h ▸ hid
  forth := by
    unfold CompletedIn
    rw [h]
    exact fun _ hid => hid
  back := by
    rw [h]
    exact fun _ g hg hstatus => ⟨g, hg, hstatus, rfl, rfl⟩

theorem KeepsCompleted.set {id : String} (hg : m.goals.get? id = some g)
    (hstatus : g'.goalStatus = g.goalStatus ∧ g'.sessionPath = g.sessionPath ∧
      g'.sessionId = g.sessionId ∨
      g.goalStatus ≠ .completed ∧ g'.goalStatus ≠ .completed)
    (hgoals : m'.goals = m.goals.set id g') : KeepsCompleted m m' where
  keys := by
    intro i hi
    obtain ⟨x, hx⟩ := Dict.mem_keys.mp hi
    rw [hgoals, Dict.mem_keys]
    simp only [Dict.get?_set]
    split
    · exact ⟨_, rfl⟩
    · exact ⟨x, hx⟩
  forth := by
    intro i hi
    obtain ⟨x, hx, hcompleted⟩ := completedIn_iff.mp hi
    rw [completedIn_iff, hgoals]
    simp only [Dict.get?_set]
    by_cases hid : i = id
    · rw [hid, hg, Option.some.injEq] at hx
      rw [← hx] at hcompleted
      rcases hstatus with ⟨heq, -⟩ | ⟨hne, -⟩
      · exact ⟨g', if_pos hid, heq.trans hcompleted⟩
      · exact absurd hcompleted hne
    · exact ⟨x, by rw [if_neg hid, hx], hcompleted⟩
  back := by
    intro i x hx hcompleted
    rw [hgoals, Dict.get?_set] at hx
    split at hx
    · rename_i hid
      cases hx
      rcases hstatus with ⟨heq, hpath, hsession⟩ | ⟨-, hne⟩
      · exact ⟨g, hid ▸ hg, heq ▸ hcompleted, hpath, hsession⟩
      · exact absurd hcompleted hne
    · exact ⟨x, hx, hcompleted, rfl, rfl⟩

theorem KeepsCompleted.trans {a b c : Mission} (h : KeepsCompleted a b)
    (h' : KeepsCompleted b c) : KeepsCompleted a c where
  keys := fun id hid => h'.keys id (h.keys id hid)
  forth := fun id hid => h'.forth id (h.forth id hid)
  back := by
    intro id x hx hcompleted
    obtain ⟨y, hy, hcompleted, hpath, hsession⟩ := h'.back id x hx hcompleted
    obtain ⟨z, hz, hcompleted, hpath', hsession'⟩ := h.back id y hy hcompleted
    exact ⟨z, hz, hcompleted, hpath.trans hpath', hsession.trans hsession'⟩

theorem keepsCompleted_cancel (m : Mission) :
    KeepsCompleted m (m.withGoals (mapGoals cancelGoal m.goals)) where
  keys := by
    intro id hid
    obtain ⟨g, hg⟩ := Dict.mem_keys.mp hid
    change id ∈ (mapGoals cancelGoal m.goals).keys
    rw [Dict.mem_keys, get?_mapGoals, hg]
    exact ⟨_, rfl⟩
  forth := by
    intro id hid
    obtain ⟨g, hg, hcompleted⟩ := completedIn_iff.mp hid
    refine completedIn_iff.mpr ⟨cancelGoal g, ?_, ?_⟩
    · change (mapGoals cancelGoal m.goals).get? id = _
      rw [get?_mapGoals, hg]
      rfl
    · unfold cancelGoal
      rw [if_neg (by rw [hcompleted]; decide), hcompleted]
  back := by
    intro id x hx hcompleted
    change (mapGoals cancelGoal m.goals).get? id = _ at hx
    rw [get?_mapGoals] at hx
    obtain ⟨g, hg, rfl⟩ := Option.map_eq_some_iff.mp hx
    refine ⟨g, hg, ?_⟩
    unfold cancelGoal at hcompleted ⊢
    split at hcompleted
    · cases hcompleted
    · exact ⟨hcompleted, by split <;> exact ⟨rfl, rfl⟩⟩

section Submit

variable {F : OrchestratorDigest} {m m' : Mission} {input : MissionInput} {now : Option Instant}
  {clock : Instant}

/-- An input completes no goal and gives none up, unless it confirms a replan. -/
theorem keepsCompleted_submitted (h : Submitted F m input now clock m') :
    KeepsCompleted m m' ∨ ∃ record completed b c,
      Replans F.toMissionDigest m input.payload.toReplanConfirmation (now.getD clock) record
        completed b c ∧ m' = recorded F c input := by
  cases h with
  | same => exact .inl (.of_eq rfl)
  | rejected status type =>
    exact .inl (.of_eq ((StatusOnly.refl m).moved .blocked (now.getD clock)).goals)
  | confirmed status type =>
    exact .inl (.of_eq ((StatusOnly.refl { m with
      goalGraph := confirmedGraph F m.goalGraph }).moved .ready (now.getD clock)).goals)
  | cancelled active type =>
    refine .inl ((keepsCompleted_cancel m).trans (.of_eq ?_))
    exact ((StatusOnly.refl (m.withGoals (mapGoals cancelGoal m.goals))).moved .cancelled
      (now.getD clock)).goals
  | handled x new ok type =>
    cases handleInput_ok ok with
    | staged r o s type request output staged =>
      exact .inl (.of_eq (stageReplan_ok staged).2.2.goals)
    | confirmed record completed b c type replans =>
      exact .inr ⟨record, completed, b, x, replans, rfl⟩
    | rejected type status =>
      exact .inl (.of_eq (rejectedReplan_statusOnly (F := F) m (now.getD clock)).1.goals)
    | clarified type => exact .inl (.of_eq rfl)
    | prioritized id g priority type named priority_eq range inactive =>
      have hsame : ({ g with priority } : Goal).goalStatus = g.goalStatus ∧
          ({ g with priority } : Goal).sessionPath = g.sessionPath ∧
          ({ g with priority } : Goal).sessionId = g.sessionId := ⟨rfl, rfl, rfl⟩
      exact .inl (.set (namedGoal_some.mp named).2 (.inl hsame) rfl)
    | retried id g type named retryable =>
      have hne : g.goalStatus ≠ .completed ∧ (retriedGoal g).goalStatus ≠ .completed := by
        rcases retryable.status with h | h <;> simp [retriedGoal, h]
      have hset : KeepsCompleted m (withRetry m id g) :=
        .set (namedGoal_some.mp named).2 (.inr hne) rfl
      exact .inl (hset.trans (.of_eq (retried_statusOnly (F := F) m id g (now.getD clock)).1.goals))

theorem status_completed_submitted (h : Submitted F m input now clock m')
    (hm : m.missionStatus = .completed) : m'.missionStatus = .completed := by
  cases h with
  | same => exact hm
  | rejected status type =>
    rw [hm] at status
    cases status
  | confirmed status type =>
    rw [hm] at status
    cases status
  | cancelled active type =>
    rw [hm] at active
    cases active
  | handled x new ok type =>
    change x.missionStatus = _
    cases handleInput_ok ok with
    | staged r o s type request output staged =>
      exact absurd request (createReplanningRequest_ended (.inl hm) _ _ _ _)
    | confirmed record completed b c type replans =>
      have hstatus := replans.status
      rw [hm] at hstatus
      cases hstatus
    | rejected type status =>
      rw [hm] at status
      cases status
    | clarified type => exact hm
    | prioritized id g priority type named priority_eq range inactive => exact hm
    | retried id g type named retryable =>
      rw [(retried_statusOnly (F := F) m id g (now.getD clock)).2, hm, if_neg (by decide)]

end Submit

/-! ## The files of the sessions -/

theorem sessions_after {ws : List Write} (h : ∀ s, Write.session path s ∉ ws) :
    (disk.after ws).sessions.get? path = disk.sessions.get? path := by
  unfold Disk.after
  induction ws generalizing disk with
  | nil => rfl
  | cons w ws ih =>
    rw [List.foldl_cons, ih fun s hs => h s (List.mem_cons_of_mem _ hs)]
    cases w with
    | session p x =>
      have hne : path ≠ p := fun heq => h x (heq ▸ List.mem_cons_self)
      change (disk.sessions.set p x).get? path = _
      rw [Dict.get?_set, if_neg hne]
    | scheduler p x => rfl
    | mission p x => rfl

theorem sessions_after_submit (w : World) (input : MissionInput) (at' : Option Instant)
    (clock : Instant) (path : String) :
    (w.disk.after (submitMissionInput F w.mission input at' clock).writes).sessions.get? path =
      w.disk.sessions.get? path :=
  sessions_after fun _ hs => writes_submit _ hs

/-- A call on sessions that leaves finished ones as they are. -/
def LeavesFinished (F : OrchestratorDigest) (f : Session → Except Err Session) : Prop :=
  ∀ s s', Finished F s → f s = .ok s' → s' = s

theorem leavesFinished_resume (input : SessionInput) (d : Decision) (target workspace : Root)
    (now : Instant) : LeavesFinished F fun s =>
      resumeRuntimeSession F.toSessionDigest s input d target workspace now := by
  intro s s' hs h
  unfold resumeRuntimeSession at h
  dsimp only at h
  split at h
  · cases h
  rw [if_pos (by rw [hs.status]; rfl)] at h
  cases h
  rfl

theorem leavesFinished_cancel (operatorId : String) (now : Instant) :
    LeavesFinished F fun s => cancelRuntimeSession F.toSessionDigest s operatorId now := by
  intro s s' hs h
  unfold cancelRuntimeSession at h
  dsimp only at h
  split at h
  · cases h
  rw [hs.status] at h
  cases h
  rfl

theorem sealSession_of_finished (h : Finished F s) : sealSession F.toSessionDigest s = s := by
  unfold sealSession
  rw [← h.fingerprint]

variable {w : World}

variable {f : Session → Except Err Session}

theorem sessions_after_onSession {p : String} (hf : LeavesFinished F f)
    (hs : w.disk.sessions.get? p = some s) (hfinished : Finished F s) :
    (w.disk.after (onSession F w path f).writes).sessions.get? p = some s := by
  unfold onSession
  split
  · exact hs
  rename_i x hx
  cases hresult : f x with
  | error e => exact hs
  | ok y =>
    change (w.disk.sessions.set path (sealSession F.toSessionDigest y)).get? p = _
    rw [Dict.get?_set]
    split
    · rename_i hp
      rw [hp, hx, Option.some.injEq] at hs
      subst hs
      rw [hf x y hfinished hresult, sealSession_of_finished hfinished]
    · exact hs

/-! ## The invariant -/

structure Assured (F : OrchestratorDigest) (w : World) : Prop where
  reached : Reached w.mission
  done : AllCompleted w.mission → w.mission.missionStatus = .completed
  proven : ∀ id g, w.mission.goals.get? id = some g → g.goalStatus = .completed →
    Proven F w.disk g

theorem not_allCompleted_replanned {c : Mission} {p : ReplanConfirmation} {record : ReplanRecord}
    {completed : List (String × Goal)} {b : BuiltGraph} (hm : Reached m) (hnot : ¬AllCompleted m)
    (h : Replans F.toMissionDigest m p now record completed b c) : ¬AllCompleted c := by
  obtain ⟨hsame, -⟩ := goals_replanned hm h
  have hgoals : c.goals = b.goals := hsame.goals
  obtain ⟨-, hall⟩ := hm.staged h.status record h.last
  intro hdone
  cases hnew : newGoals record.output with
  | nil =>
    refine hnot fun id hid => ?_
    obtain ⟨g, hg⟩ := Dict.mem_keys.mp hid
    have hkept : (id, g) ∈ b.goals.entries := by
      rw [h.built.entries]
      exact List.mem_append_left _ (mem_keptGoals.mpr ⟨hall hnew id hid, hg⟩)
    refine (completedIn_replanned hm h id).mp (hdone id ?_)
    rw [hgoals]
    exact List.mem_map_of_mem hkept
  | cons x xs =>
    have hadded : (x.provisionalGoalId, x.goal m.missionId) ∈ b.goals.entries := by
      rw [h.built.entries]
      unfold revisedGoals
      rw [hnew]
      exact List.mem_append_right _ List.mem_cons_self
    obtain ⟨g, hg, hstatus⟩ := completedIn_iff.mp (hdone x.provisionalGoalId (by
      rw [hgoals]
      exact List.mem_map_of_mem hadded))
    rw [hgoals, Dict.mem_entries.mp hadded, Option.some.injEq] at hg
    rw [← hg] at hstatus
    cases hstatus

theorem AllCompleted.back (h : KeepsCompleted m m') (hall : AllCompleted m') : AllCompleted m := by
  intro id hid
  obtain ⟨g', hg', hstatus⟩ := completedIn_iff.mp (hall id (h.keys id hid))
  obtain ⟨g, hg, hstatus, -⟩ := h.back id g' hg' hstatus
  exact completedIn_iff.mpr ⟨g, hg, hstatus⟩

/-- The finished sessions of the goals are where they were. -/
def KeepsFiles (F : OrchestratorDigest) (m : Mission) (d d' : Disk) : Prop :=
  ∀ id g path s, m.goals.get? id = some g → g.sessionPath = some path →
    d.sessions.get? path = some s → Finished F s → d'.sessions.get? path = some s

theorem Proven.keeps {d d' : Disk} {id : String} (hfiles : KeepsFiles F m d d')
    (hg : m.goals.get? id = some g) (hpath : g'.sessionPath = g.sessionPath)
    (hsession : g'.sessionId = g.sessionId) (h : Proven F d g) : Proven F d' g' := by
  intro path hpath'
  rw [hpath] at hpath'
  obtain ⟨s, hs, hid, hfinished⟩ := h path hpath'
  exact ⟨s, hfiles id g path s hg hpath' hs hfinished, hsession.trans hid, hfinished⟩

variable {e : Event}

/-- What a call must be shown to do. -/
theorem kept_of (hw : Assured F w) (hmission : (w.after (e.call F w)).mission = m')
    (hreached : Reached m') (hforth : ∀ id, CompletedIn w.mission id → CompletedIn m' id)
    (hdone : AllCompleted m' → m'.missionStatus = .completed)
    (hstays : w.mission.missionStatus = .completed → m'.missionStatus = .completed)
    (hproven : ∀ id g', m'.goals.get? id = some g' → g'.goalStatus = .completed →
      Proven F (w.after (e.call F w)).disk g') : Kept F w e ∧ Assured F (w.after (e.call F w)) := by
  subst hmission
  exact ⟨⟨hforth, hdone, fun hall => hstays (hw.done hall)⟩, hreached, hdone, hproven⟩

theorem kept_of_same (hw : Assured F w) (hmission : (w.after (e.call F w)).mission = w.mission)
    (hfiles : KeepsFiles F w.mission w.disk (w.after (e.call F w)).disk) :
    Kept F w e ∧ Assured F (w.after (e.call F w)) :=
  kept_of hw hmission hw.reached (fun _ hid => hid) hw.done id fun id g hg hstatus =>
    (hw.proven id g hg hstatus).keeps hfiles hg rfl rfl

/-! ## An input -/

theorem kept_submit (hw : Assured F w) (input : MissionInput) (at' : Option Instant)
    (clock : Instant) :
    Kept F w (.submit input at' clock) ∧
      Assured F (w.after ((Event.submit input at' clock).call F w)) := by
  have hfiles : KeepsFiles F w.mission w.disk
      (w.after ((Event.submit input at' clock).call F w)).disk :=
    fun id g path s _ _ hs _ => (sessions_after_submit w input at' clock path).trans hs
  cases hresult : (submitMissionInput F w.mission input at' clock).result with
  | error e =>
    refine kept_of_same hw ?_ hfiles
    refine mission_after_of_same fun m hm => ?_
    change (submitMissionInput F w.mission input at' clock).result = _ at hm
    rw [hresult] at hm
    cases hm
  | ok m' =>
    have hmission : (w.after ((Event.submit input at' clock).call F w)).mission = m' := by
      change ((submitMissionInput F w.mission input at' clock).result.toOption.getD w.mission) = m'
      rw [hresult]
      rfl
    have hsubmitted := submitMissionInput_ok hresult
    have hreached := reached_submitted hw.reached hsubmitted
    have hstays := status_completed_submitted hsubmitted
    rcases keepsCompleted_submitted hsubmitted with hkeeps | ⟨record, completed, b, c, h, rfl⟩
    · refine kept_of hw hmission hreached hkeeps.forth
        (fun hall => hstays (hw.done (hall.back hkeeps))) hstays fun id g' hg' hstatus => ?_
      obtain ⟨g, hg, hstatus, hpath, hsession⟩ := hkeeps.back id g' hg' hstatus
      exact (hw.proven id g hg hstatus).keeps hfiles hg hpath hsession
    · have hnot : ¬AllCompleted w.mission := by
        intro hall
        have hstatus := hw.done hall
        rw [h.status] at hstatus
        cases hstatus
      have hback := completedIn_replanned hw.reached h
      have hpending : ¬AllCompleted c := not_allCompleted_replanned hw.reached hnot h
      refine kept_of hw hmission hreached (fun id hid => (hback id).mpr hid)
        (fun hall => absurd hall hpending) hstays fun id g' hg' hstatus => ?_
      have hgoals : c.goals = b.goals := (goals_replanned hw.reached h).1.goals
      change c.goals.get? id = some g' at hg'
      rw [hgoals, ← Dict.mem_entries, h.built.entries] at hg'
      rcases List.mem_append.mp hg' with hkept | hnew
      · have hg := (mem_keptGoals.mp hkept).2
        exact (hw.proven id g' hg hstatus).keeps hfiles hg rfl rfl
      · obtain ⟨x, -, heq⟩ := List.mem_map.mp hnew
        cases heq
        cases hstatus

/-! ## A call on a session -/

theorem kept_onSession (hw : Assured F w) (hcall : e.call F w = onSession F w path f)
    (hf : LeavesFinished F f) : Kept F w e ∧ Assured F (w.after (e.call F w)) := by
  refine kept_of_same hw ?_ ?_
  · rw [hcall]
    exact mission_after_onSession path f
  · rw [hcall]
    exact fun id g p s _ _ hs hfinished => sessions_after_onSession hf hs hfinished

/-! ## An advance -/

section Advance

variable {w : World} {source : SchedulerSource} {config : RuntimeConfig} {scheduler : SchedulerState}
  {goals : Goals}

/-- No session of a goal that is finished is overwritten. -/
theorem keepsFiles_advance (hw : Reached w.mission)
    (hentered : Entered F w.mission source config now w.disk target workspace scheduler)
    (hsafe : SafeAdvance w config now target workspace) :
    KeepsFiles F w.mission w.disk
      (w.disk.after (advanceMission F w.mission source config now w.disk).writes) := by
  intro id g path s hg hpath hs hfinished
  have horder : w.mission.goalOrder.Nodup := (hw.sound.order.nodup_iff).mpr (nodup_keys _)
  rw [sessions_after]
  · exact hs
  intro x hx
  rcases writes_advance hentered horder hx with ⟨goals, n, hgoals, hn, heq⟩ | ⟨_, _, heq⟩ |
    ⟨_, _, heq⟩
  · cases heq
    obtain ⟨directory, hdirectory, hplace⟩ := hn.path
    obtain ⟨g₀, status, failure, fingerprint, hg₀, hsame⟩ :=
      refreshedGoals_frame horder hgoals hn.goal
    have hnone : g₀.sessionId = none := by
      have hneeds := (needsSession_iff.mp hn.needs).2
      rw [hsame] at hneeds
      exact hneeds
    rw [hsame] at hplace
    change n.path = filePath directory (attemptName n.goalId (g₀.attemptCount + 1)) at hplace
    rw [hplace] at hs hpath
    exact hsafe.fresh n.goalId g₀ directory s hg₀ hnone hdirectory hs ⟨id, g, hg, hpath⟩
      hfinished.status
  · cases heq
  · cases heq

theorem completed_refreshed (hw : Assured F w)
    (hsafe : SafeAdvance w config now target workspace)
    (hgoals : refreshedGoals F w.mission w.disk target workspace now = .ok goals) {id : String}
    (hid : CompletedIn w.mission id) : ∃ g, goals.get? id = some g ∧ g.goalStatus = .completed := by
  have horder : w.mission.goalOrder.Nodup := (hw.reached.sound.order.nodup_iff).mpr (nodup_keys _)
  obtain ⟨g, hg, hstatus⟩ := completedIn_iff.mp hid
  obtain ⟨seen, blocked, ready, h⟩ := refreshedGoals_ok hgoals
  have hmem : id ∈ w.mission.goalOrder :=
    hw.reached.sound.order.mem_iff.mpr (Dict.mem_keys.mpr ⟨g, hg⟩)
  obtain ⟨x, y, hx, hy, hseen⟩ := (refreshGoals_ok horder h.refresh).1 id hmem
  rw [hg, Option.some.injEq] at hx
  subst hx
  obtain ⟨z, hz, hcompleted⟩ := refreshGoal_of_proven (hw.proven id g hg hstatus) hstatus
    fun path s hpath hs => hsafe.readable id g path s hg hstatus hpath hs
  rw [hy] at hz
  cases hz
  exact ⟨y, get?_of_settled h hseen (by rw [hcompleted]; rfl), hcompleted⟩

/-- A goal that an advance finds completed has a finished session. -/
theorem proven_refreshed (hw : Assured F w)
    (hgoals : refreshedGoals F w.mission w.disk target workspace now = .ok goals) {id : String}
    (hg' : goals.get? id = some g') (hstatus : g'.goalStatus = .completed) :
    Proven F w.disk g' := by
  have horder : w.mission.goalOrder.Nodup := (hw.reached.sound.order.nodup_iff).mpr (nodup_keys _)
  obtain ⟨seen, blocked, ready, h⟩ := refreshedGoals_ok hgoals
  obtain ⟨x, hx, hcases⟩ := get?_refreshed h hg'
  have hsame : g' = x := by
    rcases hcases with heq | ⟨-, rfl | rfl⟩
    · exact heq
    · cases hstatus
    · cases hstatus
  subst hsame
  obtain ⟨hin, hout⟩ := refreshGoals_ok horder h.refresh
  by_cases hid : id ∈ w.mission.goalOrder
  · obtain ⟨g, y, -, hy, hseen⟩ := hin id hid
    rw [hx, Option.some.injEq] at hseen
    exact proven_of_refreshGoal (hseen ▸ hy) hstatus
  · rw [hout id hid] at hx
    exact hw.proven id g' hx hstatus

theorem goalsStatus_of_completed {goals : Goals} (hne : goals.entries ≠ [])
    (h : ∀ id g, goals.get? id = some g → g.goalStatus = .completed) :
    goalsStatus goals = .completed := by
  have hnone : (goals.values.map Goal.goalStatus).isEmpty = false := by
    unfold Dict.values
    simpa [List.isEmpty_eq_false_iff] using hne
  have hall : (goals.values.map Goal.goalStatus).all (· = .completed) = true := by
    rw [List.all_eq_true]
    intro status hstatus
    obtain ⟨g, hg, rfl⟩ := List.mem_map.mp hstatus
    obtain ⟨id, hid⟩ := Dict.mem_values.mp hg
    exact decide_eq_true (h id g hid)
  unfold goalsStatus nextStatus
  dsimp only
  rw [hnone, hall]
  rfl

theorem kept_advance (hw : Assured F w)
    (hsafe : Safe F w (.advance source config now)) :
    Kept F w (.advance source config now) ∧
      Assured F (w.after ((Event.advance source config now).call F w)) := by
  by_cases hentered : ∃ target workspace scheduler,
      Entered F w.mission source config now w.disk target workspace scheduler
  · obtain ⟨target, workspace, scheduler, hentered⟩ := hentered
    have hsafe := hsafe target workspace scheduler hentered
    have hfiles : KeepsFiles F w.mission w.disk
        (w.after ((Event.advance source config now).call F w)).disk :=
      keepsFiles_advance hw.reached hentered hsafe
    cases hresult : (advanceMission F w.mission source config now w.disk).result with
    | error e =>
      refine kept_of_same hw ?_ hfiles
      refine mission_after_of_same fun m hm => ?_
      change (advanceMission F w.mission source config now w.disk).result = _ at hm
      rw [hresult] at hm
      cases hm
    | ok m' =>
      have horder : w.mission.goalOrder.Nodup :=
        (hw.reached.sound.order.nodup_iff).mpr (nodup_keys _)
      have hmission : (w.after ((Event.advance source config now).call F w)).mission = m' := by
        change ((advanceMission F w.mission source config now w.disk).result.toOption.getD
          w.mission) = m'
        rw [hresult]
        rfl
      have hreached := reached_advanced hw.reached hresult
      obtain ⟨goals, created, scheduler', settled, hadv⟩ :=
        advances_of_ok hentered horder hresult
      rw [hadv.answer] at hresult
      cases hresult
      obtain ⟨hsame, hstatus⟩ := settleStatus_ok hadv.settles
      have hgoals : settled.goals = (withSessions (w.mission.withGoals goals) created).goals :=
        hsame.goals
      refine kept_of hw hmission hreached (fun id hid => ?_) (fun hall => ?_) (fun hended => ?_)
        fun id g' hg' hcompleted => ?_
      · obtain ⟨g, hg, hcompleted⟩ := completed_refreshed hw hsafe hadv.refreshed hid
        refine completedIn_iff.mpr ⟨g, ?_, hcompleted⟩
        change settled.goals.get? id = _
        rw [hgoals, get?_withSessions_of_not_mem]
        · exact hg
        intro hmem
        obtain ⟨n, hn, rfl⟩ := List.mem_map.mp hmem
        have hneeds := (needsSession_iff.mp (hadv.made n hn).needs).1
        have hsame : goals.get? n.goalId = some n.goal := (hadv.made n hn).goal
        rw [hg, Option.some.injEq] at hsame
        rw [← hsame, hcompleted] at hneeds
        cases hneeds
      · change settled.missionStatus = _
        rw [hstatus]
        change goalsStatus (withSessions (w.mission.withGoals goals) created).goals = _
        rw [← hgoals]
        refine goalsStatus_of_completed hreached.sound.nonempty fun id g hg => ?_
        obtain ⟨x, hx, hcompleted⟩ := completedIn_iff.mp (hall id (Dict.mem_keys.mpr ⟨g, hg⟩))
        change settled.goals.get? id = some x at hx
        rw [hg, Option.some.injEq] at hx
        exact hx ▸ hcompleted
      · have hactive := hentered.active
        rw [hended] at hactive
        cases hactive
      · change settled.goals.get? id = some g' at hg'
        rw [hgoals] at hg'
        rcases get?_withCreated (hadv.nodup horder) hg' with ⟨hg', -⟩ | ⟨n, hn, -, rfl⟩
        · obtain ⟨g, status, failure, fingerprint, hg, heq⟩ :=
            refreshedGoals_frame horder hadv.refreshed hg'
          have hproven : Proven F w.disk g' := proven_refreshed hw hadv.refreshed hg' hcompleted
          have hback : Proven F w.disk g := by
            rw [heq] at hproven
            exact hproven
          refine hback.keeps hfiles hg ?_ ?_ <;> rw [heq] <;> rfl
        · cases hcompleted
  · obtain ⟨hwrites, hsame⟩ := advanceMission_of_not_entered hentered
    refine kept_of_same hw (mission_after_of_same hsame) ?_
    intro id g path s _ _ hs _
    change (w.disk.after (advanceMission F w.mission source config now w.disk).writes).sessions.get?
      path = _
    rw [hwrites]
    exact hs

end Advance

/-! ## A run -/

theorem kept_step (hw : Assured F w) (hsafe : Safe F w e) :
    Kept F w e ∧ Assured F (w.after (e.call F w)) := by
  cases e with
  | advance source config at' => exact kept_advance hw hsafe
  | submit input at' clock => exact kept_submit hw input at' clock
  | resume path input decision target workspace at' =>
    exact kept_onSession hw rfl (leavesFinished_resume input decision target workspace at')
  | cancel path operatorId at' =>
    exact kept_onSession hw rfl (leavesFinished_cancel operatorId at')

theorem kept_run {events : List Event} (hw : Assured F w)
    (hsafe : (missionMachine F).Guarded (Safe F) w events) :
    (missionMachine F).Guarded (Kept F) w events :=
  Machine.Guarded.of_invariant (fun _ _ hw hsafe => kept_step hw hsafe) hsafe hw

theorem mem_normalizeFrom {D : GoalDigest} {missionId : String} {items : List GoalItem}
    {i : GoalItem} (h : i ∈ items) (index : ℕ) : ∃ e ∈ normalizeFrom D missionId index items,
      e.2.goalStatus = i.goalStatus.getD .pending := by
  induction items generalizing index with
  | nil => cases h
  | cons x items ih =>
    rw [normalizeFrom]
    rcases List.mem_cons.mp h with rfl | h
    · exact ⟨_, List.mem_cons_self, rfl⟩
    · obtain ⟨e, he, hstatus⟩ := ih h (index + 1)
      exact ⟨e, List.mem_cons_of_mem _ he, hstatus⟩

theorem assured_created {plan : List GoalItem} {config : MissionConfig} {missionId : String}
    {b : BuiltGraph} (h : Created F plan config now missionId b m)
    (hplan : ∃ i ∈ plan, i.goalStatus ≠ some .completed) (d : Disk) : Assured F ⟨m, d⟩ where
  reached := reached_created h
  done := by
    intro hall
    obtain ⟨i, hi, hne⟩ := hplan
    obtain ⟨e, he, hstatus⟩ : ∃ e ∈ normalizeFrom F.toGoalDigest missionId 0 plan,
        e.2.goalStatus = i.goalStatus.getD .pending := mem_normalizeFrom hi 0
    rw [← h.built.entries] at he
    have hgoals : m.goals = mapGoals freshGoal b.goals := h.statusOnly.1.goals
    have hget : m.goals.get? e.1 = some (freshGoal e.2) := by
      rw [hgoals, get?_mapGoals, Dict.mem_entries.mp he]
      rfl
    obtain ⟨g, hg, hcompleted⟩ := completedIn_iff.mp (hall e.1 (Dict.mem_keys.mpr ⟨_, hget⟩))
    change m.goals.get? e.1 = some g at hg
    rw [hget, Option.some.injEq] at hg
    rw [← hg] at hcompleted
    change e.2.goalStatus = .completed at hcompleted
    rw [hcompleted] at hstatus
    cases hmarked : i.goalStatus with
    | none =>
      rw [hmarked] at hstatus
      cases hstatus
    | some status =>
      rw [hmarked] at hstatus
      exact absurd (hmarked.trans (congrArg some hstatus.symm)) hne
  proven := by
    intro id g hg _ path hpath
    have hgoals : m.goals = mapGoals freshGoal b.goals := h.statusOnly.1.goals
    change m.goals.get? id = some g at hg
    rw [hgoals, get?_mapGoals] at hg
    obtain ⟨x, -, rfl⟩ := Option.map_eq_some_iff.mp hg
    cases hpath

/-- In every run of a mission whose advances may read the sessions of the completed goals and
overwrite none, every call keeps what is completed. -/
theorem completed_run {input targetPath : String} {plan : List GoalItem} {config : MissionConfig}
    {m : Mission} (hplan : ∃ i ∈ plan, i.goalStatus ≠ some .completed)
    (hcreate : (createMission F input (some plan) target workspace targetPath config now
      disk).result = .ok m)
    (d : Disk) (events : List Event)
    (hsafe : (missionMachine F).Guarded (Safe F) ⟨m, d⟩ events) :
    (missionMachine F).Guarded (Kept F) ⟨m, d⟩ events := by
  obtain ⟨items, missionId, b, heq, hcreated⟩ := created_of_ok hcreate
  cases heq
  exact kept_run (assured_created hcreated hplan d) hsafe

end Digest

/-! ## A session that expires -/

/-- The ids of tasks in the place of fingerprints: no two goals have sessions of one id. -/
def taskRuntime : OrchestratorDigest :=
  { sampleRuntime with value := fun v => (Val.getIn "task_id" v.entries).toText }

def samplePlan (m : Mission) : InputPayload where
  operatorAcknowledgment := true
  graphFingerprint := m.goalGraph.graphFingerprint
  goalIds := m.goalGraph.goalIds
  goalOrder := m.goalGraph.goalOrder
  totalGoalCount := m.goals.entries.length

def sampleStart (m : Mission) (now : Instant) : List Event :=
  [.submit (sampleInput m "confirm" .confirmGoalPlan (samplePlan m)) none now,
    .advance .fromMission sampleConfig now]

/-- The inputs that bring a session from its first pause to a committed transaction. -/
def sampleApprovals (path sessionId : String) (now : Instant) : List Event :=
  ["proposal_approval", "execution_plan_review", "controlled_execution_request",
    "active_execution_authorization", "candidate_bundle", "transactional_invocation"].map fun type =>
      .resume path
        { contract := sessionInputContract, sessionId, inputId := type, operatorId := "operator"
          inputType := type, submittedAt := none }
        { artifacts := [], verdict := .accepted
          transactionResult := .dict [("transaction_status", .str "committed"),
            ("validation_passed", .bool true)] }
        (some "/target") (some "/workspace") now

/-- One goal is completed, the other waits for its operator. -/
def sampleCompletion (m : Mission) : List Event :=
  sampleStart m 0 ++
    sampleApprovals "/data/mission.sessions/a.attempt-1.json"
      "runtime-session-mission-task:a:attem" 0 ++
    [.advance .fromMission sampleConfig 0]

/-- A plan in which one goal is completed already. -/
def halfDone : List GoalItem :=
  [{ sampleItem "a" [] with goalStatus := some .completed }, sampleItem "b" ["a"]]

/-- Before there are sessions an advance can do no harm. -/
theorem safe_sampleStart {F : OrchestratorDigest} (m : Mission) (now : Instant) :
    (missionMachine F).Guarded (Safe F) ⟨m, {}⟩ (sampleStart m now) := by
  refine ⟨trivial, fun target workspace scheduler _ => ?_, trivial⟩
  have hnone := sessions_after_submit (F := F) ⟨m, {}⟩
    (sampleInput m "confirm" .confirmGoalPlan (samplePlan m)) none now
  constructor
  · intro id g path s _ _ _ hs
    cases (hnone path).symm.trans hs
  · intro id g directory s _ _ _ hs
    cases (hnone _).symm.trans hs

theorem completed_run_sample : ∃ m,
    (createMission taskRuntime "task" (some halfDone) (some "/target") (some "/workspace") "/target"
      samplePaths 0 {}).result = .ok m ∧ CompletedIn m "a" ∧
    (missionMachine taskRuntime).Guarded (Kept taskRuntime) ⟨m, {}⟩ (sampleStart m 0) := by
  refine ⟨_, rfl, by change statusIn _ _ = _; decide +kernel, ?_⟩
  have hplan : ∃ i ∈ halfDone, i.goalStatus ≠ some .completed :=
    ⟨sampleItem "b" ["a"], .tail _ (.head _), by decide⟩
  have hcreate : (createMission taskRuntime "task" (some halfDone) (some "/target")
      (some "/workspace") "/target" samplePaths 0 {}).result = _ := rfl
  exact completed_run hplan hcreate _ _ (safe_sampleStart _ 0)

/-- A goal is completed, its session expires after seven days, and while the mission goes on the
next advance blocks the goal. -/
theorem expired_session_blocks_completed_goal : ∃ answer m,
    createMission taskRuntime "task" (some [sampleItem "a" [], sampleItem "b" []])
      (some "/target") (some "/workspace") "/target" samplePaths 0 {} = answer ∧
    answer.result = .ok m ∧
    ¬(missionMachine taskRuntime).Guarded (Kept taskRuntime) ⟨m, ({} : Disk).after answer.writes⟩
      (sampleCompletion m ++
        [.advance .fromMission sampleConfig (sessionLifetime * 1000000)]) := by
  refine ⟨_, _, rfl, rfl, fun h => ?_⟩
  have hlast := (Machine.Guarded.snoc h).2.goals "a" (by change statusIn _ _ = _; decide +kernel)
  revert hlast
  change ¬(statusIn _ _ = _)
  decide +kernel

end Missions
end ZeroRuntime
