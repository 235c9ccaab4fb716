import ZeroRuntime.SessionScheduler.Model

/-!
# ZeroRuntime.SessionScheduler.Leases

What the operations of the session scheduler do to its leases.

* `Held l e`: the lease `l` is the one that the entry `e` records as active.
* `Keeps`: no lease is handed out or given back; an entry loses a lease only once it has run out.
  Every operation is a `Keeps`, a new entry, a `grant` or the end of a lease.
* `Recorded`: the two records of a lease agree until it has run out.
-/

namespace ZeroRuntime
namespace SessionScheduler

open Lib Sessions

variable {F : QueueDigest} {files : Files} {s s' s₁ : SchedulerState} {now clock : Instant}

structure Held (l : SessionLease) (e : QueueEntry) : Prop where
  session : e.sessionId = l.sessionId
  status : e.leaseStatus = .active
  lease : e.leaseId = l.leaseId
  owner : e.leaseOwner = l.leaseOwner
  expires : e.leaseExpiresAt = some l.expiresAt

/-! ## Operations that hand out no lease -/

structure SameLease (e e' : QueueEntry) : Prop where
  status : e'.leaseStatus = e.leaseStatus
  lease : e'.leaseId = e.leaseId
  owner : e'.leaseOwner = e.leaseOwner
  expires : e'.leaseExpiresAt = e.leaseExpiresAt

theorem SameLease.refl (e : QueueEntry) : SameLease e e := ⟨rfl, rfl, rfl, rfl⟩

variable {e : QueueEntry}

variable {e' : QueueEntry}

theorem SameLease.trans {e'' : QueueEntry} (h : SameLease e e') (h' : SameLease e' e'') :
    SameLease e e'' :=
  ⟨h'.status.trans h.status, h'.lease.trans h.lease, h'.owner.trans h.owner,
    h'.expires.trans h.expires⟩

theorem SameLease.overdue (h : SameLease e e') : overdue now e' = overdue now e := by
  unfold SessionScheduler.overdue
  rw [h.status, h.expires]

variable {l : SessionLease}

theorem SameLease.held (h : SameLease e e') (hsession : e'.sessionId = e.sessionId)
    (hheld : Held l e) : Held l e' :=
  ⟨hsession.trans hheld.session, h.status.trans hheld.status, h.lease.trans hheld.lease,
    h.owner.trans hheld.owner, h.expires.trans hheld.expires⟩

/-- The entry before and after an operation that leaves it its lease, unless that has run out. -/
structure Follows (now : Instant) (e e' : QueueEntry) : Prop where
  entryId : e'.queueEntryId = e.queueEntryId
  session : e'.sessionId = e.sessionId
  path : e'.sessionPath = e.sessionPath
  sequence : e'.sequenceNumber = e.sequenceNumber
  attempt : e'.attemptCount = e.attemptCount
  lease : SameLease e e' ∨ overdue now e = true ∧ e'.leaseStatus = .expired ∧ e'.leaseId = ""

theorem Follows.refl (e : QueueEntry) : Follows now e e :=
  ⟨rfl, rfl, rfl, rfl, rfl, .inl (.refl e)⟩

theorem Follows.trans {e'' : QueueEntry} (h : Follows now e e') (h' : Follows now e' e'') :
    Follows now e e'' where
  entryId := h'.entryId.trans h.entryId
  session := h'.session.trans h.session
  path := h'.path.trans h.path
  sequence := h'.sequence.trans h.sequence
  attempt := h'.attempt.trans h.attempt
  lease := by
    rcases h.lease with hsame | ⟨hdue, hstatus, hid⟩
    · rcases h'.lease with hsame' | ⟨hdue', hstatus', hid'⟩
      · exact .inl (hsame.trans hsame')
      · exact .inr ⟨hsame.overdue.symm.trans hdue', hstatus', hid'⟩
    · rcases h'.lease with hsame' | ⟨-, hstatus', hid'⟩
      · exact .inr ⟨hdue, hsame'.status.trans hstatus, hsame'.lease.trans hid⟩
      · exact .inr ⟨hdue, hstatus', hid'⟩

theorem follows_seal (e : QueueEntry) : Follows now e (sealEntry F e) :=
  ⟨rfl, rfl, rfl, rfl, rfl, .inl ⟨rfl, rfl, rfl, rfl⟩⟩

theorem follows_update (e : QueueEntry) (session : Session) (at' : Instant) :
    Follows now e (updateEntryFromSession F e session at') :=
  ⟨rfl, rfl, rfl, rfl, rfl, .inl ⟨rfl, rfl, rfl, rfl⟩⟩

theorem follows_block (e : QueueEntry) (reason : String) : Follows now e (blockEntry reason e) :=
  ⟨rfl, rfl, rfl, rfl, rfl, .inl ⟨rfl, rfl, rfl, rfl⟩⟩

theorem follows_dispatched (e : QueueEntry) (identifier : String) (result : Session)
    (refusal : Option String) (at' : Instant) :
    Follows now e (dispatchedEntry F identifier result refusal at' e) := by
  unfold dispatchedEntry
  cases refusal <;> exact ⟨rfl, rfl, rfl, rfl, rfl, .inl ⟨rfl, rfl, rfl, rfl⟩⟩

theorem follows_expire (e : QueueEntry) : Follows now e (expireEntry now e) := by
  unfold expireEntry
  split
  · rename_i hdue
    exact ⟨rfl, rfl, rfl, rfl, rfl, .inr ⟨hdue, rfl, rfl⟩⟩
  · exact .refl e

theorem follows_refresh (e : QueueEntry) : Follows now e (refreshEntry F files now e) := by
  unfold refreshEntry
  split
  · exact follows_block e _
  · rw [if_neg Bool.false_ne_true]
    cases loadRuntimeSession F files e.sessionPath none none now with
    | error error => exact follows_block e _
    | ok session =>
      dsimp only
      split
      · exact (follows_update e session now).trans (follows_block _ _)
      · exact follows_update e session now

theorem follows_recover (e : QueueEntry) : Follows now e (recoverEntry F files now e) :=
  (follows_expire e).trans (follows_refresh _)

/-- Once it has run out, an active lease is not on its entry any more. -/
theorem recover_overdue {e : QueueEntry} (h : overdue now e = true) :
    (recoverEntry F files now e).leaseStatus = .expired ∧
      (recoverEntry F files now e).leaseId = "" := by
  have hexpire : expireEntry now e = { unleased .expired e with blockedReasons := [] } := if_pos h
  have hfollows := @follows_refresh F files now (expireEntry now e)
  rcases hfollows.lease with hsame | ⟨-, hstatus, hid⟩
  · refine ⟨hsame.status.trans ?_, hsame.lease.trans ?_⟩
    · rw [hexpire]
      rfl
    · rw [hexpire]
      rfl
  · exact ⟨hstatus, hid⟩

structure Keeps (now : Instant) (s s' : SchedulerState) : Prop where
  contract : s'.contract = s.contract
  version : s'.queueVersion = s.queueVersion
  scheduler : s'.schedulerId = s.schedulerId
  leases : s'.leases = s.leases
  entries : List.Forall₂ (Follows now) s.entries s'.entries

theorem Keeps.refl (s : SchedulerState) : Keeps now s s :=
  ⟨rfl, rfl, rfl, rfl, List.forall₂_same.mpr fun e _ => .refl e⟩

theorem Keeps.trans (h : Keeps now s s₁) (h' : Keeps now s₁ s') : Keeps now s s' :=
  ⟨h'.contract.trans h.contract, h'.version.trans h.version, h'.scheduler.trans h.scheduler,
    h'.leases.trans h.leases, forall₂_trans (fun _ _ _ hf hg => hf.trans hg) h.entries h'.entries⟩

/-- Fields that no lease depends on are changed. -/
theorem Keeps.congr (h : Keeps now s s₁) (hcontract : s'.contract = s₁.contract)
    (hversion : s'.queueVersion = s₁.queueVersion) (hscheduler : s'.schedulerId = s₁.schedulerId)
    (hleases : s'.leases = s₁.leases) (hentries : s'.entries = s₁.entries) : Keeps now s s' :=
  ⟨hcontract.trans h.contract, hversion.trans h.version, hscheduler.trans h.scheduler,
    hleases.trans h.leases, hentries ▸ h.entries⟩

theorem keeps_map (f : QueueEntry → QueueEntry) (hf : ∀ e, Follows now e (f e))
    (s : SchedulerState) : Keeps now s { s with entries := s.entries.map f } :=
  ⟨rfl, rfl, rfl, rfl, List.forall₂_map_right_iff.mpr (List.forall₂_same.mpr fun e _ => hf e)⟩

theorem keeps_change (f : QueueEntry → QueueEntry) (hf : ∀ e, Follows now e (f e))
    (s : SchedulerState) (sessionId : String) : Keeps now s (changeEntry s sessionId f) :=
  ⟨rfl, rfl, rfl, rfl, forall₂_modifyFirst Follows.refl (fun e _ => hf e) s.entries⟩

theorem keeps_seal (s : SchedulerState) : Keeps now s (sealSchedulerState F s) :=
  (keeps_map (sealEntry F) follows_seal s).congr rfl rfl rfl rfl rfl

theorem keeps_rebuild (s : SchedulerState) (at' : Instant) :
    Keeps now s (rebuildWaitingProjection F s at') := by
  have hrebuilt : Keeps now s
      { s with
        waitingOperatorSessions :=
          ((orderedEntries s true).filter fun e => e.sessionStatus.waiting).map waitingProjection
        updatedAt := timeText at' } := (Keeps.refl s).congr rfl rfl rfl rfl rfl
  exact hrebuilt.trans (keeps_seal _)

theorem terminalLists_same (s : SchedulerState) (sessionId : String) (status : SessionStatus) :
    (terminalLists s sessionId status).contract = s.contract ∧
      (terminalLists s sessionId status).queueVersion = s.queueVersion ∧
      (terminalLists s sessionId status).schedulerId = s.schedulerId ∧
      (terminalLists s sessionId status).leases = s.leases ∧
      (terminalLists s sessionId status).entries = s.entries := by
  unfold terminalLists
  cases status <;> exact ⟨rfl, rfl, rfl, rfl, rfl⟩

theorem Keeps.terminal (h : Keeps now s s₁) (sessionId : String) (status : SessionStatus) :
    Keeps now s (terminalLists s₁ sessionId status) := by
  obtain ⟨hcontract, hversion, hscheduler, hleases, hentries⟩ :=
    terminalLists_same s₁ sessionId status
  exact h.congr hcontract hversion hscheduler hleases hentries

theorem keeps_settle (s : SchedulerState) (e : QueueEntry) (result : Session) (at' : Instant) :
    Keeps now s (settleEntry F s e result at') := by
  have hchange := @keeps_change now (fun e => updateEntryFromSession F e result at')
    (fun e => follows_update e result at') s e.sessionId
  exact (hchange.terminal e.sessionId result.sessionStatus).trans (keeps_rebuild _ at')

theorem keeps_noteDispatch (s : SchedulerState) (sessionId identifier : String) (result : Session)
    (refusal : Option String) (at' : Instant) :
    Keeps now s (noteDispatch F s sessionId identifier result refusal at') := by
  have hchange := @keeps_change now (dispatchedEntry F identifier result refusal at')
    (fun e => follows_dispatched e identifier result refusal at') s sessionId
  have hnoted : Keeps now s
      { changeEntry s sessionId (dispatchedEntry F identifier result refusal at') with
        processedDispatchIds := s.processedDispatchIds ++ [identifier] } :=
    hchange.congr rfl rfl rfl rfl rfl
  exact hnoted.terminal sessionId result.sessionStatus

theorem checked_ok (h : checked F s = .ok s') : validateSchedulerState F s = [] ∧ s' = s := by
  unfold checked at h
  split at h
  · rename_i hvalid
    cases h
    exact ⟨hvalid, rfl⟩
  · cases h

/-- What `recover_scheduler_state` makes of a state. -/
def recovered (F : QueueDigest) (files : Files) (s : SchedulerState) (now : Instant) :
    SchedulerState :=
  rebuildWaitingProjection F { s with entries := s.entries.map (recoverEntry F files now) } now

theorem recover_ok (h : recoverSchedulerState F files s now = .ok s') :
    validateSchedulerState F s = [] ∧ s' = recovered F files s now := by
  obtain ⟨s₁, hcheck, hs⟩ := bind_eq_ok.mp h
  obtain ⟨hvalid, rfl⟩ := checked_ok hcheck
  cases hs
  exact ⟨hvalid, rfl⟩

theorem keeps_recovered (s : SchedulerState) : Keeps now s (recovered F files s now) :=
  (keeps_map (recoverEntry F files now) follows_recover s).trans (keeps_rebuild _ now)

/-! ## The record of the leases -/

/-- The scheduler of the leases, and no entry twice. -/
structure Shaped (s : SchedulerState) : Prop where
  contract : s.contract = schedulerContract
  version : s.queueVersion = queueVersion
  sequences : (s.entries.map QueueEntry.sequenceNumber).Nodup
  sessions : (s.entries.map QueueEntry.sessionId).Nodup
  scheduler : ∀ l ∈ s.leases, l.schedulerId = s.schedulerId

theorem Shaped.keeps (h : Shaped s) (hkeeps : Keeps now s s') : Shaped s' where
  contract := hkeeps.contract.trans h.contract
  version := hkeeps.version.trans h.version
  sequences := by
    rw [forall₂_map_eq (fun _ _ hf => hf.sequence) hkeeps.entries]
    exact h.sequences
  sessions := by
    rw [forall₂_map_eq (fun _ _ hf => hf.session) hkeeps.entries]
    exact h.sessions
  scheduler := by
    rw [hkeeps.leases, hkeeps.scheduler]
    exact h.scheduler

theorem Shaped.entry? (h : Shaped s) (he : e ∈ s.entries) : entry? s e.sessionId = some e :=
  find?_key h.sessions he

variable (F) in
structure Recorded (clock : Instant) (s : SchedulerState) : Prop where
  contract : s.contract = schedulerContract
  version : s.queueVersion = queueVersion
  sequences : (s.entries.map QueueEntry.sequenceNumber).Nodup
  sessions : (s.entries.map QueueEntry.sessionId).Nodup
  leaseIds : (s.leases.map SessionLease.leaseId).Nodup
  entryIds : ∀ e ∈ s.entries, ∃ path, e.queueEntryId = queueEntryIdOf F e.sessionId path
  identified : ∀ l ∈ s.leases, l.leaseId = leaseIdOf F
    { schedulerId := s.schedulerId, queueEntryId := l.queueEntryId, owner := l.leaseOwner
      attempt := l.attemptNumber, acquiredAt := l.acquiredAt }
  scheduler : ∀ l ∈ s.leases, l.schedulerId = s.schedulerId
  counted : ∀ l ∈ s.leases, ∃ e ∈ s.entries, e.sessionId = l.sessionId ∧
    e.queueEntryId = l.queueEntryId ∧ l.attemptNumber ≤ e.attemptCount
  current : ∀ l ∈ s.leases, l.leaseStatus = .active →
    (∃ e ∈ s.entries, Held l e) ∨ reached clock l.expiresAt = true
  active : ∀ e ∈ s.entries, e.leaseStatus = .active → ∃ l ∈ s.leases, Held l e
  idle : ∀ e ∈ s.entries, e.leaseStatus ≠ .active → e.leaseId = ""

theorem Recorded.shaped (h : Recorded F clock s) : Shaped s :=
  ⟨h.contract, h.version, h.sequences, h.sessions, h.scheduler⟩

variable (F) in
/-- `fingerprint` tells leases apart, and the entries of different sessions. -/
structure Faithful : Prop where
  lease : Function.Injective F.leaseIdentity
  entry : ∀ {a path b path' : String}, F.entryIdentity a path = F.entryIdentity b path' → a = b

theorem reached_mono {t : ℕ} (hclock : clock ≤ now) (h : reached clock t = true) :
    reached now t = true := by
  unfold reached at h ⊢
  rw [decide_eq_true_eq] at h ⊢
  exact le_trans h hclock

theorem overdue_held (h : Held l e) : overdue now e = reached now l.expiresAt := by
  unfold overdue
  rw [h.status, h.expires, Option.any_some, decide_eq_true rfl, Bool.true_and]

theorem recorded_keeps (hclock : clock ≤ now) (h : Recorded F clock s) (hkeeps : Keeps now s s') :
    Recorded F now s' where
  contract := (h.shaped.keeps hkeeps).contract
  version := (h.shaped.keeps hkeeps).version
  sequences := (h.shaped.keeps hkeeps).sequences
  sessions := (h.shaped.keeps hkeeps).sessions
  leaseIds := hkeeps.leases ▸ h.leaseIds
  entryIds e' he' := by
    obtain ⟨e, he, hf⟩ := forall₂_mem_right hkeeps.entries he'
    obtain ⟨path, hpath⟩ := h.entryIds e he
    exact ⟨path, by rw [hf.entryId, hf.session, hpath]⟩
  identified := by
    rw [hkeeps.leases, hkeeps.scheduler]
    exact h.identified
  scheduler := (h.shaped.keeps hkeeps).scheduler
  counted l hl := by
    rw [hkeeps.leases] at hl
    obtain ⟨e, he, hsession, hentry, hcount⟩ := h.counted l hl
    obtain ⟨e', he', hf⟩ := forall₂_mem_left hkeeps.entries he
    exact ⟨e', he', hf.session.trans hsession, hf.entryId.trans hentry, hf.attempt ▸ hcount⟩
  current l hl hstatus := by
    rw [hkeeps.leases] at hl
    rcases h.current l hl hstatus with ⟨e, he, hheld⟩ | hreached
    · obtain ⟨e', he', hf⟩ := forall₂_mem_left hkeeps.entries he
      rcases hf.lease with hsame | ⟨hdue, -, -⟩
      · exact .inl ⟨e', he', hsame.held hf.session hheld⟩
      · exact .inr ((overdue_held hheld).symm.trans hdue)
    · exact .inr (reached_mono hclock hreached)
  active e' he' hstatus := by
    obtain ⟨e, he, hf⟩ := forall₂_mem_right hkeeps.entries he'
    rcases hf.lease with hsame | ⟨-, hexpired, -⟩
    · obtain ⟨l, hl, hheld⟩ := h.active e he (hsame.status.symm.trans hstatus)
      exact ⟨l, hkeeps.leases.symm ▸ hl, hsame.held hf.session hheld⟩
    · rw [hexpired] at hstatus
      cases hstatus
  idle e' he' hstatus := by
    obtain ⟨e, he, hf⟩ := forall₂_mem_right hkeeps.entries he'
    rcases hf.lease with hsame | ⟨-, -, hid⟩
    · rw [hsame.lease]
      exact h.idle e he (hsame.status ▸ hstatus)
    · exact hid

theorem Recorded.entry? (h : Recorded F clock s) (he : e ∈ s.entries) :
    entry? s e.sessionId = some e :=
  h.shaped.entry? he

variable {id : String}

theorem entry?_some (h : entry? s id = some e) : e ∈ s.entries ∧ e.sessionId = id :=
  find?_key_some h

theorem nextSequence_fresh (entries : List QueueEntry) :
    ∀ e ∈ entries, e.sequenceNumber < nextSequence entries := by
  have hmax : ∀ (es : List QueueEntry) (n : ℕ),
      n ≤ es.foldl (fun n e => max n e.sequenceNumber) n ∧
        ∀ e ∈ es, e.sequenceNumber ≤ es.foldl (fun n e => max n e.sequenceNumber) n := by
    intro es
    induction es with
    | nil => exact fun n => ⟨le_refl n, fun e he => by cases he⟩
    | cons x xs ih =>
      intro n
      obtain ⟨hle, hall⟩ := ih (max n x.sequenceNumber)
      refine ⟨le_trans (le_max_left _ _) hle, fun e he => ?_⟩
      rcases List.mem_cons.mp he with rfl | hmem
      · exact le_trans (le_max_right _ _) hle
      · exact hall e hmem
  exact fun e he => Nat.lt_succ_of_le ((hmax entries 0).2 e he)

theorem sequences_append {entries : List QueueEntry}
    (h : (entries.map QueueEntry.sequenceNumber).Nodup)
    (hsequence : e.sequenceNumber = nextSequence entries) :
    ((entries ++ [e]).map QueueEntry.sequenceNumber).Nodup := by
  rw [List.map_append, List.map_singleton]
  refine List.nodup_append.mpr ⟨h, List.nodup_singleton _, fun a ha b hb => ?_⟩
  rintro rfl
  obtain ⟨e', he', hsame⟩ := List.mem_map.mp ha
  have hlt := nextSequence_fresh entries e' he'
  rw [hsame, List.mem_singleton.mp hb, hsequence] at hlt
  exact lt_irrefl _ hlt

theorem sessions_append (h : (s.entries.map QueueEntry.sessionId).Nodup)
    (hfresh : entry? s e.sessionId = none) :
    ((s.entries ++ [e]).map QueueEntry.sessionId).Nodup := by
  rw [List.map_append, List.map_singleton]
  refine List.nodup_append.mpr ⟨h, List.nodup_singleton _, fun a ha b hb => ?_⟩
  rintro rfl
  obtain ⟨e', he', hsame⟩ := List.mem_map.mp ha
  rw [List.mem_singleton.mp hb] at hsame
  exact List.find?_eq_none.mp hfresh e' he' (decide_eq_true hsame)

theorem recorded_append (h : Recorded F clock s) {path : String}
    (hsequence : e.sequenceNumber = nextSequence s.entries) (hfresh : entry? s e.sessionId = none)
    (hid : e.queueEntryId = queueEntryIdOf F e.sessionId path) (hstatus : e.leaseStatus = .none)
    (hlease : e.leaseId = "") : Recorded F clock { s with entries := s.entries ++ [e] } where
  contract := h.contract
  version := h.version
  sequences := sequences_append h.sequences hsequence
  sessions := sessions_append h.sessions hfresh
  leaseIds := h.leaseIds
  entryIds e' he' := by
    rcases List.mem_append.mp he' with hold | hnew
    · exact h.entryIds e' hold
    · rw [List.mem_singleton.mp hnew]
      exact ⟨path, hid⟩
  identified := h.identified
  scheduler := h.scheduler
  counted l hl := by
    obtain ⟨e', he', hcount⟩ := h.counted l hl
    exact ⟨e', List.mem_append_left _ he', hcount⟩
  current l hl hactive := by
    rcases h.current l hl hactive with ⟨e', he', hheld⟩ | hreached
    · exact .inl ⟨e', List.mem_append_left _ he', hheld⟩
    · exact .inr hreached
  active e' he' hactive := by
    rcases List.mem_append.mp he' with hold | hnew
    · exact h.active e' hold hactive
    · rw [List.mem_singleton.mp hnew, hstatus] at hactive
      cases hactive
  idle e' he' hidle := by
    rcases List.mem_append.mp he' with hold | hnew
    · exact h.idle e' hold hidle
    · rw [List.mem_singleton.mp hnew]
      exact hlease

theorem entryReasons_eq_nil {before : List QueueEntry}
    (hsequence : ∀ b ∈ before, b.sequenceNumber ≠ e.sequenceNumber)
    (hsession : ∀ b ∈ before, b.sessionId ≠ e.sessionId) :
    entryReasons F before (sealEntry F e) = [] := by
  unfold entryReasons
  rw [if_pos (show (sealEntry F e).entryFingerprint = F.entry (unsignedEntry (sealEntry F e)) from
    rfl), if_neg, if_neg, if_neg]
  · rfl
  · rintro ⟨-, b, hb, -, hsame⟩
    exact hsession b hb hsame
  · rintro ⟨⟨b, hb, hsame⟩, -⟩
    exact hsession b hb hsame
  · rintro ⟨b, hb, hsame⟩
    exact hsequence b hb hsame

/-- The induction is on the entries that are left. -/
theorem entriesReasons_eq_nil {before es : List QueueEntry}
    (hsequences : ((before ++ es).map QueueEntry.sequenceNumber).Nodup)
    (hsessions : ((before ++ es).map QueueEntry.sessionId).Nodup) :
    entriesReasons F before (es.map (sealEntry F)) = [] := by
  induction es generalizing before with
  | nil => rfl
  | cons e es ih =>
    have hother : ∀ {β : Type} (key : QueueEntry → β), ((before ++ e :: es).map key).Nodup →
        ∀ b ∈ before, key b ≠ key e := by
      intro β key hnodup b hb
      rw [List.map_append, List.map_cons] at hnodup
      exact (List.nodup_append.mp hnodup).2.2 _ (List.mem_map_of_mem hb) _ List.mem_cons_self
    have hnext : ∀ {β : Type} (key : QueueEntry → β), key (sealEntry F e) = key e →
        (before ++ [sealEntry F e] ++ es).map key = (before ++ e :: es).map key := by
      intro β key hkey
      simp only [List.map_append, List.map_cons, hkey, List.append_assoc,
        List.cons_append, List.nil_append]
    rw [List.map_cons, entriesReasons, entryReasons_eq_nil
      (hother QueueEntry.sequenceNumber hsequences) (hother QueueEntry.sessionId hsessions),
      List.nil_append]
    exact ih ((hnext QueueEntry.sequenceNumber rfl).symm ▸ hsequences)
      ((hnext QueueEntry.sessionId rfl).symm ▸ hsessions)

/-- A state of this shape is valid once it is sealed. -/
theorem Shaped.valid (h : Shaped s) : validateSchedulerState F (sealSchedulerState F s) = [] := by
  unfold validateSchedulerState
  rw [if_pos (show (sealSchedulerState F s).contract = schedulerContract from h.contract),
    if_pos (show (sealSchedulerState F s).queueVersion = queueVersion from h.version),
    if_pos (show (sealSchedulerState F s).schedulerFingerprint =
      F.scheduler (unsignedScheduler (sealSchedulerState F s)) from rfl)]
  exact @entriesReasons_eq_nil F [] s.entries h.sequences h.sessions

/-! ## A new lease -/

variable {f : QueueEntry → QueueEntry}

theorem mem_changeEntry (h : Recorded F clock s) (he' : e' ∈ (changeEntry s id f).entries) :
    (e' ∈ s.entries ∧ e'.sessionId ≠ id) ∨ ∃ e ∈ s.entries, e.sessionId = id ∧ e' = f e :=
  mem_modifyFirst_key h.sessions he'

theorem mem_changeEntry_of (h : Recorded F clock s) (he : e ∈ s.entries) :
    f e ∈ (changeEntry s e.sessionId f).entries :=
  mem_modifyFirst_of_find? (h.entry? he)

/-- The entries of all other sessions stay. -/
theorem mem_changeEntry_other (he : e ∈ s.entries) (hne : e.sessionId ≠ id) :
    e ∈ (changeEntry s id f).entries :=
  mem_modifyFirst_other he (decide_eq_false hne)

theorem Recorded.session_of_entryId (h : Recorded F clock s) (hF : Faithful F) (he : e ∈ s.entries)
    (he' : e' ∈ s.entries) (hid : e.queueEntryId = e'.queueEntryId) : e = e' := by
  obtain ⟨path, hpath⟩ := h.entryIds e he
  obtain ⟨path', hpath'⟩ := h.entryIds e' he'
  have hsame : queueEntryIdOf F e.sessionId path = queueEntryIdOf F e'.sessionId path' := by
    rw [← hpath, ← hpath', hid]
  exact eq_of_key h.sessions he he' (hF.entry (String.append_right_inj _ |>.mp hsame))

/-- The id of a new lease is none of those before. -/
theorem newLease_fresh (h : Recorded F clock s) (hF : Faithful F) (he : e ∈ s.entries)
    (owner : String) (lifetime : ℕ) (now : Instant) :
    (newLease F s e owner lifetime now).leaseId ∉ s.leases.map SessionLease.leaseId := by
  intro hmem
  obtain ⟨l, hl, hsame⟩ := List.mem_map.mp hmem
  rw [h.identified l hl] at hsame
  have hidentity := hF.lease (String.append_right_inj _ |>.mp hsame)
  have hattempt : l.attemptNumber = e.attemptCount + 1 := congrArg LeaseIdentity.attempt hidentity
  have hentryId : l.queueEntryId = e.queueEntryId := congrArg LeaseIdentity.queueEntryId hidentity
  obtain ⟨e', he', -, hid, hcount⟩ := h.counted l hl
  obtain rfl : e' = e := h.session_of_entryId hF he' he (hid.trans hentryId)
  omega

theorem recorded_grant (h : Recorded F clock s) (hF : Faithful F) (he : e ∈ s.entries)
    (hfree : e.leaseStatus ≠ .active) (owner : String) (lifetime : ℕ) :
    Recorded F clock (grant F s (newLease F s e owner lifetime now)) := by
  have hfresh := newLease_fresh h hF he owner lifetime now
  have hentries : ∀ e' ∈ (changeEntry s e.sessionId (leasedEntry (newLease F s e owner lifetime
      now))).entries, (e' ∈ s.entries ∧ e'.sessionId ≠ e.sessionId) ∨
        e' = leasedEntry (newLease F s e owner lifetime now) e := by
    intro e' he'
    rcases mem_changeEntry h he' with hold | ⟨e₀, he₀, hid, rfl⟩
    · exact .inl hold
    · exact .inr (congrArg _ (eq_of_key h.sessions he₀ he hid))
  have hleased := mem_changeEntry_of (f := leasedEntry (newLease F s e owner lifetime now)) h he
  refine recorded_keeps (le_refl clock) ?_ (keeps_seal _)
  generalize hl : newLease F s e owner lifetime now = l at hfresh hentries hleased
  have hlease : l.sessionId = e.sessionId ∧ l.queueEntryId = e.queueEntryId ∧
      l.attemptNumber = e.attemptCount + 1 := by
    rw [← hl]
    exact ⟨rfl, rfl, rfl⟩
  obtain ⟨hsession, hentry, hattempt⟩ := hlease
  rw [← hsession] at hentries hleased
  have hheld : Held l (leasedEntry l e) := ⟨hsession.symm, rfl, rfl, rfl, rfl⟩
  refine ⟨h.contract, h.version, ?_, ?_, ?_, ?_, ?_, ?_, ?_, ?_, ?_, ?_⟩
  · change ((modifyFirst _ (leasedEntry l) s.entries).map QueueEntry.sequenceNumber).Nodup
    rw [map_modifyFirst (f := leasedEntry l) fun _ => rfl]
    exact h.sequences
  · change ((modifyFirst _ (leasedEntry l) s.entries).map QueueEntry.sessionId).Nodup
    rw [map_modifyFirst (f := leasedEntry l) fun _ => rfl]
    exact h.sessions
  · rw [List.map_append, List.map_singleton]
    refine List.nodup_append.mpr ⟨h.leaseIds, List.nodup_singleton _, fun a ha b hb => ?_⟩
    rintro rfl
    exact hfresh (List.mem_singleton.mp hb ▸ ha)
  · intro e' he'
    rcases hentries e' he' with ⟨hold, -⟩ | rfl
    · exact h.entryIds e' hold
    · exact h.entryIds e he
  · intro l' hl'
    rcases List.mem_append.mp hl' with hold | hnew
    · exact h.identified l' hold
    · rw [List.mem_singleton.mp hnew, ← hl]
      rfl
  · intro l' hl'
    rcases List.mem_append.mp hl' with hold | hnew
    · exact h.scheduler l' hold
    · rw [List.mem_singleton.mp hnew, ← hl]
      rfl
  · intro l' hl'
    rcases List.mem_append.mp hl' with hold | hnew
    · obtain ⟨e', he', hsession', hentry', hcount⟩ := h.counted l' hold
      by_cases hsame : e'.sessionId = e.sessionId
      · obtain rfl := eq_of_key h.sessions he' he hsame
        refine ⟨leasedEntry l e', hleased, hsession', hentry', ?_⟩
        change l'.attemptNumber ≤ l.attemptNumber
        omega
      · exact ⟨e', mem_changeEntry_other he' (hsession ▸ hsame), hsession', hentry', hcount⟩
    · rw [List.mem_singleton.mp hnew]
      exact ⟨leasedEntry l e, hleased, hsession.symm, hentry.symm, le_refl _⟩
  · intro l' hl' hactive
    rcases List.mem_append.mp hl' with hold | hnew
    · rcases h.current l' hold hactive with ⟨e', he', hheld'⟩ | hreached
      · by_cases hsame : e'.sessionId = e.sessionId
        · obtain rfl := eq_of_key h.sessions he' he hsame
          exact absurd hheld'.status hfree
        · exact .inl ⟨e', mem_changeEntry_other he' (hsession ▸ hsame), hheld'⟩
      · exact .inr hreached
    · rw [List.mem_singleton.mp hnew]
      exact .inl ⟨leasedEntry l e, hleased, hheld⟩
  · intro e' he' hactive
    rcases hentries e' he' with ⟨hold, -⟩ | rfl
    · obtain ⟨l', hl', hheld'⟩ := h.active e' hold hactive
      exact ⟨l', List.mem_append_left _ hl', hheld'⟩
    · exact ⟨l, List.mem_append_right _ (List.mem_singleton.mpr rfl), hheld⟩
  · intro e' he' hidle
    rcases hentries e' he' with ⟨hold, -⟩ | rfl
    · exact h.idle e' hold hidle
    · exact absurd rfl hidle

/-! ## The end of a lease -/

/-- The lease is on its entry, and can be given back. -/
theorem release_of_held (h : Shaped s) (hl : l ∈ s.leases) (he : e ∈ s.entries) (hheld : Held l e) :
    ∃ s', releaseSessionLease F s l.leaseId l.leaseOwner l.sessionId now = .ok s' := by
  have hentry : entryOf s l.sessionId = .ok e := by
    unfold entryOf
    rw [← hheld.session, h.entry? he]
  -- The list may have more leases of this id, all of this scheduler.
  obtain ⟨l', hlease, hscheduler⟩ : ∃ l', lease? s l.leaseId = some l' ∧
      l'.schedulerId = s.schedulerId := by
    cases hfound : lease? s l.leaseId with
    | none =>
      exact absurd (decide_eq_true rfl) (List.find?_eq_none.mp hfound l hl)
    | some l' => exact ⟨l', rfl, h.scheduler l' (List.mem_of_find?_eq_some hfound)⟩
  unfold releaseSessionLease
  rw [hentry]
  change ∃ s', (if e.leaseStatus ≠ .active ∨ e.leaseId ≠ l.leaseId then _
    else if e.leaseOwner ≠ l.leaseOwner then _
    else if (lease? s l.leaseId).all (fun x => x.schedulerId ≠ s.schedulerId) = true then _
    else _) = _
  rw [if_neg (not_or.mpr ⟨not_not.mpr hheld.status, not_not.mpr hheld.lease⟩),
    if_neg (not_not.mpr hheld.owner), hlease, Option.all_some, hscheduler]
  simp only [ne_eq, not_true_eq_false, decide_false, Bool.false_eq_true, if_false]
  exact ⟨_, rfl⟩

/-- What a release gives back is the lease on the entry. -/
theorem release_ok {leaseId owner sessionId : String}
    (hs : releaseSessionLease F s leaseId owner sessionId now = .ok s') :
    ∃ e, entry? s sessionId = some e ∧ e.leaseStatus = .active ∧ e.leaseId = leaseId ∧
      e.leaseOwner = owner ∧
      s' = rebuildWaitingProjection F
        { changeEntry s sessionId (unleased .released) with
          leases := modifyFirst (fun l => l.leaseId = leaseId) (releasedLease now) s.leases
          schedulerStatus := .idle } now := by
  obtain ⟨e, hentry, hrest⟩ := bind_eq_ok.mp hs
  unfold entryOf at hentry
  split at hentry
  case h_2 => cases hentry
  rename_i he
  cases hentry
  split at hrest
  · cases hrest
  rename_i hlease
  obtain ⟨hactive, hid⟩ := not_or.mp hlease
  split at hrest
  · cases hrest
  rename_i howner
  split at hrest
  · cases hrest
  cases hrest
  exact ⟨e, he, not_not.mp hactive, not_not.mp hid, not_not.mp howner, rfl⟩

theorem recorded_release {leaseId owner sessionId : String} (h : Recorded F clock s)
    (hs : releaseSessionLease F s leaseId owner sessionId now = .ok s') : Recorded F clock s' := by
  obtain ⟨e, hentry, hactive, hid, -, rfl⟩ := release_ok hs
  obtain ⟨he, rfl⟩ := entry?_some hentry
  obtain ⟨l, hl, hheld⟩ := h.active e he hactive
  obtain rfl : leaseId = l.leaseId := hid.symm.trans hheld.lease
  have hentries : ∀ e' ∈ (changeEntry s e.sessionId (unleased .released)).entries,
      (e' ∈ s.entries ∧ e'.sessionId ≠ e.sessionId) ∨ e' = unleased .released e := by
    intro e' he'
    rcases mem_changeEntry h he' with hold | ⟨e₀, he₀, hid₀, rfl⟩
    · exact .inl hold
    · exact .inr (congrArg _ (eq_of_key h.sessions he₀ he hid₀))
  have hleases : ∀ l' ∈ modifyFirst (fun x => x.leaseId = l.leaseId) (releasedLease now) s.leases,
      (l' ∈ s.leases ∧ l'.leaseId ≠ l.leaseId) ∨ l' = releasedLease now l := by
    intro l' hl'
    rcases mem_modifyFirst_key h.leaseIds hl' with hold | ⟨l₀, hl₀, hid₀, rfl⟩
    · exact .inl hold
    · exact .inr (congrArg _ (eq_of_key h.leaseIds hl₀ hl hid₀))
  have hreleased : unleased .released e ∈
      (changeEntry s e.sessionId (unleased .released)).entries := mem_changeEntry_of h he
  -- Every other lease is still where it was, and on the entry it was on.
  have hother : ∀ l' ∈ s.leases, l'.leaseId ≠ l.leaseId → ∀ e' ∈ s.entries, Held l' e' →
      e' ∈ (changeEntry s e.sessionId (unleased .released)).entries := by
    intro l' _ hne e' he' hheld'
    refine mem_changeEntry_other he' fun hsame => hne ?_
    obtain rfl := eq_of_key h.sessions he' he hsame
    rw [← hheld'.lease, hheld.lease]
  refine recorded_keeps (le_refl clock) ?_ (keeps_rebuild _ now)
  refine ⟨h.contract, h.version, ?_, ?_, ?_, ?_, ?_, ?_, ?_, ?_, ?_, ?_⟩
  · change ((modifyFirst _ _ s.entries).map QueueEntry.sequenceNumber).Nodup
    rw [map_modifyFirst (f := unleased .released) fun _ => rfl]
    exact h.sequences
  · change ((modifyFirst _ _ s.entries).map QueueEntry.sessionId).Nodup
    rw [map_modifyFirst (f := unleased .released) fun _ => rfl]
    exact h.sessions
  · change ((modifyFirst _ _ s.leases).map SessionLease.leaseId).Nodup
    rw [map_modifyFirst (f := releasedLease now) fun _ => rfl]
    exact h.leaseIds
  · intro e' he'
    rcases hentries e' he' with ⟨hold, -⟩ | rfl
    · exact h.entryIds e' hold
    · exact h.entryIds e he
  · intro l' hl'
    rcases hleases l' hl' with ⟨hold, -⟩ | rfl
    · exact h.identified l' hold
    · exact h.identified l hl
  · intro l' hl'
    rcases hleases l' hl' with ⟨hold, -⟩ | rfl
    · exact h.scheduler l' hold
    · exact h.scheduler l hl
  · have hcounted : ∀ l' ∈ s.leases,
        ∃ e' ∈ (changeEntry s e.sessionId (unleased .released)).entries,
          e'.sessionId = l'.sessionId ∧ e'.queueEntryId = l'.queueEntryId ∧
            l'.attemptNumber ≤ e'.attemptCount := by
      intro l' hl'
      obtain ⟨e', he', hsession, hentryId, hcount⟩ := h.counted l' hl'
      by_cases hsame : e'.sessionId = e.sessionId
      · obtain rfl := eq_of_key h.sessions he' he hsame
        exact ⟨unleased .released e', hreleased, hsession, hentryId, hcount⟩
      · exact ⟨e', mem_changeEntry_other he' hsame, hsession, hentryId, hcount⟩
    intro l' hl'
    rcases hleases l' hl' with ⟨hold, -⟩ | rfl
    · exact hcounted l' hold
    · exact hcounted l hl
  · intro l' hl' hactive'
    rcases hleases l' hl' with ⟨hold, hne⟩ | rfl
    · rcases h.current l' hold hactive' with ⟨e', he', hheld'⟩ | hreached
      · exact .inl ⟨e', hother l' hold hne e' he' hheld', hheld'⟩
      · exact .inr hreached
    · cases hactive'
  · intro e' he' hactive'
    rcases hentries e' he' with ⟨hold, hne⟩ | rfl
    · obtain ⟨l', hl', hheld'⟩ := h.active e' hold hactive'
      refine ⟨l', mem_modifyFirst_other hl' (decide_eq_false fun hsame => hne ?_), hheld'⟩
      obtain rfl := eq_of_key h.leaseIds hl' hl hsame
      rw [hheld'.session, hheld.session]
    · cases hactive'
  · intro e' he' hidle
    rcases hentries e' he' with ⟨hold, -⟩ | rfl
    · exact h.idle e' hold hidle
    · rfl

end SessionScheduler
end ZeroRuntime
