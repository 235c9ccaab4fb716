import ZeroRuntime.Lease.Registry

/-!
# ZeroRuntime.Lease.Exclusion

Mutual exclusion of session leases.

`Tracked` is the invariant of the two tables: a lease is filed under the id computed from it, and an
active lease is the one its session's record names. With `strict` the two name the same owner, which
`register_session` breaks when it rewrites the owner of a session that holds an active lease.

* `tracked_call`: every call keeps `Tracked`; the strict form needs `KeepsOwner`.
* `guarded_mutualExclusion`: at most one active lease a session, the one its record names, and of
  its owner.
* `registration_changes_owner`: the rewritten owner.

Nothing is assumed of `fingerprint`: two leases that collide replace one another, and the session
of the replaced one has no active lease left.
-/

namespace ZeroRuntime
namespace Lease
namespace RuntimeSessionLeaseRegistry

open Lib

variable {fingerprint : String → String → ℕ+ → String}

structure Tracked (fingerprint : String → String → ℕ+ → String) (strict : Prop)
    (r : RuntimeSessionLeaseRegistry) : Prop where
  filed : ∀ id l, r.leases.get? id = some l →
    l.leaseId = id ∧ id = leaseIdOf fingerprint l.sessionId l.ownerId l.generation
  named : ∀ id l, r.leases.get? id = some l → l.status = .active →
    ∃ s, r.sessions.get? l.sessionId = some s ∧ s.leaseId = id ∧
      (strict → s.ownerId = l.ownerId)

/-- The active leases of the session are filed under `leaseId`. -/
def OnlyUnder (r : RuntimeSessionLeaseRegistry) (sessionId leaseId : String) : Prop :=
  ∀ id l, r.leases.get? id = some l → l.status = .active → l.sessionId = sessionId → id = leaseId

theorem leaseIdOf_ne_empty (sessionId ownerId : String) (generation : ℕ+) :
    leaseIdOf fingerprint sessionId ownerId generation ≠ "" := by
  intro h
  have hpre : "runtime-session-lease-" = "" := (String.append_eq_empty_iff.mp h).1
  exact absurd hpre (by decide)

section Primitives

variable {strict : Prop} {r : RuntimeSessionLeaseRegistry}

theorem tracked_init (defaultTtlTicks zombieAfterTicks : ℤ) :
    Tracked fingerprint strict (init defaultTtlTicks zombieAfterTicks) := by
  constructor
  · intro id l h
    cases h
  · intro id l h
    cases h

variable {id : String}

/-- A session record may change in everything but its lease and its owner. -/
theorem Tracked.putSession (h : Tracked fingerprint strict r) {s' : RuntimeSessionRecord}
    (hs : ∀ s, r.sessions.get? id = some s →
      s'.leaseId = s.leaseId ∧ (strict → ∀ l, r.leases.get? s.leaseId = some l →
        l.status = .active → s.ownerId = l.ownerId → s'.ownerId = l.ownerId)) :
    Tracked fingerprint strict (r.putSession id s') := by
  constructor
  · exact h.filed
  · intro lid l hl hact
    obtain ⟨s, hsl, hid, hown⟩ := h.named lid l hl hact
    by_cases hk : l.sessionId = id
    · obtain ⟨hlease, howner⟩ := hs s (hk ▸ hsl)
      refine ⟨s', by simp [RuntimeSessionLeaseRegistry.putSession, hk], hlease.trans hid, ?_⟩
      intro hstrict
      exact howner hstrict l (hid ▸ hl) hact (hown hstrict)
    · exact ⟨s, by simpa [RuntimeSessionLeaseRegistry.putSession, hk] using hsl, hid, hown⟩

/-- Storing a session record that differs only in its status and ticks. -/
theorem Tracked.touchSession (h : Tracked fingerprint strict r) {s s' : RuntimeSessionRecord}
    (hs : r.sessions.get? id = some s) (hlease : s'.leaseId = s.leaseId)
    (howner : s'.ownerId = s.ownerId) : Tracked fingerprint strict (r.putSession id s') := by
  refine h.putSession fun t ht => ?_
  rw [hs] at ht
  cases ht
  exact ⟨hlease, fun _ l _ _ hown => howner.trans hown⟩

variable {l : RuntimeSessionLease}

variable {status : LeaseStatus}

theorem Tracked.endLease (h : Tracked fingerprint strict r) (hl : r.leases.get? id = some l)
    (hst : status ≠ .active) :
    Tracked fingerprint strict (r.putLease id { l with status := status }) := by
  constructor
  · intro id' l' hl'
    by_cases hk : id' = id
    · subst hk
      obtain rfl : _ = l' := by simpa [putLease] using hl'
      exact h.filed id' l hl
    · exact h.filed id' l' (by simpa [putLease, hk] using hl')
  · intro id' l' hl' hact
    by_cases hk : id' = id
    · subst hk
      obtain rfl : _ = l' := by simpa [putLease] using hl'
      exact absurd hact hst
    · exact h.named id' l' (by simpa [putLease, hk] using hl') hact

theorem OnlyUnder.endLease {sessionId leaseId : String} (h : OnlyUnder r sessionId leaseId)
    (hst : status ≠ .active) :
    OnlyUnder (r.putLease id { l with status := status }) sessionId leaseId := by
  intro id' l' hl' hact hsid
  by_cases hk : id' = id
  · obtain rfl : _ = l' := by simpa [putLease, hk] using hl'
    exact absurd hact hst
  · exact h id' l' (by simpa [putLease, hk] using hl') hact hsid

theorem Tracked.markSessionExpired (h : Tracked fingerprint strict r) (sessionId : String)
    (currentTick : ℤ) :
    Tracked fingerprint strict (r.markSessionExpired sessionId currentTick).2 := by
  unfold RuntimeSessionLeaseRegistry.markSessionExpired
  split
  · exact h
  · rename_i s hs
    exact h.touchSession hs rfl rfl

theorem markSessionExpired_leases (sessionId : String) (currentTick : ℤ) :
    (r.markSessionExpired sessionId currentTick).2.leases = r.leases := by
  unfold markSessionExpired
  split <;> rfl

theorem Tracked.expire (h : Tracked fingerprint strict r) (hl : r.leases.get? id = some l)
    (sessionId : String) (currentTick : ℤ) :
    Tracked fingerprint strict (r.expire l sessionId currentTick).2 := by
  obtain rfl := (h.filed id l hl).1
  exact (h.endLease hl (by decide : LeaseStatus.expired ≠ .active)).markSessionExpired sessionId
    currentTick

end Primitives

/-! ## Acquiring -/

section Acquire

variable {strict : Prop} {r : RuntimeSessionLeaseRegistry}

variable {sessionId : String} {l : RuntimeSessionLease}

theorem recordedLease_eq_some (h : r.recordedLease sessionId = some l) :
    ∃ s, r.sessions.get? sessionId = some s ∧ r.leases.get? s.leaseId = some l ∧
      l.status = .active := by
  unfold recordedLease at h
  obtain ⟨s, hs, h⟩ := Option.bind_eq_some_iff.mp h
  split at h
  · cases h
  · obtain ⟨l', hl', h⟩ := Option.bind_eq_some_iff.mp h
    split at h
    · rename_i hact
      cases h
      exact ⟨s, hs, hl', hact⟩
    · cases h

/-- A session whose record names no active lease has none. -/
theorem Tracked.onlyUnder_none (h : Tracked fingerprint strict r)
    (hn : r.recordedLease sessionId = none) (leaseId : String) : OnlyUnder r sessionId leaseId := by
  intro id l hl hact hsid
  obtain ⟨s, hs, hid, -⟩ := h.named id l hl hact
  have hne : id ≠ "" := by
    rw [(h.filed id l hl).2]
    exact leaseIdOf_ne_empty _ _ _
  have : r.recordedLease sessionId = some l := by
    unfold recordedLease
    rw [← hsid, hs]
    simp [hid, hne, hl, hact]
  rw [this] at hn
  cases hn

theorem Tracked.onlyUnder_some (h : Tracked fingerprint strict r)
    (hn : r.recordedLease sessionId = some l) :
    r.leases.get? l.leaseId = some l ∧ l.status = .active ∧
      OnlyUnder r sessionId l.leaseId := by
  obtain ⟨s, hs, hl, hact⟩ := recordedLease_eq_some hn
  have hid : l.leaseId = s.leaseId := (h.filed s.leaseId l hl).1
  refine ⟨hid ▸ hl, hact, ?_⟩
  intro id l' hl' hact' hsid
  obtain ⟨s', hs', hid', -⟩ := h.named id l' hl' hact'
  rw [hsid, hs] at hs'
  cases hs'
  exact hid'.symm.trans hid.symm

/-- What `_active_lease_for_session` leaves: no lease active but the one it returns. -/
theorem Tracked.activeLease (h : Tracked fingerprint strict r) (sessionId : String)
    (currentTick : ℤ) :
    Tracked fingerprint strict (r.activeLeaseForSession sessionId currentTick).2 ∧
    ((r.activeLeaseForSession sessionId currentTick).1 = .ok none →
      ∀ leaseId, OnlyUnder (r.activeLeaseForSession sessionId currentTick).2 sessionId leaseId) ∧
    ∀ l, (r.activeLeaseForSession sessionId currentTick).1 = .ok (some l) →
      (r.activeLeaseForSession sessionId currentTick).2.leases.get? l.leaseId = some l ∧
      OnlyUnder (r.activeLeaseForSession sessionId currentTick).2 sessionId l.leaseId := by
  unfold activeLeaseForSession
  cases hr : r.recordedLease sessionId with
  | none => exact ⟨h, fun _ => h.onlyUnder_none hr, fun l hl => by cases hl⟩
  | some l =>
    obtain ⟨hl, hact, honly⟩ := h.onlyUnder_some hr
    simp only
    split
    · refine ⟨h.expire hl sessionId currentTick, fun _ leaseId id l' hl' hact' hsid => ?_, ?_⟩
      · -- the only active lease has just been marked
        have hend : OnlyUnder (r.putLease l.leaseId { l with status := .expired }) sessionId
          l.leaseId := honly.endLease (by decide)
        rw [RuntimeSessionLeaseRegistry.expire, markSessionExpired_leases] at hl'
        have hid := hend id l' hl' hact' hsid
        obtain rfl : _ = l' := by simpa [putLease, hid] using hl'
        cases hact'
      · intro l' hl'
        cases he : (r.expire l sessionId currentTick).1 with
        | error e => rw [he] at hl'; cases hl'
        | ok s => rw [he] at hl'; cases hl'
    · refine ⟨h, fun hnone => (by cases hnone), fun l' hl' => ?_⟩
      cases hl'
      exact ⟨hl, honly⟩

theorem Tracked.transfer (h : Tracked fingerprint strict r) {current : Option RuntimeSessionLease}
    (hc : ∀ c ∈ current, r.leases.get? c.leaseId = some c) (ownerId : String) :
    Tracked fingerprint strict (r.transfer current ownerId) := by
  unfold RuntimeSessionLeaseRegistry.transfer
  cases current with
  | none => exact h
  | some c =>
    simp only
    split
    · exact h
    · exact h.endLease (hc c rfl) (by decide)

theorem Tracked.grant (h : Tracked fingerprint strict r) {lease : RuntimeSessionLease}
    {currentTick : ℤ}
    (hid : lease.leaseId =
      leaseIdOf fingerprint lease.sessionId lease.ownerId lease.generation)
    (hs : ∃ s, r.sessions.get? lease.sessionId = some s)
    (honly : OnlyUnder r lease.sessionId lease.leaseId) :
    Tracked fingerprint strict (r.grant lease currentTick).2 := by
  obtain ⟨s, hs⟩ := hs
  unfold RuntimeSessionLeaseRegistry.grant
  simp only [putLease, hs]
  constructor
  · intro id l hl
    by_cases hk : id = lease.leaseId
    · obtain rfl : lease = l := by simpa [RuntimeSessionLeaseRegistry.putSession, hk] using hl
      exact ⟨hk.symm, hk.trans hid⟩
    · exact h.filed id l (by simpa [RuntimeSessionLeaseRegistry.putSession, hk] using hl)
  · intro id l hl hact
    by_cases hk : id = lease.leaseId
    · obtain rfl : lease = l := by simpa [RuntimeSessionLeaseRegistry.putSession, hk] using hl
      exact ⟨_, by simp [RuntimeSessionLeaseRegistry.putSession]; rfl, hk.symm, fun _ => rfl⟩
    · have hl' : r.leases.get? id = some l := by
        simpa [RuntimeSessionLeaseRegistry.putSession, hk] using hl
      have hsid : l.sessionId ≠ lease.sessionId := fun he => hk (honly id l hl' hact he)
      obtain ⟨t, ht, hrest⟩ := h.named id l hl' hact
      exact ⟨t, by simpa [RuntimeSessionLeaseRegistry.putSession, hsid] using ht, hrest⟩

end Acquire

/-! ## Every call -/

section Calls

variable {strict : Prop} {r : RuntimeSessionLeaseRegistry}

/-- What `register_session` may do to a session that holds an active lease: name its owner, or
none. -/
def OwnerKept (r : RuntimeSessionLeaseRegistry) (sessionId ownerId : String) : Prop :=
  ∀ s ∈ r.sessions.get? sessionId, ∀ l ∈ r.leases.get? s.leaseId, l.status = .active →
    ownerId = "" ∨ ownerId = l.ownerId

instance (r : RuntimeSessionLeaseRegistry) (sessionId ownerId : String) :
    Decidable (OwnerKept r sessionId ownerId) :=
  inferInstanceAs (Decidable (∀ s ∈ r.sessions.get? sessionId, ∀ l ∈ _, _ → _))

variable {sessionId : String}

variable {ownerId : String} {currentTick : ℤ} {metadata : Entries}

theorem Tracked.storeSession (h : Tracked fingerprint strict r) {taskId : String}
    {payload : Entries} (hk : strict → OwnerKept r sessionId ownerId) :
    Tracked fingerprint strict
      (r.storeSession sessionId taskId ownerId currentTick payload metadata) := by
  refine h.putSession fun s hs => ?_
  rw [hs]
  refine ⟨rfl, fun hstrict l hl hact hown => ?_⟩
  simp only [registered]
  split
  · rename_i hne
    exact (hk hstrict s hs l hl hact).resolve_left hne
  · exact hown

theorem ownerKept_new (hnew : r.sessions.contains sessionId = false) (ownerId : String) :
    OwnerKept r sessionId ownerId := by
  intro s hs
  have hnone : r.sessions.get? sessionId = none := by simpa [Dict.contains] using hnew
  rw [hnone] at hs
  cases hs

/-- The opening of `acquire_lease` and `takeover_session`: an unknown session is registered. -/
theorem Tracked.ensureSession (h : Tracked fingerprint strict r) (sessionId ownerId : String)
    (currentTick : ℤ) :
    Tracked fingerprint strict (if r.sessions.contains sessionId then r
      else r.storeSession sessionId "" ownerId currentTick [] []) := by
  split
  · exact h
  · rename_i hnew
    exact h.storeSession fun _ => ownerKept_new (by simpa using hnew) ownerId

theorem ensureSession_stored (sessionId ownerId : String) (currentTick : ℤ) :
    ∃ s, (if r.sessions.contains sessionId then r
      else r.storeSession sessionId "" ownerId currentTick [] []).sessions.get? sessionId =
        some s := by
  split
  · rename_i hc
    exact Dict.contains_iff.mp hc
  · exact ⟨_, by simp [RuntimeSessionLeaseRegistry.storeSession,
      RuntimeSessionLeaseRegistry.putSession]; rfl⟩

theorem activeLease_stored (currentTick : ℤ) (hs : ∃ s, r.sessions.get? sessionId = some s) :
    ∃ s, (r.activeLeaseForSession sessionId currentTick).2.sessions.get? sessionId = some s := by
  obtain ⟨s, hs⟩ := hs
  unfold activeLeaseForSession
  split
  · exact ⟨s, hs⟩
  · split
    · have hs' : ∀ l, (r.putLease l.leaseId l).sessions.get? sessionId = some s := fun _ => hs
      simp only [RuntimeSessionLeaseRegistry.expire, RuntimeSessionLeaseRegistry.markSessionExpired,
        putLease, hs]
      exact ⟨_, by simp [RuntimeSessionLeaseRegistry.putSession]; rfl⟩
    · exact ⟨s, hs⟩

theorem transfer_sessions (current : Option RuntimeSessionLease) (ownerId : String) :
    (r.transfer current ownerId).sessions = r.sessions := by
  unfold transfer
  split
  · rfl
  · split <;> rfl

/-- Once another owner's lease is transferred, nothing but the new lease's id can hold an active
lease of the session. -/
theorem Tracked.onlyUnder_granted (h : Tracked fingerprint strict r)
    {current : Option RuntimeSessionLease} {ttlTicks : Option ℤ}
    (hnone : current = none → ∀ leaseId, OnlyUnder r sessionId leaseId)
    (hsome : ∀ c, current = some c →
      r.leases.get? c.leaseId = some c ∧ OnlyUnder r sessionId c.leaseId) :
    OnlyUnder (r.transfer current ownerId) sessionId
      (r.grantedLease fingerprint current sessionId ownerId currentTick ttlTicks
        metadata).leaseId := by
  cases current with
  | none => exact hnone rfl _
  | some c =>
    obtain ⟨hc, honly⟩ := hsome c rfl
    intro id l hl hact hsid
    simp only [RuntimeSessionLeaseRegistry.transfer] at hl
    split at hl
    · rename_i hown
      obtain rfl := honly id l hl hact hsid
      rw [hc] at hl
      cases hl
      simp only [grantedLease, hown, if_true]
      rw [(h.filed c.leaseId c hc).2, hsid, hown]
    · have hid := honly.endLease (by decide) id l hl hact hsid
      obtain rfl : _ = l := by simpa [putLease, hid] using hl
      cases hact

theorem Tracked.acquire (h : Tracked fingerprint strict r) (sessionId ownerId : String)
    (currentTick : ℤ) (ttlTicks : Option ℤ) (force : Bool) (metadata : Entries) :
    Tracked fingerprint strict
      (r.acquire fingerprint sessionId ownerId currentTick ttlTicks force metadata).2 := by
  unfold RuntimeSessionLeaseRegistry.acquire
  have h₁ := h.ensureSession sessionId ownerId currentTick
  have hs₁ := ensureSession_stored (r := r) sessionId ownerId currentTick
  generalize (if r.sessions.contains sessionId then r
    else r.storeSession sessionId "" ownerId currentTick [] []) = r₁ at h₁ hs₁
  obtain ⟨h₂, hnone, hsome⟩ := h₁.activeLease sessionId currentTick
  have hs₂ := activeLease_stored currentTick hs₁
  simp only
  split
  · rename_i he
    rw [he] at h₂
    exact h₂
  · rename_i current r₂ he
    rw [he] at h₂ hnone hsome hs₂
    split
    · exact h₂
    · have h₃ := h₂.transfer (fun c hc => (hsome c (congrArg Except.ok hc)).1) ownerId
      refine h₃.grant rfl ?_ ?_
      · rw [transfer_sessions]
        exact hs₂
      · exact h₂.onlyUnder_granted (fun hc => hnone (congrArg Except.ok hc))
          (fun c hc => hsome c (congrArg Except.ok hc))

theorem Tracked.acquireLease (h : Tracked fingerprint strict r) (sessionId ownerId : String)
    (currentTick : ℤ) (ttlTicks : Option ℤ) (force : Bool) (metadata : Entries) :
    Tracked fingerprint strict
      (r.acquireLease fingerprint sessionId ownerId currentTick ttlTicks force metadata).2 := by
  unfold RuntimeSessionLeaseRegistry.acquireLease
  split
  · exact h
  · exact h
  · exact h.acquire _ _ currentTick ttlTicks force metadata

theorem Tracked.takeoverSession (h : Tracked fingerprint strict r)
    (sessionId newOwnerId : String) (currentTick : ℤ) (reason : String) (ttlTicks : Option ℤ) :
    Tracked fingerprint strict
      (r.takeoverSession fingerprint sessionId newOwnerId currentTick reason ttlTicks).2 := by
  unfold RuntimeSessionLeaseRegistry.takeoverSession
  split
  · exact h
  · exact h
  · rename_i sid owner _ _
    have hacq := (h.ensureSession sid "" currentTick).acquireLease sid owner currentTick ttlTicks
      true [("takeover_reason", .str reason)]
    unfold takeover
    simp only
    split
    · rename_i he
      rw [he] at hacq
      exact hacq
    · rename_i he
      rw [he] at hacq
      split
      · exact hacq
      · rename_i s hs
        exact hacq.touchSession hs rfl rfl

/-- A renewal: the lease and the session that names it, rewritten together. -/
theorem Tracked.putRenewed (h : Tracked fingerprint strict r) {id : String}
    {l l' : RuntimeSessionLease} {s' : RuntimeSessionRecord} (hl : r.leases.get? id = some l)
    (hact : l.status = .active)
    (hsame : l'.leaseId = l.leaseId ∧ l'.sessionId = l.sessionId ∧ l'.ownerId = l.ownerId ∧
      l'.generation = l.generation)
    (hlease : s'.leaseId = id) (howner : s'.ownerId = l.ownerId) :
    Tracked fingerprint strict ((r.putLease id l').putSession l.sessionId s') := by
  obtain ⟨hid, hsid, hown, hgen⟩ := hsame
  have hold : ∀ id' k, ((r.putLease id l').putSession l.sessionId s').leases.get? id' = some k →
      id' ≠ id → r.leases.get? id' = some k := by
    intro id' k hk hne
    simpa [RuntimeSessionLeaseRegistry.putSession, putLease, hne] using hk
  constructor
  · intro id' k hk
    by_cases he : id' = id
    · subst he
      obtain rfl : l' = k := by
        simpa [RuntimeSessionLeaseRegistry.putSession, putLease] using hk
      rw [hid, hsid, hown, hgen]
      exact h.filed id' l hl
    · exact h.filed id' k (hold id' k hk he)
  · intro id' k hk hkact
    by_cases he : id' = id
    · subst he
      obtain rfl : l' = k := by
        simpa [RuntimeSessionLeaseRegistry.putSession, putLease] using hk
      refine ⟨s', by simp [RuntimeSessionLeaseRegistry.putSession, hsid], hlease, fun _ => ?_⟩
      rw [howner, hown]
    · obtain ⟨t, ht, htid, htown⟩ := h.named id' k (hold id' k hk he) hkact
      have hne : k.sessionId ≠ l.sessionId := by
        intro hks
        obtain ⟨u, hu, huid, -⟩ := h.named id l hl hact
        rw [hks, hu] at ht
        cases ht
        exact he (htid.symm.trans huid)
      exact ⟨t, by simpa [RuntimeSessionLeaseRegistry.putSession, putLease, hne] using ht, htid,
        htown⟩

theorem Tracked.renew (h : Tracked fingerprint strict r) (leaseId ownerId : String)
    (currentTick : ℤ) (ttlTicks : Option ℤ) (heartbeat : Bool) :
    Tracked fingerprint strict (r.renew leaseId ownerId currentTick ttlTicks heartbeat).2 := by
  unfold RuntimeSessionLeaseRegistry.renew
  cases hl : r.leases.get? leaseId with
  | none => exact h
  | some l =>
    simp only
    split
    · exact h
    · rename_i hown
      split
      · exact h
      · rename_i hact
        rw [ne_eq, not_not] at hown hact
        obtain ⟨s, hs, hid, -⟩ := h.named leaseId l hl hact
        split
        · have he := (h.endLease hl (by decide : LeaseStatus.expired ≠ .active)).markSessionExpired
            l.sessionId currentTick
          split
          · rename_i hm; rw [hm] at he; exact he
          · rename_i hm; rw [hm] at he; exact he
        · simp only [putLease, hs]
          exact h.putRenewed hl hact ⟨rfl, rfl, rfl, rfl⟩ rfl hown.symm

theorem Tracked.renewLease (h : Tracked fingerprint strict r) (leaseId ownerId : String)
    (currentTick : ℤ) (ttlTicks : Option ℤ) (heartbeat : Bool) :
    Tracked fingerprint strict
      (r.renewLease leaseId ownerId currentTick ttlTicks heartbeat).2 := by
  unfold RuntimeSessionLeaseRegistry.renewLease
  split
  · exact h
  · exact h
  · exact h.renew _ _ currentTick ttlTicks heartbeat

theorem Tracked.heartbeat (h : Tracked fingerprint strict r) (sessionId ownerId : String)
    (currentTick : ℤ) :
    Tracked fingerprint strict (r.heartbeat sessionId ownerId currentTick).2 := by
  unfold RuntimeSessionLeaseRegistry.heartbeat
  split
  · exact h
  · exact h
  · rename_i sid owner _ _
    unfold beat
    split
    · exact h
    · split
      · exact h
      · rename_i l _
        have hr := h.renewLease l.leaseId owner currentTick none true
        split
        · rename_i he; rw [he] at hr; exact hr
        · rename_i he; rw [he] at hr; exact hr

theorem Tracked.releaseLease (h : Tracked fingerprint strict r) (leaseId ownerId : String)
    (currentTick : ℤ) :
    Tracked fingerprint strict (r.releaseLease leaseId ownerId currentTick).2 := by
  unfold RuntimeSessionLeaseRegistry.releaseLease
  split
  · exact h
  · exact h
  · rename_i lid owner _ _
    unfold release
    cases hl : r.leases.get? lid with
    | none => exact h
    | some l =>
      simp only
      split
      · exact h
      · have he := h.endLease hl (by decide : LeaseStatus.released ≠ .active)
        split
        · exact he
        · rename_i s hs
          exact he.touchSession hs rfl rfl

theorem Tracked.expireLoop (h : Tracked fingerprint strict r) (currentTick : ℤ)
    (es : List (String × RuntimeSessionRecord)) :
    Tracked fingerprint strict (expireLoop currentTick es r).2 := by
  induction es generalizing r with
  | nil => exact h
  | cons e es ih =>
    simp only [RuntimeSessionLeaseRegistry.expireLoop]
    split
    · exact ih h
    · rename_i l hl
      have he := h.expire (Option.filter_eq_some_iff.mp hl).1 e.1 currentTick
      split
      · rename_i hx; rw [hx] at he; exact he
      · rename_i hx
        rw [hx] at he
        exact ih he

/-- The loop writes back records of the list, which must still be the stored ones. -/
theorem Tracked.zombieLoop (h : Tracked fingerprint strict r) (currentTick : ℤ)
    {es : List (String × RuntimeSessionRecord)} (hnd : (es.map Prod.fst).Nodup)
    (hes : ∀ e ∈ es, r.sessions.get? e.1 = some e.2) :
    Tracked fingerprint strict (zombieLoop currentTick es r).2 := by
  induction es generalizing r with
  | nil => exact h
  | cons e es ih =>
    obtain ⟨hne, hnd⟩ := List.nodup_cons.mp hnd
    have hrest : ∀ x ∈ es, r.sessions.get? x.1 = some x.2 :=
      fun x hx => hes x (List.mem_cons_of_mem e hx)
    simp only [RuntimeSessionLeaseRegistry.zombieLoop]
    split
    · exact ih h hnd hrest
    · refine ih (h.touchSession (hes e List.mem_cons_self) rfl rfl) hnd fun x hx => ?_
      have hk : x.1 ≠ e.1 := fun he => hne (he ▸ List.mem_map_of_mem hx)
      simpa [RuntimeSessionLeaseRegistry.putSession, hk] using hrest x hx

theorem Tracked.detectZombies (h : Tracked fingerprint strict r) (currentTick : ℤ) :
    Tracked fingerprint strict (r.detectZombies currentTick).2 :=
  h.zombieLoop currentTick r.sessions.nodup fun _ he => Dict.mem_entries.mp he

theorem Tracked.tick (h : Tracked fingerprint strict r) (currentTick : ℤ) :
    Tracked fingerprint strict (r.tick currentTick).2 := by
  have he : Tracked fingerprint strict (r.detectExpired currentTick).2 :=
    h.expireLoop currentTick r.sessions.entries
  unfold RuntimeSessionLeaseRegistry.tick
  split
  · rename_i hx; rw [hx] at he; exact he
  · rename_i hx
    rw [hx] at he
    exact he.detectZombies currentTick

theorem Tracked.registerSession (h : Tracked fingerprint strict r) {taskId : String}
    {payload : Entries} (hk : strict → OwnerKept r (Text.strip sessionId) ownerId) :
    Tracked fingerprint strict
      (r.registerSession sessionId taskId ownerId currentTick payload metadata).2 := by
  unfold RuntimeSessionLeaseRegistry.registerSession validateText
  simp only
  split
  · exact h
  · rename_i hv
    split at hv
    · cases hv
    · cases hv
      exact h.storeSession hk

/-- A registration of a session that holds an active lease names the lease's owner, or none. -/
def KeepsOwner (r : RuntimeSessionLeaseRegistry) : LeaseCall → Prop
  | .registerSession sessionId _ ownerId _ _ _ => OwnerKept r (Text.strip sessionId) ownerId
  | _ => True

instance (r : RuntimeSessionLeaseRegistry) : (c : LeaseCall) → Decidable (KeepsOwner r c)
  | .registerSession sessionId _ ownerId _ _ _ =>
    inferInstanceAs (Decidable (OwnerKept r (Text.strip sessionId) ownerId))
  | .acquireLease .. | .renewLease .. | .heartbeat .. | .releaseLease .. | .takeoverSession ..
  | .detectExpired _ | .detectZombies _ | .tick _ => .isTrue trivial

theorem tracked_call (h : Tracked fingerprint strict r) {c : LeaseCall}
    (hk : strict → KeepsOwner r c) : Tracked fingerprint strict (call fingerprint r c).2 := by
  cases c <;> simp only [call, Prod.map_snd, id_eq]
  case registerSession => exact h.registerSession hk
  case acquireLease => exact h.acquireLease _ _ _ _ _ _
  case renewLease => exact h.renewLease _ _ _ _ _
  case heartbeat => exact h.heartbeat _ _ _
  case releaseLease => exact h.releaseLease _ _ _
  case takeoverSession => exact h.takeoverSession _ _ _ _ _
  case detectExpired now => exact h.expireLoop now r.sessions.entries
  case detectZombies now => exact h.detectZombies now
  case tick now => exact h.tick now

end Calls

/-! ## Whole runs -/

/-- At most one lease of a session is active; it is the one the session's record names, and of the
session's owner. -/
def MutualExclusion (r : RuntimeSessionLeaseRegistry) : Prop :=
  (∀ id id' l l', r.leases.get? id = some l → r.leases.get? id' = some l' →
    l.status = .active → l'.status = .active → l.sessionId = l'.sessionId → id = id') ∧
  ∀ id l, r.leases.get? id = some l → l.status = .active →
    ∃ s, r.sessions.get? l.sessionId = some s ∧ s.leaseId = id ∧ s.ownerId = l.ownerId

theorem Tracked.mutualExclusion {r : RuntimeSessionLeaseRegistry}
    (h : Tracked fingerprint True r) : MutualExclusion r := by
  constructor
  · intro id id' l l' hl hl' hact hact' hsid
    obtain ⟨s, hs, hid, -⟩ := h.named id l hl hact
    obtain ⟨s', hs', hid', -⟩ := h.named id' l' hl' hact'
    rw [← hsid, hs] at hs'
    cases hs'
    exact hid.symm.trans hid'
  · intro id l hl hact
    obtain ⟨s, hs, hid, hown⟩ := h.named id l hl hact
    exact ⟨s, hs, hid, hown trivial⟩

theorem guarded_mutualExclusion (fingerprint : String → String → ℕ+ → String)
    (defaultTtlTicks zombieAfterTicks : ℤ) (calls : List LeaseCall)
    (hg : (machine fingerprint).Guarded KeepsOwner (init defaultTtlTicks zombieAfterTicks)
      calls) :
    MutualExclusion
      ((machine fingerprint).run (init defaultTtlTicks zombieAfterTicks) calls) := by
  have h : Tracked fingerprint True _ := hg.invariant
    (fun _ _ hs hk => tracked_call hs fun _ => hk) (tracked_init defaultTtlTicks zombieAfterTicks)
  exact h.mutualExclusion

/-- The three arguments in full, where the source takes a hash of them. -/
def plainFingerprint (sessionId ownerId : String) (generation : ℕ+) : String :=
  sessionId ++ ":" ++ ownerId ++ ":" ++ toString (generation : ℕ)

/-- Two owners: a takeover, an expiry and a second acquisition under an id used before. -/
def sampleCalls : List LeaseCall :=
  [.acquireLease "s" "A" 1 none false [], .registerSession "s" "t" "A" 2 [] [],
   .takeoverSession "s" "B" 3 "idle" none, .heartbeat "s" "B" 4, .tick 20,
   .acquireLease "s" "A" 21 (some 9) false []]

theorem guarded_mutualExclusion_sample :
    MutualExclusion ((machine plainFingerprint).run (init 5 15) sampleCalls) :=
  guarded_mutualExclusion plainFingerprint 5 15 sampleCalls (by decide)

/-- `register_session` names owner `B` in the record of a session whose active lease is `A`'s. -/
theorem registration_changes_owner :
    ¬ MutualExclusion ((machine plainFingerprint).run (init 5 15)
      [.acquireLease "s" "A" 1 none false [], .registerSession "s" "" "B" 2 [] []]) := by
  intro h
  let r := (machine plainFingerprint).run (init 5 15)
    [.acquireLease "s" "A" 1 none false [], .registerSession "s" "" "B" 2 [] []]
  let id := leaseIdOf plainFingerprint "s" "A" 1
  have hl : (r.leases.get? id).map (fun l => (l.status, l.sessionId, l.ownerId)) =
      some (.active, "s", "A") := by decide
  have hs : (r.sessions.get? "s").map (fun s => s.ownerId) = some "B" := by decide
  obtain ⟨l, hl, heq⟩ := Option.map_eq_some_iff.mp hl
  obtain ⟨s, hs, hown⟩ := Option.map_eq_some_iff.mp hs
  simp only [Prod.mk.injEq] at heq
  obtain ⟨hact, hsid, hlown⟩ := heq
  obtain ⟨s', hs', -, hown'⟩ := h.2 id l hl hact
  rw [hsid, hs] at hs'
  cases hs'
  rw [hown, hlown] at hown'
  exact absurd hown' (by decide)

end RuntimeSessionLeaseRegistry
end Lease
end ZeroRuntime
