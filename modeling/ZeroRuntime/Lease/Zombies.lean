import ZeroRuntime.Lease.Fencing

/-!
# ZeroRuntime.Lease.Zombies

Which sessions zombie detection flags.

A session is judged by one number of its record, the tick of its last heartbeat, or the tick it was
created at where that number is not positive. `register_session` sets it for a new session,
`heartbeat` and a `renew_lease` asked to do so advance it; `acquire_lease` and `takeover_session`
give the lease away and leave it alone.

* `Aged`: all a call can do to a session's ticks.
* `ages_call`: every call ages every session.
* `sparesLiving`: after any run at non-decreasing ticks, a flagged session has shown no sign of
  life within the threshold.
* `ownership_no_sign`: a renewed, taken over or newly acquired session that is flagged.
-/

namespace ZeroRuntime
namespace Lease
namespace RuntimeSessionLeaseRegistry

open Lib

variable {fingerprint : String → String → ℕ+ → String}

/-! ## The ticks of a session -/

/-- What zombie detection reads of a session record, and the id it reports. -/
structure Stamp where
  sessionId : String
  createdTick : ℤ
  lastHeartbeatTick : ℤ

def stamp (s : RuntimeSessionRecord) : Stamp := ⟨s.sessionId, s.createdTick, s.lastHeartbeatTick⟩

def stampOf (r : RuntimeSessionLeaseRegistry) (id : String) : Option Stamp :=
  (r.sessions.get? id).map stamp

/-- One session over a call at tick `now`: left alone, created, or heard of. -/
inductive Aged (now : ℤ) (id : String) : Option Stamp → Option Stamp → Prop
  | same (s : Option Stamp) : Aged now id s s
  | created : Aged now id none (some ⟨id, now, now⟩)
  | heard (s : Stamp) : Aged now id (some s) (some { s with lastHeartbeatTick := now })

variable {now : ℤ} {id : String}

theorem Aged.trans {a b c : Option Stamp} (h : Aged now id a b) (h' : Aged now id b c) :
    Aged now id a c := by
  cases h with
  | same => exact h'
  | created =>
    cases h' with
    | same => exact .created
    | heard => exact .created
  | heard s =>
    cases h' with
    | same => exact .heard s
    | heard => exact .heard s

/-- Every session over a call, or a part of one, at tick `now`. -/
structure Ages (now : ℤ) (r r' : RuntimeSessionLeaseRegistry) : Prop where
  threshold : r'.zombieAfterTicks = r.zombieAfterTicks
  aged : ∀ id, Aged now id (r.stampOf id) (r'.stampOf id)

namespace Ages

variable {now : ℤ} {r r' r'' : RuntimeSessionLeaseRegistry}

theorem refl (now : ℤ) (r : RuntimeSessionLeaseRegistry) : Ages now r r :=
  ⟨rfl, fun id => .same (r.stampOf id)⟩

theorem trans (h : Ages now r r') (h' : Ages now r' r'') : Ages now r r'' :=
  ⟨h'.threshold.trans h.threshold, fun id => (h.aged id).trans (h'.aged id)⟩

theorem putLease (h : Ages now r r') (id : String) (l : RuntimeSessionLease) :
    Ages now r (r'.putLease id l) := ⟨h.threshold, h.aged⟩

/-- Storing a session record that has the ticks of the stored one, or was just heard of. -/
theorem putSession {id : String} {s s' : RuntimeSessionRecord}
    (hs : r.sessions.get? id = some s)
    (hstamp : stamp s' = stamp s ∨ stamp s' = { stamp s with lastHeartbeatTick := now }) :
    Ages now r (r.putSession id s') := by
  refine ⟨rfl, fun id' => ?_⟩
  by_cases hk : id' = id
  · subst hk
    have hold : r.stampOf id' = some (stamp s) := by simp [stampOf, hs]
    have hnew : (r.putSession id' s').stampOf id' = some (stamp s') := by
      simp [stampOf, RuntimeSessionLeaseRegistry.putSession]
    rw [hold, hnew]
    rcases hstamp with he | he
    · rw [he]
      exact .same _
    · rw [he]
      exact .heard _
  · have hnew : (r.putSession id s').stampOf id' = r.stampOf id' := by
      simp [stampOf, RuntimeSessionLeaseRegistry.putSession, hk]
    rw [hnew]
    exact .same _

theorem storeSession (sessionId taskId ownerId : String) (payload metadata : Entries) :
    Ages now r (r.storeSession sessionId taskId ownerId now payload metadata) := by
  cases hs : r.sessions.get? sessionId with
  | some s =>
    refine putSession hs (.inl ?_)
    rw [hs]
    rfl
  | none =>
    refine ⟨rfl, fun id => ?_⟩
    by_cases hk : id = sessionId
    · subst hk
      have hold : r.stampOf id = none := by simp [stampOf, hs]
      have hnew : (r.storeSession id taskId ownerId now payload metadata).stampOf id =
          some ⟨id, now, now⟩ := by
        simp [stampOf, RuntimeSessionLeaseRegistry.storeSession,
          RuntimeSessionLeaseRegistry.putSession, hs, registered, stamp]
      rw [hold, hnew]
      exact .created
    · have hnew : (r.storeSession sessionId taskId ownerId now payload metadata).stampOf id =
          r.stampOf id := by
        simp [stampOf, RuntimeSessionLeaseRegistry.storeSession,
          RuntimeSessionLeaseRegistry.putSession, hk]
      rw [hnew]
      exact .same _

theorem ensureSession (sessionId ownerId : String) :
    Ages now r (if r.sessions.contains sessionId then r
      else r.storeSession sessionId "" ownerId now [] []) := by
  split
  · exact .refl now r
  · exact storeSession sessionId "" ownerId [] []

theorem markSessionExpired (sessionId : String) :
    Ages now r (r.markSessionExpired sessionId now).2 := by
  unfold RuntimeSessionLeaseRegistry.markSessionExpired
  split
  · exact .refl now r
  · rename_i s hs
    exact putSession hs (.inl rfl)

theorem expire (l : RuntimeSessionLease) (sessionId : String) :
    Ages now r (r.expire l sessionId now).2 :=
  ((Ages.refl now r).putLease l.leaseId _).trans (markSessionExpired sessionId)

theorem activeLease (sessionId : String) :
    Ages now r (r.activeLeaseForSession sessionId now).2 := by
  unfold activeLeaseForSession
  split
  · exact .refl now r
  · rename_i l _
    split
    · exact expire l sessionId
    · exact .refl now r

theorem transfer (current : Option RuntimeSessionLease) (ownerId : String) :
    Ages now r (r.transfer current ownerId) := by
  unfold RuntimeSessionLeaseRegistry.transfer
  split
  · exact .refl now r
  · split
    · exact .refl now r
    · exact (Ages.refl now r).putLease _ _

theorem grant (lease : RuntimeSessionLease) : Ages now r (r.grant lease now).2 := by
  unfold RuntimeSessionLeaseRegistry.grant
  have hput := (Ages.refl now r).putLease lease.leaseId lease
  simp only
  split
  · exact hput
  · rename_i s hs
    exact hput.trans (putSession hs (.inl rfl))

theorem acquire (sessionId ownerId : String) (ttlTicks : Option ℤ) (force : Bool)
    (metadata : Entries) :
    Ages now r (r.acquire fingerprint sessionId ownerId now ttlTicks force metadata).2 := by
  unfold RuntimeSessionLeaseRegistry.acquire
  have h₁ : Ages now r _ := ensureSession sessionId ownerId
  generalize (if r.sessions.contains sessionId then r
    else r.storeSession sessionId "" ownerId now [] []) = r₁ at h₁
  have h₂ := h₁.trans (activeLease sessionId)
  simp only
  split
  · rename_i he
    rw [he] at h₂
    exact h₂
  · rename_i current r₂ he
    rw [he] at h₂
    split
    · exact h₂
    · exact (h₂.trans (transfer current ownerId)).trans (grant _)

theorem acquireLease (sessionId ownerId : String) (ttlTicks : Option ℤ) (force : Bool)
    (metadata : Entries) :
    Ages now r (r.acquireLease fingerprint sessionId ownerId now ttlTicks force metadata).2 := by
  unfold RuntimeSessionLeaseRegistry.acquireLease
  split
  · exact .refl now r
  · exact .refl now r
  · exact acquire _ _ ttlTicks force metadata

theorem takeoverSession (sessionId newOwnerId reason : String) (ttlTicks : Option ℤ) :
    Ages now r (r.takeoverSession fingerprint sessionId newOwnerId now reason ttlTicks).2 := by
  unfold RuntimeSessionLeaseRegistry.takeoverSession
  split
  · exact .refl now r
  · exact .refl now r
  · rename_i sid owner _ _
    have hens : Ages now r _ := ensureSession sid ""
    have hacq : Ages now r (RuntimeSessionLeaseRegistry.acquireLease fingerprint _ sid owner now
      ttlTicks true [("takeover_reason", .str reason)]).2 :=
      hens.trans (acquireLease sid owner ttlTicks true _)
    unfold takeover
    simp only
    split
    · rename_i he
      rw [he] at hacq
      exact hacq
    · rename_i he
      rw [he] at hacq
      split
      · exact hacq
      · rename_i s hs
        exact hacq.trans (putSession hs (.inl rfl))

theorem renew (leaseId ownerId : String) (ttlTicks : Option ℤ) (heartbeat : Bool) :
    Ages now r (r.renew leaseId ownerId now ttlTicks heartbeat).2 := by
  unfold RuntimeSessionLeaseRegistry.renew
  split
  · exact .refl now r
  · rename_i lease _
    split
    · exact .refl now r
    · split
      · exact .refl now r
      · split
        · have hexp := ((Ages.refl now r).putLease leaseId
            { lease with status := .expired }).trans (markSessionExpired lease.sessionId)
          split
          · rename_i he; rw [he] at hexp; exact hexp
          · rename_i he; rw [he] at hexp; exact hexp
        · have hput := (Ages.refl now r).putLease leaseId
            { lease with renewedTick := now, expiresTick := now + r.ttl ttlTicks }
          simp only
          split
          · exact hput
          · rename_i s hs
            refine hput.trans (putSession hs ?_)
            -- the heartbeat tick is the one part of the stamp a renewal may write
            cases heartbeat with
            | true => exact .inr rfl
            | false => exact .inl rfl

theorem renewLease (leaseId ownerId : String) (ttlTicks : Option ℤ) (heartbeat : Bool) :
    Ages now r (r.renewLease leaseId ownerId now ttlTicks heartbeat).2 := by
  unfold RuntimeSessionLeaseRegistry.renewLease
  split
  · exact .refl now r
  · exact .refl now r
  · exact renew _ _ ttlTicks heartbeat

theorem heartbeat (sessionId ownerId : String) :
    Ages now r (r.heartbeat sessionId ownerId now).2 := by
  unfold RuntimeSessionLeaseRegistry.heartbeat
  split
  · exact .refl now r
  · exact .refl now r
  · rename_i sid owner _ _
    unfold beat
    split
    · exact .refl now r
    · split
      · exact .refl now r
      · rename_i l _
        have hr : Ages now r _ := renewLease l.leaseId owner none true
        split
        · rename_i he; rw [he] at hr; exact hr
        · rename_i he; rw [he] at hr; exact hr

theorem releaseLease (leaseId ownerId : String) :
    Ages now r (r.releaseLease leaseId ownerId now).2 := by
  unfold RuntimeSessionLeaseRegistry.releaseLease
  split
  · exact .refl now r
  · exact .refl now r
  · rename_i lid owner _ _
    unfold release
    split
    · exact .refl now r
    · rename_i lease _
      split
      · exact .refl now r
      · have hput := (Ages.refl now r).putLease lid { lease with status := .released }
        simp only
        split
        · exact hput
        · rename_i s hs
          exact hput.trans (putSession hs (.inl rfl))

theorem expireLoop (es : List (String × RuntimeSessionRecord)) :
    Ages now r (expireLoop now es r).2 := by
  induction es generalizing r with
  | nil => exact .refl now r
  | cons e es ih =>
    simp only [RuntimeSessionLeaseRegistry.expireLoop]
    split
    · exact ih
    · rename_i l _
      have he : Ages now r _ := expire l e.1
      split
      · rename_i hx; rw [hx] at he; exact he
      · rename_i hx
        rw [hx] at he
        exact he.trans ih

theorem zombieLoop {es : List (String × RuntimeSessionRecord)} (hnd : (es.map Prod.fst).Nodup)
    (hes : ∀ e ∈ es, r.sessions.get? e.1 = some e.2) :
    Ages now r (zombieLoop now es r).2 := by
  induction es generalizing r with
  | nil => exact .refl now r
  | cons e es ih =>
    obtain ⟨hne, hnd⟩ := List.nodup_cons.mp hnd
    have hrest : ∀ x ∈ es, r.sessions.get? x.1 = some x.2 :=
      fun x hx => hes x (List.mem_cons_of_mem e hx)
    simp only [RuntimeSessionLeaseRegistry.zombieLoop]
    split
    · exact ih hnd hrest
    · have hput : Ages now r
          (r.putSession e.1 { e.2 with status := .zombie, updatedTick := now }) :=
        putSession (hes e List.mem_cons_self) (.inl rfl)
      refine hput.trans (ih hnd fun x hx => ?_)
      have hk : x.1 ≠ e.1 := fun he => hne (he ▸ List.mem_map_of_mem hx)
      simpa [RuntimeSessionLeaseRegistry.putSession, hk] using hrest x hx

theorem detectZombies : Ages now r (r.detectZombies now).2 :=
  zombieLoop r.sessions.nodup fun _ he => Dict.mem_entries.mp he

theorem tick : Ages now r (r.tick now).2 := by
  have he : Ages now r (r.detectExpired now).2 := expireLoop r.sessions.entries
  unfold RuntimeSessionLeaseRegistry.tick
  split
  · rename_i hx; rw [hx] at he; exact he
  · rename_i hx
    rw [hx] at he
    exact he.trans detectZombies

theorem registerSession (sessionId taskId ownerId : String) (payload metadata : Entries) :
    Ages now r (r.registerSession sessionId taskId ownerId now payload metadata).2 := by
  unfold RuntimeSessionLeaseRegistry.registerSession
  split
  · exact .refl now r
  · exact storeSession _ taskId ownerId payload metadata

end Ages

/-! ## Every call -/

def LeaseCall.currentTick : LeaseCall → ℤ
  | .registerSession _ _ _ now _ _ | .acquireLease _ _ now _ _ _ | .renewLease _ _ now _ _
  | .heartbeat _ _ now | .releaseLease _ _ now | .takeoverSession _ _ now _ _
  | .detectExpired now | .detectZombies now | .tick now => now

/-- The calls are made at non-decreasing ticks. -/
abbrev InOrder (calls : List LeaseCall) : Prop :=
  calls.Pairwise fun c c' => c.currentTick ≤ c'.currentTick

theorem ages_call (r : RuntimeSessionLeaseRegistry) (c : LeaseCall) :
    Ages c.currentTick r (call fingerprint r c).2 := by
  cases c <;> simp only [call, Prod.map_snd, id_eq]
  case registerSession => exact .registerSession _ _ _ _ _
  case acquireLease => exact .acquireLease _ _ _ _ _
  case renewLease => exact .renewLease _ _ _ _
  case heartbeat => exact .heartbeat _ _
  case releaseLease => exact .releaseLease _ _
  case takeoverSession => exact .takeoverSession _ _ _ _
  case detectExpired => exact .expireLoop _
  case detectZombies => exact .detectZombies
  case tick => exact .tick

/-- The session a call that succeeds is about. -/
def LeaseAnswer.sessionId? : LeaseAnswer → Option String
  | .session (.ok s) => some s.sessionId
  | .lease (.ok l) => some l.sessionId
  | _ => none

def LeaseCall.givesOrKeeps : LeaseCall → Bool
  | .acquireLease .. | .takeoverSession .. | .renewLease .. | .heartbeat .. => true
  | _ => false

def ProvesLife (fingerprint : String → String → ℕ+ → String) (r : RuntimeSessionLeaseRegistry)
    (c : LeaseCall) (id : String) : Prop :=
  (call fingerprint r c).1.sessionId? = some id ∧ c.givesOrKeeps = true

instance (r : RuntimeSessionLeaseRegistry) (c : LeaseCall) (id : String) :
    Decidable (ProvesLife fingerprint r c id) := inferInstanceAs (Decidable (_ ∧ _))

/-- The lease that a heartbeat of the session renews is a lease of the session. -/
def RenewsOwn (r : RuntimeSessionLeaseRegistry) (id : String) : Prop :=
  ∀ s ∈ r.sessions.get? id, ∀ l ∈ r.leases.get? s.leaseId,
    ∀ l' ∈ r.leases.get? (Text.strip l.leaseId), l'.sessionId = id

/-- A call that succeeds for a session and sets the tick it is judged by: it creates the session, or
records a heartbeat at a positive tick. -/
def SignOfLife (fingerprint : String → String → ℕ+ → String) (r : RuntimeSessionLeaseRegistry)
    (c : LeaseCall) (id : String) : Prop :=
  (call fingerprint r c).1.sessionId? = some id ∧
    match c with
    | .registerSession .. | .acquireLease .. | .takeoverSession .. =>
      r.sessions.contains id = false
    | .renewLease _ _ now _ heartbeat => heartbeat = true ∧ 0 < now
    | .heartbeat _ _ now => 0 < now ∧ RenewsOwn r id
    | _ => False

/-- A sign of life at tick `t` that the stamp still shows. -/
def Stamp.Shows (s : Stamp) (t : ℤ) : Prop :=
  t ≤ s.createdTick ∨ 0 < t ∧ t ≤ s.lastHeartbeatTick

section Signs

variable {strict : Prop} {r r' : RuntimeSessionLeaseRegistry} {now : ℤ}

/-- Every session is filed under its id. -/
def Keyed (r : RuntimeSessionLeaseRegistry) : Prop :=
  ∀ id s, r.stampOf id = some s → s.sessionId = id

theorem Ages.keyed (h : Ages now r r') (hr : Keyed r) : Keyed r' := by
  intro id s' hs'
  have hag := h.aged id
  rw [hs'] at hag
  cases hold : r.stampOf id with
  | none =>
    rw [hold] at hag
    cases hag
    rfl
  | some s =>
    rw [hold] at hag
    cases hag with
    | same => exact hr id _ hold
    | heard s => exact hr id s hold

variable {id : String} {s : RuntimeSessionRecord}

theorem Keyed.get? (h : Keyed r) (hs : r.sessions.get? id = some s) : s.sessionId = id :=
  h id (stamp s) (by simp [stampOf, hs])

/-- A session that was not there before the call was created by it. -/
theorem Ages.shows_new (h : Ages now r r') (hnew : r.sessions.contains id = false)
    (hs : r'.sessions.get? id = some s) : ∃ st, r'.stampOf id = some st ∧ st.Shows now := by
  have hag := h.aged id
  have hold : r.stampOf id = none := by
    have hnone : r.sessions.get? id = none := by simpa [Dict.contains] using hnew
    simp [stampOf, hnone]
  have hafter : r'.stampOf id = some (stamp s) := by simp [stampOf, hs]
  rw [hold, hafter] at hag
  generalize stamp s = st at hafter hag
  cases hag
  exact ⟨⟨id, now, now⟩, hafter, .inl (le_refl now)⟩

theorem Ages.stored (h : Ages now r r') (hs : ∃ s, r.sessions.get? id = some s) :
    ∃ s, r'.sessions.get? id = some s := by
  obtain ⟨s, hs⟩ := hs
  have hag := h.aged id
  have hold : r.stampOf id = some (stamp s) := by simp [stampOf, hs]
  rw [hold] at hag
  cases hs' : r'.sessions.get? id with
  | some s' => exact ⟨s', rfl⟩
  | none =>
    have hnone : r'.stampOf id = none := by simp [stampOf, hs']
    rw [hnone] at hag
    cases hag

variable {sessionId ownerId : String}

theorem registerSession_ok {taskId : String} {payload metadata : Entries}
    (h : (r.registerSession sessionId taskId ownerId now payload metadata).1 = .ok s) :
    ∃ id, (r.registerSession sessionId taskId ownerId now payload metadata).2.sessions.get? id =
      some s := by
  unfold registerSession at h ⊢
  split at h
  · cases h
  · rename_i id _
    cases h
    exact ⟨id, by simp [storeSession, putSession]⟩

variable {l : RuntimeSessionLease}

theorem grant_ok {lease : RuntimeSessionLease} (h : (r.grant lease now).1 = .ok l) :
    ∃ s, (r.grant lease now).2.sessions.get? l.sessionId = some s := by
  unfold grant at h ⊢
  simp only at h ⊢
  split at h
  · cases h
  · cases h
    exact ⟨_, by simp [putSession]; rfl⟩

variable {ttlTicks : Option ℤ}

theorem acquireLease_ok {force : Bool} {metadata : Entries}
    (h : (r.acquireLease fingerprint sessionId ownerId now ttlTicks force metadata).1 = .ok l) :
    ∃ s, (r.acquireLease fingerprint sessionId ownerId now ttlTicks force
      metadata).2.sessions.get? l.sessionId = some s := by
  unfold acquireLease at h ⊢
  split at h
  · cases h
  · cases h
  · unfold acquire at h ⊢
    simp only at h ⊢
    split at h
    · cases h
    · split at h
      · cases h
      · exact grant_ok h

theorem takeoverSession_ok {newOwnerId reason : String}
    (h : (r.takeoverSession fingerprint sessionId newOwnerId now reason ttlTicks).1 = .ok l) :
    ∃ s, (r.takeoverSession fingerprint sessionId newOwnerId now reason
      ttlTicks).2.sessions.get? l.sessionId = some s := by
  unfold takeoverSession at h ⊢
  split at h
  · cases h
  · cases h
  · unfold takeover at h ⊢
    simp only at h ⊢
    split at h
    · cases h
    · rename_i lease r₁ he
      have hacq := acquireLease_ok (congrArg Prod.fst he)
      rw [he] at hacq
      split at h
      · cases h
      · rename_i s hs
        cases h
        have hput : ∀ s', stamp s' = stamp s → Ages now r₁ (r₁.putSession _ s') :=
          fun s' he => .putSession hs (.inl he)
        refine Ages.stored (hput _ ?_) hacq
        rfl

theorem Tracked.renewLease_ok (h : Tracked fingerprint strict r) {leaseId : String}
    (hok : (r.renewLease leaseId ownerId now ttlTicks true).1 = .ok l) :
    (∃ l₀, r.leases.get? (Text.strip leaseId) = some l₀ ∧ l₀.sessionId = l.sessionId) ∧
    ∃ s, (r.renewLease leaseId ownerId now ttlTicks true).2.sessions.get? l.sessionId = some s ∧
      s.lastHeartbeatTick = now := by
  unfold RuntimeSessionLeaseRegistry.renewLease at hok ⊢
  split at hok
  · cases hok
  · cases hok
  · rename_i lid owner hlid _
    obtain rfl := validateText_ok hlid
    unfold RuntimeSessionLeaseRegistry.renew at hok ⊢
    cases hl : r.leases.get? (Text.strip leaseId) with
    | none =>
      rw [hl] at hok
      cases hok
    | some l₀ =>
      rw [hl] at hok
      simp only at hok ⊢
      split at hok
      · cases hok
      · rename_i hown
        split at hok
        · cases hok
        · rename_i hact
          split at hok
          · split at hok <;> cases hok
          · rename_i hexp
            obtain ⟨s, hs, -⟩ := h.named _ l₀ hl (not_not.mp hact)
            simp only [hown, hact, hexp, if_false, RuntimeSessionLeaseRegistry.putLease, hs]
              at hok ⊢
            cases hok
            exact ⟨⟨l₀, rfl, rfl⟩, _,
              by simp [RuntimeSessionLeaseRegistry.putSession]; rfl, rfl⟩

theorem Tracked.heartbeat_ok (h : Tracked fingerprint strict r)
    (hok : (r.heartbeat sessionId ownerId now).1 = .ok s) :
    (r.heartbeat sessionId ownerId now).2.sessions.get? (Text.strip sessionId) = some s ∧
      (RenewsOwn r (Text.strip sessionId) → s.lastHeartbeatTick = now) := by
  unfold RuntimeSessionLeaseRegistry.heartbeat at hok ⊢
  split at hok
  · cases hok
  · cases hok
  · rename_i sid owner hsid _
    obtain rfl := validateText_ok hsid
    unfold beat at hok ⊢
    split at hok
    · cases hok
    · rename_i s₀ hs₀
      split at hok
      · cases hok
      · rename_i l hl
        split at hok
        · cases hok
        · rename_i l' r' he
          obtain ⟨⟨l₀, hl₀, hsid₀⟩, t, ht, hnow⟩ := h.renewLease_ok (congrArg Prod.fst he)
          rw [he] at ht
          simp only at hok ht ⊢
          cases hget : r'.sessions.get? (Text.strip sessionId) with
          | none =>
            rw [hget] at hok
            cases hok
          | some t' =>
            rw [hget] at hok
            cases hok
            refine ⟨rfl, fun hown => ?_⟩
            have hsame := hown s₀ hs₀ l (Option.filter_eq_some_iff.mp hl).1 l₀ hl₀
            rw [← hsid₀, hsame, hget] at ht
            cases ht
            exact hnow

theorem session_answer {a : Except Err RuntimeSessionRecord}
    (h : (LeaseAnswer.session a).sessionId? = some id) : ∃ s, a = .ok s ∧ s.sessionId = id := by
  cases a with
  | error e => cases h
  | ok s =>
    cases h
    exact ⟨s, rfl, rfl⟩

theorem lease_answer {a : Except Err RuntimeSessionLease}
    (h : (LeaseAnswer.lease a).sessionId? = some id) : ∃ l, a = .ok l ∧ l.sessionId = id := by
  cases a with
  | error e => cases h
  | ok l =>
    cases h
    exact ⟨l, rfl, rfl⟩

theorem Tracked.shows_sign (h : Tracked fingerprint strict r) (hkey : Keyed r) {c : LeaseCall}
    (hsign : SignOfLife fingerprint r c id) :
    ∃ s, (call fingerprint r c).2.stampOf id = some s ∧ s.Shows c.currentTick := by
  have hages : Ages c.currentTick r (call fingerprint r c).2 := ages_call r c
  have hkey' := hages.keyed hkey
  obtain ⟨hfor, hsign⟩ := hsign
  cases c <;> simp only [call, Prod.map_fst, Prod.map_snd, id_eq, LeaseCall.currentTick]
    at hages hkey' hfor hsign ⊢
  case registerSession =>
    obtain ⟨s, hok, rfl⟩ := session_answer hfor
    obtain ⟨k, hk⟩ := registerSession_ok hok
    have hid : s.sessionId = k := hkey'.get? hk
    rw [← hid] at hk
    exact hages.shows_new hsign hk
  case acquireLease =>
    obtain ⟨l, hok, rfl⟩ := lease_answer hfor
    obtain ⟨s, hs⟩ := acquireLease_ok hok
    exact hages.shows_new hsign hs
  case takeoverSession =>
    obtain ⟨l, hok, rfl⟩ := lease_answer hfor
    obtain ⟨s, hs⟩ := takeoverSession_ok hok
    exact hages.shows_new hsign hs
  case renewLease =>
    obtain ⟨rfl, hpos⟩ := hsign
    obtain ⟨l, hok, rfl⟩ := lease_answer hfor
    obtain ⟨-, s, hs, hnow⟩ := h.renewLease_ok hok
    exact ⟨stamp s, by simp [stampOf, hs], .inr ⟨hpos, hnow.ge⟩⟩
  case heartbeat =>
    obtain ⟨hpos, hown⟩ := hsign
    obtain ⟨s, hok, rfl⟩ := session_answer hfor
    obtain ⟨hs, hnow⟩ := h.heartbeat_ok hok
    have hid := hkey'.get? hs
    rw [hid] at hown ⊢
    exact ⟨stamp s, by simp [stampOf, hs], .inr ⟨hpos, (hnow hown).ge⟩⟩

end Signs

/-! ## Flagged sessions -/

/-- The sessions a call flags as zombies. -/
def flagged (r : RuntimeSessionLeaseRegistry) : LeaseCall → List RuntimeSessionRecord
  | .detectZombies now => (r.detectZombies now).1
  | .tick now => ((r.tick now).1.toOption.map fun found => found.2).getD []
  | _ => []

section Flagged

variable {r : RuntimeSessionLeaseRegistry} {now : ℤ}

variable {z : RuntimeSessionRecord}

theorem mem_zombieLoop {es : List (String × RuntimeSessionRecord)}
    (hz : z ∈ (zombieLoop now es r).1) :
    ∃ e ∈ es, stamp z = stamp e.2 ∧ r.zombieAfterTicks ≤ now - heartbeatTick e.2 := by
  induction es generalizing r with
  | nil => cases hz
  | cons e es ih =>
    simp only [zombieLoop] at hz
    split at hz
    · obtain ⟨x, hx, hstale⟩ := ih hz
      exact ⟨x, List.mem_cons_of_mem e hx, hstale⟩
    · rename_i hstale
      rcases List.mem_cons.mp hz with rfl | hz
      · refine ⟨e, List.mem_cons_self, rfl, ?_⟩
        simp only [Bool.or_eq_true, decide_eq_true_eq, not_or, not_lt] at hstale
        exact hstale.2
      · obtain ⟨x, hx, hrest⟩ := ih hz
        exact ⟨x, List.mem_cons_of_mem e hx, hrest⟩

theorem mem_detectZombies (hz : z ∈ (r.detectZombies now).1) :
    ∃ id s, r.stampOf id = some s ∧ s.sessionId = z.sessionId ∧
      r.zombieAfterTicks ≤
        now - if s.lastHeartbeatTick ≤ 0 then s.createdTick else s.lastHeartbeatTick := by
  obtain ⟨e, he, hstamp, hstale⟩ := mem_zombieLoop hz
  refine ⟨e.1, stamp e.2, ?_, congrArg Stamp.sessionId hstamp.symm, hstale⟩
  simp [stampOf, Dict.mem_entries.mp he]

theorem mem_flagged {c : LeaseCall} (hz : z ∈ flagged r c) :
    ∃ r', Ages c.currentTick r r' ∧ z ∈ (r'.detectZombies c.currentTick).1 := by
  cases c with
  | detectZombies now => exact ⟨r, .refl now r, hz⟩
  | tick now =>
    have hages : Ages now r (r.detectExpired now).2 := .expireLoop r.sessions.entries
    refine ⟨(r.detectExpired now).2, hages, ?_⟩
    simp only [flagged, tick] at hz
    split at hz
    · cases hz
    · rename_i he
      rw [he]
      exact hz
  | registerSession | acquireLease | renewLease | heartbeat | releaseLease | takeoverSession
  | detectExpired => cases hz

end Flagged

/-! ## Whole runs -/

/-- What a run at non-decreasing ticks leaves of every session's stamp. -/
structure Attested (fingerprint : String → String → ℕ+ → String) (r₀ : RuntimeSessionLeaseRegistry)
    (calls : List LeaseCall) : Prop where
  threshold : ((machine fingerprint).run r₀ calls).zombieAfterTicks = r₀.zombieAfterTicks
  keyed : Keyed ((machine fingerprint).run r₀ calls)
  timed : ∀ id s, ((machine fingerprint).run r₀ calls).stampOf id = some s →
    s.createdTick ≤ s.lastHeartbeatTick ∧ ∃ c ∈ calls, s.lastHeartbeatTick ≤ c.currentTick
  shown : ∀ earlier e id, earlier ++ [e] <+: calls →
    SignOfLife fingerprint ((machine fingerprint).run r₀ earlier) e id →
    ∃ s, ((machine fingerprint).run r₀ calls).stampOf id = some s ∧ s.Shows e.currentTick

variable {r₀ : RuntimeSessionLeaseRegistry}

theorem Attested.upTo {calls : List LeaseCall} (h : Attested fingerprint r₀ calls)
    (hnow : ∀ c ∈ calls, c.currentTick ≤ now) {s : Stamp}
    (hs : ((machine fingerprint).run r₀ calls).stampOf id = some s) :
    s.createdTick ≤ s.lastHeartbeatTick ∧ s.lastHeartbeatTick ≤ now := by
  obtain ⟨hcreated, c, hc, hle⟩ := h.timed id s hs
  exact ⟨hcreated, hle.trans (hnow c hc)⟩

/-- A stamp that shows a sign of life still shows it after a later call. -/
theorem Aged.shows {s : Stamp} {b : Option Stamp} {t : ℤ} (h : Aged now id (some s) b)
    (hlast : s.lastHeartbeatTick ≤ now) (ht : s.Shows t) : ∃ s', b = some s' ∧ s'.Shows t := by
  cases h with
  | same => exact ⟨s, rfl, ht⟩
  | heard => exact ⟨_, rfl, ht.imp_right fun ⟨hpos, hle⟩ => ⟨hpos, hle.trans hlast⟩⟩

theorem Aged.timed {a : Option Stamp} {s' : Stamp} (h : Aged now id a (some s'))
    (ha : ∀ s, a = some s → s.createdTick ≤ s.lastHeartbeatTick ∧ s.lastHeartbeatTick ≤ now) :
    s'.createdTick ≤ s'.lastHeartbeatTick ∧ s'.lastHeartbeatTick ≤ now := by
  cases h with
  | same => exact ha s' rfl
  | created => exact ⟨le_refl now, le_refl now⟩
  | heard s =>
    obtain ⟨hcreated, hlast⟩ := ha s rfl
    exact ⟨hcreated.trans hlast, le_refl now⟩

theorem attested_run (fingerprint : String → String → ℕ+ → String)
    (defaultTtlTicks zombieAfterTicks : ℤ) (calls : List LeaseCall)
    (hord : InOrder calls) :
    Attested fingerprint (init defaultTtlTicks zombieAfterTicks) calls := by
  induction calls using List.reverseRecOn with
  | nil =>
    refine ⟨rfl, fun id s hs => (by cases hs), fun id s hs => (by cases hs), ?_⟩
    intro earlier e id hpre
    exact absurd (List.prefix_nil.mp hpre) (by simp)
  | append_singleton calls c ih =>
    obtain ⟨hord, -, hlater⟩ := List.pairwise_append.mp hord
    have h := ih hord
    have htracked := tracked_run fingerprint defaultTtlTicks zombieAfterTicks calls
    have hages : Ages c.currentTick _ (call fingerprint _ c).2 :=
      ages_call ((machine fingerprint).run (init defaultTtlTicks zombieAfterTicks) calls) c
    have hnow : ∀ d ∈ calls, d.currentTick ≤ c.currentTick :=
      fun d hd => hlater d hd c (List.mem_singleton_self c)
    refine ⟨?_, ?_, ?_, ?_⟩ <;> rw [Machine.run_snoc]
    · exact hages.threshold.trans h.threshold
    · exact hages.keyed h.keyed
    · intro id s hs
      have hag := hages.aged id
      rw [show (call fingerprint _ c).2.stampOf id = some s from hs] at hag
      obtain ⟨hcreated, hlast⟩ := hag.timed fun t ht => h.upTo hnow ht
      exact ⟨hcreated, c, by simp, hlast⟩
    · intro earlier e id hpre hsign
      rcases List.prefix_concat_iff.mp hpre with heq | hpre
      · obtain ⟨rfl, rfl⟩ := List.append_singleton_inj.mp heq
        exact htracked.shows_sign h.keyed hsign
      · obtain ⟨s, hs, hshows⟩ := h.shown earlier e id hpre hsign
        have hag := hages.aged id
        rw [hs] at hag
        exact hag.shows (h.upTo hnow hs).2 hshows

/-- A session the call flags has, by the run before it, proved itself alive at no tick within the
threshold. -/
def SparesLiving (fingerprint : String → String → ℕ+ → String)
    (alive : RuntimeSessionLeaseRegistry → LeaseCall → String → Prop)
    (r₀ : RuntimeSessionLeaseRegistry) (calls : List LeaseCall) (c : LeaseCall) : Prop :=
  ∀ z ∈ flagged ((machine fingerprint).run r₀ calls) c, ∀ earlier e, earlier ++ [e] <+: calls →
    alive ((machine fingerprint).run r₀ earlier) e z.sessionId →
    e.currentTick ≤ c.currentTick - r₀.zombieAfterTicks

theorem sparesLiving (fingerprint : String → String → ℕ+ → String)
    (defaultTtlTicks zombieAfterTicks : ℤ) (calls : List LeaseCall) (c : LeaseCall)
    (hord : InOrder (calls ++ [c])) :
    SparesLiving fingerprint (SignOfLife fingerprint) (init defaultTtlTicks zombieAfterTicks)
      calls c := by
  intro z hz earlier e hpre hsign
  obtain ⟨hord, -, hlater⟩ := List.pairwise_append.mp hord
  have h := attested_run fingerprint defaultTtlTicks zombieAfterTicks calls hord
  obtain ⟨r', hages, hz⟩ := mem_flagged hz
  obtain ⟨id, s, hs, hid, hstale⟩ := mem_detectZombies hz
  obtain rfl : id = z.sessionId := (hages.keyed h.keyed id s hs).symm.trans hid
  obtain ⟨s₀, hs₀, hshows⟩ := h.shown earlier e z.sessionId hpre hsign
  have hnow : s₀.createdTick ≤ s₀.lastHeartbeatTick ∧ s₀.lastHeartbeatTick ≤ c.currentTick :=
    h.upTo (fun d hd => hlater d hd c (List.mem_singleton_self c)) hs₀
  have hag := hages.aged z.sessionId
  rw [hs₀, hs] at hag
  obtain ⟨s', heq, hshows'⟩ := hag.shows hnow.2 hshows
  obtain rfl : s = s' := Option.some.inj heq
  have htimed := hag.timed fun t ht => Option.some.inj ht ▸ hnow
  rw [hages.threshold, h.threshold] at hstale
  unfold Stamp.Shows at hshows'
  split at hstale <;> omega

/-- A session that is heard of, expires, and is taken over by an owner who is heard of. -/
def heardCalls : List LeaseCall :=
  [.acquireLease "s" "A" 1 none false [], .heartbeat "s" "A" 4, .tick 12,
   .takeoverSession "s" "B" 13 "idle" none, .heartbeat "s" "B" 14]

theorem sparesLiving_sample :
    (flagged ((machine plainFingerprint).run (init 5 15) heardCalls) (.tick 29)).length = 1 ∧
    SparesLiving plainFingerprint (SignOfLife plainFingerprint) (init 5 15) heardCalls
      (.tick 29) :=
  ⟨by decide +kernel, sparesLiving plainFingerprint 5 15 heardCalls (.tick 29) (by decide)⟩

variable {earlier : List LeaseCall}

theorem not_sparesLiving {alive : RuntimeSessionLeaseRegistry → LeaseCall → String → Prop}
    {e c : LeaseCall} (id : String)
    (hz : (flagged ((machine fingerprint).run r₀ (earlier ++ [e])) c).map
      (fun z => z.sessionId) = [id]) (halive : alive ((machine fingerprint).run r₀ earlier) e id)
    (hlate : c.currentTick - r₀.zombieAfterTicks < e.currentTick) :
    ¬ SparesLiving fingerprint alive r₀ (earlier ++ [e]) c := by
  intro h
  have hmem : id ∈ (flagged ((machine fingerprint).run r₀ (earlier ++ [e])) c).map
      (fun z => z.sessionId) := by
    rw [hz]
    exact List.mem_singleton_self id
  obtain ⟨z, hflag, rfl⟩ := List.mem_map.mp hmem
  exact absurd (h z hflag earlier e (List.prefix_refl _) halive) (not_le.mpr hlate)

/-- The detection flags a session that the call before it gave to an owner or kept for one, within
the threshold of 15 ticks. -/
def FlagsLiving (earlier : List LeaseCall) (e c : LeaseCall) : Prop :=
  InOrder (earlier ++ [e] ++ [c]) ∧
    ¬ SparesLiving plainFingerprint (ProvesLife plainFingerprint) (init 5 15) (earlier ++ [e]) c

theorem flagsLiving_of {e c : LeaseCall} (h : InOrder (earlier ++ [e] ++ [c]) ∧
      (flagged ((machine plainFingerprint).run (init 5 15) (earlier ++ [e])) c).map
        (fun z => z.sessionId) = ["s"] ∧
      ProvesLife plainFingerprint ((machine plainFingerprint).run (init 5 15) earlier) e "s" ∧
      c.currentTick - 15 < e.currentTick) : FlagsLiving earlier e c := by
  obtain ⟨hord, hflag, halive, hlate⟩ := h
  exact ⟨hord, not_sparesLiving "s" hflag halive hlate⟩

def heldCalls : List LeaseCall := [.acquireLease "s" "A" 1 (some 100) false []]

/-- A renewal without a heartbeat, a takeover, an acquisition of an expired session, a heartbeat at
tick 0. -/
theorem ownership_no_sign :
    FlagsLiving heldCalls (.renewLease oldLease "A" 20 none false) (.detectZombies 20) ∧
    FlagsLiving heldCalls (.takeoverSession "s" "B" 20 "idle" none) (.detectZombies 20) ∧
    FlagsLiving [.acquireLease "s" "A" 1 none false []] (.acquireLease "s" "B" 20 none false [])
      (.detectZombies 20) ∧
    FlagsLiving [.acquireLease "s" "A" (-20) (some 100) false []] (.heartbeat "s" "A" 0)
      (.detectZombies 0) := by
  refine ⟨flagsLiving_of ?_, flagsLiving_of ?_, flagsLiving_of ?_, flagsLiving_of ?_⟩
  all_goals decide +kernel

end RuntimeSessionLeaseRegistry
end Lease
end ZeroRuntime
