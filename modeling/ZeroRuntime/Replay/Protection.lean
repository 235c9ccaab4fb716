import Mathlib.Data.List.Count
import ZeroRuntime.Lib.Machine
import ZeroRuntime.Lib.Sorted
import ZeroRuntime.Lib.Value

/-!
# ZeroRuntime.Replay.Protection

Replay protection for worker evidence (`core/runtime/runtime_replay_protection.py`).

* Points of time are microseconds since the first instant a `datetime` can name.
  `datetime.fromisoformat`, with the step to UTC after it, is the parameter `fromIsoFormat`: it
  answers a point of time, nothing for a text it cannot read, or raises when the shift to UTC
  leaves the calendar.
* `verify` reads the clock once, checks timestamp and nonce, and consumes the nonce at the end.
* `replay_protected`: over any run of calls on one store, by protections of any windows and any
  clocks, a nonce is consumed once, what is accepted is fresh, and nothing else touches the store.
-/

namespace ZeroRuntime
namespace Replay

open Lib

/-! ## Points of time -/

/-- The instants of the years 1 to 9999. -/
def lastInstant : Int := 315537897599999999

def ofSeconds (seconds : Nat) : Int := seconds * 1000000

/-- `timedelta(seconds=seconds)` holds at most 999999999 days. -/
def timedelta (seconds : Nat) : Except Err Int :=
  if seconds ≤ 86399999999999 then .ok (ofSeconds seconds)
  else .error (.raised "days out of range for timedelta")

/-- The sum of a `datetime` and a `timedelta`. -/
def shift (t : Int) (delta : Int) : Except Err Int :=
  if 0 ≤ t + delta ∧ t + delta ≤ lastInstant then .ok (t + delta)
  else .error (.raised "date value out of range")

theorem timedelta_eq_ok {seconds : Nat} {d : Int} (h : timedelta seconds = .ok d) :
    d = ofSeconds seconds := by
  unfold timedelta at h
  split at h
  · exact (Except.ok.inj h).symm
  · cases h

theorem shift_eq_ok {t t' : Int} {delta : Int} (h : shift t delta = .ok t') :
    t' = t + delta := by
  unfold shift at h
  split at h
  · exact (Except.ok.inj h).symm
  · cases h

/-! ## The nonce store -/

structure NonceCheck where
  ok : Bool
  nonce : String
  seen : Bool
  reasons : List String
  consumed : Bool := false

/-- `RuntimeReplayNonceStore`, with the nonces of `_seen`. -/
structure RuntimeReplayNonceStore where
  seen : List String := []

namespace RuntimeReplayNonceStore

variable (store : RuntimeReplayNonceStore)

def ofInitial (initialNonces : List Val) : RuntimeReplayNonceStore :=
  { seen := (initialNonces.map Val.text).filter (· ≠ "") }

def check (nonce : Val) : NonceCheck :=
  let nonceText := nonce.text
  let reasons :=
    if nonceText = "" then ["missing_nonce"]
    else if nonceText ∈ store.seen then ["reused_nonce"]
    else []
  { ok := reasons.isEmpty
    nonce := nonceText
    seen := nonceText ≠ "" && store.seen.contains nonceText
    reasons := sortedSet reasons }

def consume (nonce : Val) : NonceCheck × RuntimeReplayNonceStore :=
  let checked := store.check nonce
  if checked.ok then
    ({ checked with consumed := true }, { store with seen := store.seen.insert checked.nonce })
  else ({ checked with consumed := false }, store)

end RuntimeReplayNonceStore

/-! ## Verifying -/

structure RuntimeReplayProtection where
  freshnessWindowSeconds : Nat := 300
  futureSkewSeconds : Nat := 30
  /-- The time given to the constructor, when it could be read. -/
  now : Option Int := none

/-- What `verify` answers. -/
structure Verdict where
  protection : RuntimeReplayProtection
  now : Int
  timestamp : String
  nonce : String
  ok : Bool
  consumed : Bool
  reasons : List String

section Verify

variable (fromIsoFormat : String → Except Err (Option Int))

def parseTimestamp (value : Val) : Except Err (Option Int) :=
  let text := value.text
  if text = "" then .ok none else fromIsoFormat text

/-- The constructor, `max(0, int(seconds))` being `Int.toNat`. -/
def RuntimeReplayProtection.create (freshnessWindowSeconds futureSkewSeconds : Int) (now : Val) :
    Except Err RuntimeReplayProtection := do
  let now ← parseTimestamp fromIsoFormat now
  return { freshnessWindowSeconds := freshnessWindowSeconds.toNat
           futureSkewSeconds := futureSkewSeconds.toNat, now := now }

/-- The reasons a timestamp that could be read gives. -/
def timestampReasons (p : RuntimeReplayProtection) (issuedAt now : Int) :
    Except Err (List String) := do
  let window ← timedelta p.freshnessWindowSeconds
  let oldest ← shift now (-window)
  let skew ← timedelta p.futureSkewSeconds
  let newest ← shift now skew
  return (if issuedAt < oldest then ["stale_timestamp"] else []) ++
    (if issuedAt > newest then ["future_timestamp"] else [])

/-- The checks of `verify`: the timestamp's text, the nonce and the reasons. -/
def checks (p : RuntimeReplayProtection) (store : RuntimeReplayNonceStore)
    (payload : List (String × Val)) (now : Int) :
    Except Err (String × String × List String) := do
  let timestampText := ((Val.getIn "timestamp" payload).orElse (Val.getIn "issued_at" payload)).text
  let issuedAt ← (if timestampText = "" then .ok none
    else parseTimestamp fromIsoFormat (.str timestampText))
  let timestampFound :=
    if timestampText = "" then ["missing_timestamp"]
    else if issuedAt.isNone then ["invalid_timestamp"]
    else []
  let nonce := ((Val.getIn "nonce" payload).orElse (Val.getIn "evidence_id" payload)).text
  let nonceCheck := store.check (.str nonce)
  let window ← (match issuedAt with
    | some issuedAt => timestampReasons p issuedAt now
    | none => .ok [])
  return (timestampText, nonce, timestampFound ++ nonceCheck.reasons ++ window)

/-- `verify`, at the reading `clock` of the clock. -/
def verify (p : RuntimeReplayProtection) (store : RuntimeReplayNonceStore) (evidence : Val)
    (consume : Bool) (clock : Int) : Except Err Verdict × RuntimeReplayNonceStore :=
  let now := p.now.getD clock
  match checks fromIsoFormat p store evidence.entries now with
  | .error e => (.error e, store)
  | .ok (timestamp, nonce, reasons) =>
    if reasons.isEmpty && consume then
      let (result, store) := store.consume (.str nonce)
      (.ok
        { protection := p, now := now, timestamp := timestamp, nonce := nonce, ok := result.ok
          consumed := result.consumed
          reasons := sortedSet (if result.ok then [] else result.reasons) }, store)
    else
      (.ok
        { protection := p, now := now, timestamp := timestamp, nonce := nonce
          ok := reasons.isEmpty, consumed := false, reasons := sortedSet reasons }, store)

/-- One call of `verify`. -/
structure Call where
  protection : RuntimeReplayProtection
  evidence : Val
  consume : Bool := true
  clock : Int

/-- A nonce store shared by any number of protections. -/
def replayProtection : Machine RuntimeReplayNonceStore Call (Except Err Verdict) :=
  ⟨fun store c => verify fromIsoFormat c.protection store c.evidence c.consume c.clock⟩

end Verify

/-! ## What is accepted -/

variable {store : RuntimeReplayNonceStore}

theorem check_ok {nonce : Val} :
    (store.check nonce).ok = true ↔ nonce.text ≠ "" ∧ nonce.text ∉ store.seen := by
  unfold RuntimeReplayNonceStore.check
  by_cases hempty : nonce.text = ""
  · simp [hempty]
  · by_cases hseen : nonce.text ∈ store.seen <;> simp [hempty, hseen]

theorem check_reasons_nil {nonce : Val} :
    (store.check nonce).reasons = [] ↔ (store.check nonce).ok = true := by
  unfold RuntimeReplayNonceStore.check
  simp only [sortedSet_eq_nil, List.isEmpty_iff]

variable {fromIsoFormat : String → Except Err (Option Int)}

/-- The time of a message against the windows of a protection. -/
def Fresh (p : RuntimeReplayProtection) (issuedAt now : Int) : Prop :=
  now - ofSeconds p.freshnessWindowSeconds ≤ issuedAt ∧
    issuedAt ≤ now + ofSeconds p.futureSkewSeconds

variable {p : RuntimeReplayProtection}

theorem fresh_of_timestampReasons {issuedAt now : Int}
    (h : timestampReasons p issuedAt now = .ok []) : Fresh p issuedAt now := by
  obtain ⟨window, hwindow, h⟩ := bind_eq_ok.mp h
  obtain ⟨oldest, holdest, h⟩ := bind_eq_ok.mp h
  obtain ⟨skew, hskew, h⟩ := bind_eq_ok.mp h
  obtain ⟨newest, hnewest, h⟩ := bind_eq_ok.mp h
  obtain ⟨hstale, hfuture⟩ := List.append_eq_nil_iff.mp (Except.ok.inj h)
  have hge : ¬issuedAt < oldest := fun hlt => by simp [hlt] at hstale
  have hle : ¬issuedAt > newest := fun hgt => by simp [hgt] at hfuture
  rw [shift_eq_ok holdest, timedelta_eq_ok hwindow] at hge
  rw [shift_eq_ok hnewest, timedelta_eq_ok hskew] at hle
  unfold Fresh
  omega

/-- The checks give no reason only for a fresh message with a nonce not seen before. -/
theorem checks_nil {payload : List (String × Val)} {now : Int} {timestamp nonce : String}
    (h : checks fromIsoFormat p store payload now = .ok (timestamp, nonce, [])) :
    (store.check (.str nonce)).ok = true ∧ (Val.str nonce).text = nonce ∧
      ∃ issuedAt, fromIsoFormat timestamp = .ok (some issuedAt) ∧ Fresh p issuedAt now := by
  obtain ⟨issuedAt, hissued, h⟩ := bind_eq_ok.mp h
  obtain ⟨window, hwindow, h⟩ := bind_eq_ok.mp h
  have hanswer := Except.ok.inj h
  simp only [Prod.mk.injEq, List.append_eq_nil_iff] at hanswer
  obtain ⟨rfl, rfl, ⟨hfound, hnonce⟩, rfl⟩ := hanswer
  refine ⟨check_reasons_nil.mp hnonce, by rw [Val.text_str, Val.strip_text], ?_⟩
  have htext : ((Val.getIn "timestamp" payload).orElse (Val.getIn "issued_at" payload)).text ≠ "" :=
    fun hempty => by simp [hempty] at hfound
  rw [if_neg htext] at hissued hfound
  cases issuedAt with
  | none => simp at hfound
  | some issuedAt =>
    refine ⟨issuedAt, ?_, fresh_of_timestampReasons hwindow⟩
    rw [parseTimestamp, Val.text_str, Val.strip_text, if_neg htext] at hissued
    exact hissued

/-- What one call does: it takes an unseen nonce from a fresh message into the store, or leaves the
store alone. -/
theorem verify_cases (p : RuntimeReplayProtection) (store : RuntimeReplayNonceStore)
    (evidence : Val) (consume : Bool) (clock : Int) :
    ((verify fromIsoFormat p store evidence consume clock).2 = store ∧
      ∀ v, (verify fromIsoFormat p store evidence consume clock).1 = .ok v →
        v.ok = true → consume = false) ∨
    ∃ v, verify fromIsoFormat p store evidence consume clock =
        (.ok v, { seen := store.seen.insert v.nonce }) ∧
      consume = true ∧ v.ok = true ∧ v.nonce ∉ store.seen := by
  unfold verify
  dsimp only
  cases hchecks : checks fromIsoFormat p store evidence.entries (p.now.getD clock) with
  | error e => exact .inl ⟨rfl, fun v h => by cases h⟩
  | ok found =>
    obtain ⟨timestamp, nonce, reasons⟩ := found
    dsimp only
    by_cases hpass : (reasons.isEmpty && consume) = true
    · obtain ⟨hreasons, hconsume⟩ := Bool.and_eq_true_iff.mp hpass
      rw [List.isEmpty_iff] at hreasons
      subst hreasons
      obtain ⟨hok, htext, -⟩ := checks_nil hchecks
      have hnonce : nonce ∉ store.seen := by
        rw [check_ok, htext] at hok
        exact hok.2
      have hconsumed : store.consume (.str nonce) =
          ({ store.check (.str nonce) with consumed := true },
            { seen := store.seen.insert nonce }) := by
        have hchecked : (store.check (.str nonce)).nonce = nonce := htext
        rw [RuntimeReplayNonceStore.consume, if_pos hok, hchecked]
        dsimp only
        rw [hchecked]
      rw [if_pos hpass, hconsumed]
      exact .inr ⟨_, rfl, hconsume, hok, hnonce⟩
    · rw [if_neg hpass]
      refine .inl ⟨rfl, fun v hv hvok => ?_⟩
      obtain rfl := Except.ok.inj hv
      rw [Bool.and_eq_true, not_and, Bool.not_eq_true] at hpass
      exact hpass hvok

/-- A message that is accepted is fresh. -/
theorem fresh_of_verify {evidence : Val} {consume : Bool} {clock : Int} {v : Verdict}
    (h : (verify fromIsoFormat p store evidence consume clock).1 = .ok v) (hok : v.ok = true) :
    v.now = p.now.getD clock ∧
      ∃ issuedAt, fromIsoFormat v.timestamp = .ok (some issuedAt) ∧ Fresh p issuedAt v.now := by
  unfold verify at h
  dsimp only at h
  cases hchecks : checks fromIsoFormat p store evidence.entries (p.now.getD clock) with
  | error e =>
    rw [hchecks] at h
    cases h
  | ok found =>
    obtain ⟨timestamp, nonce, reasons⟩ := found
    rw [hchecks] at h
    dsimp only at h
    have hreasons : reasons = [] := by
      by_cases hempty : reasons.isEmpty = true
      · exact List.isEmpty_iff.mp hempty
      · rw [if_neg (by simp [hempty])] at h
        obtain rfl := Except.ok.inj h
        exact absurd hok hempty
    subst hreasons
    have hfresh := (checks_nil hchecks).2.2
    split at h
    all_goals
      obtain rfl := Except.ok.inj h
      exact ⟨rfl, hfresh⟩

/-! ## Runs -/

def accepts (nonce : String) (answer : Call × Except Err Verdict) : Bool :=
  match answer.2 with
  | .ok v => v.ok && answer.1.consume && v.nonce == nonce
  | .error _ => false

/-- A nonce is consumed once at most, and never when it was in the store before. -/
theorem consumed_once (nonce : String) (calls : List Call) (store : RuntimeReplayNonceStore) :
    ((replayProtection fromIsoFormat).outputs store calls).countP (accepts nonce) +
      (if nonce ∈ store.seen then 1 else 0) ≤ 1 := by
  induction calls generalizing store with
  | nil =>
    simp only [Machine.outputs, List.countP_nil]
    split <;> omega
  | cons c calls ih =>
    have hrest := ih ((replayProtection fromIsoFormat).step store c).2
    simp only [Machine.outputs, List.countP_cons]
    rcases @verify_cases fromIsoFormat c.protection store c.evidence c.consume
      c.clock with ⟨hstore, hanswer⟩ | ⟨v, hverify, hconsume, hok, hnew⟩
    · have hnot : accepts nonce (c, ((replayProtection fromIsoFormat).step store c).1) = false := by
        unfold accepts
        cases h : ((replayProtection fromIsoFormat).step store c).1 with
        | error e => rfl
        | ok v =>
          cases hok : v.ok with
          | false => simp [hok]
          | true => simp [hanswer v h hok]
      have hkept : ((replayProtection fromIsoFormat).step store c).2 = store := hstore
      rw [hkept] at hrest ⊢
      rw [hnot]
      simpa using hrest
    · have hstep : (replayProtection fromIsoFormat).step store c =
          (.ok v, { seen := store.seen.insert v.nonce }) := hverify
      rw [hstep] at hrest ⊢
      by_cases hsame : v.nonce = nonce
      · subst hsame
        have haccepts : accepts v.nonce (c, .ok v) = true := by simp [accepts, hok, hconsume]
        rw [if_pos List.mem_insert_self] at hrest
        rw [if_pos haccepts, if_neg hnew]
        omega
      · have hnot : accepts nonce (c, .ok v) = false := by simp [accepts, hsame]
        have hmem : nonce ∈ store.seen.insert v.nonce ↔ nonce ∈ store.seen := by
          rw [List.mem_insert_iff]
          exact or_iff_right fun h => hsame h.symm
        simp only [hmem] at hrest
        rw [hnot]
        simpa using hrest

variable (fromIsoFormat) in
/-- What a call may do: accept a fresh message, and touch the store only when it accepts one that is
to be consumed. -/
def Sound (store : RuntimeReplayNonceStore) (c : Call) : Prop :=
  (∀ v, ((replayProtection fromIsoFormat).step store c).1 = .ok v → v.ok = true →
    ∃ issuedAt, fromIsoFormat v.timestamp = .ok (some issuedAt) ∧
      Fresh c.protection issuedAt (c.protection.now.getD c.clock)) ∧
  ((∀ v, ((replayProtection fromIsoFormat).step store c).1 = .ok v → v.ok = true →
    c.consume = false) → ((replayProtection fromIsoFormat).step store c).2 = store)

theorem sound_step (store : RuntimeReplayNonceStore) (c : Call) : Sound fromIsoFormat store c := by
  refine ⟨fun v hv hok => ?_, fun h => ?_⟩
  · obtain ⟨hnow, issuedAt, hissued, hfresh⟩ := fresh_of_verify hv hok
    exact ⟨issuedAt, hissued, hnow ▸ hfresh⟩
  · rcases @verify_cases fromIsoFormat c.protection store c.evidence c.consume
      c.clock with ⟨hstore, -⟩ | ⟨v, hverify, hconsume, hok, -⟩
    · exact hstore
    · have hanswer : ((replayProtection fromIsoFormat).step store c).1 = .ok v :=
        congrArg Prod.fst hverify
      have hfalse := h v hanswer hok
      rw [hconsume] at hfalse
      cases hfalse

/-- Over any calls on one store: a nonce is accepted and consumed at most once, a message that is
accepted lies within the windows of its protection, and a call that rejects, raises or does not
consume leaves the store alone. -/
theorem replay_protected (fromIsoFormat : String → Except Err (Option Int))
    (store : RuntimeReplayNonceStore) (calls : List Call) :
    (∀ nonce, ((replayProtection fromIsoFormat).outputs store calls).countP (accepts nonce) ≤ 1) ∧
    (replayProtection fromIsoFormat).Guarded (Sound fromIsoFormat) store calls := by
  refine ⟨fun nonce => ?_, Machine.guarded_iff_prefix.mpr fun before c _ => sound_step _ c⟩
  have hcount := @consumed_once fromIsoFormat nonce calls store
  omega

end Replay
end ZeroRuntime
