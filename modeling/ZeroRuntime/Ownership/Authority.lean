import ZeroRuntime.Lib.PathText
import ZeroRuntime.Ownership.Fabric

/-!
# ZeroRuntime.Ownership.Authority

What an allowed use of a capability is worth, in runs of calls to the fabric.

* `Lawful`: what is allowed is the registered owner's, was granted, and stays within the paths of
  the runtime, read as paths; and the runtime was not stopped before.
* `Spelled`: a runtime is stopped under its own id, without spaces around it.
* `Agrees`: the owner is the registered one, and the target starts with the paths that it lies in.
* `lawful_iff_agrees`: where runtimes are stopped under their own ids, the two are the same in runs.
-/

namespace ZeroRuntime
namespace Ownership

open Lib PathText

/-! ## Runs -/

inductive Call where
  | register (a : RegisterArgs)
  | quarantine (runtimeId reason : String) (restrictedCapabilities blockedSessions : List String)
  | isolate (runtimeId reason : String)
  | freeze (runtimeId reason : String)
  | authorize (runtimeId capability target ownerId : String)

inductive Answer where
  | record (r : RuntimeOwnershipRecord)
  | decision (d : RuntimeAuthorityDecision)

/-- A fabric that is watched: what was registered, and which runtimes were stopped. -/
structure Watched where
  fabric : Fabric
  registrations : Dict String RegisterArgs
  stopped : List String

def Watched.start : Watched := ⟨Fabric.empty, Dict.empty, []⟩

/-- A runtime was stopped, if the call returned. -/
def Watched.stop (w : Watched) (runtimeId : String) :
    Except Err (RuntimeOwnershipRecord × Fabric) → Except Err Answer × Watched
  | .error err => (.error err, w)
  | .ok (r, fabric) =>
    (.ok (.record r), { w with fabric, stopped := w.stopped ++ [Text.strip runtimeId] })

def Watched.call (w : Watched) : Call → Except Err Answer × Watched
  | .register a =>
    match registerRuntime w.fabric a with
    | .error err => (.error err, w)
    | .ok (r, fabric) =>
      (.ok (.record r), { w with fabric, registrations := w.registrations.set r.runtimeId a })
  | .quarantine runtimeId reason restrictedCapabilities blockedSessions =>
    w.stop runtimeId
      (quarantineRuntime w.fabric runtimeId reason restrictedCapabilities blockedSessions)
  | .isolate runtimeId reason => w.stop runtimeId (isolateRuntime w.fabric runtimeId reason)
  | .freeze runtimeId reason => w.stop runtimeId (freezeRuntime w.fabric runtimeId reason)
  | .authorize runtimeId capability target ownerId =>
    match authorize w.fabric runtimeId capability target ownerId with
    | .error err => (.error err, w)
    | .ok (d, fabric) => (.ok (.decision d), { w with fabric })

def watchedFabric : Machine Watched Call (Except Err Answer) := ⟨Watched.call⟩

/-! ## The law -/

/-- What `a` registered makes of a target and a capability, with targets read as paths. -/
structure Entitled (a : RegisterArgs) (capability target ownerId : String) : Prop where
  owner : Text.strip ownerId = Text.strip a.ownerId
  granted : capability ∈ a.capabilities
  denied : ∀ p ∈ a.deniedPaths, ¬LiesIn target p
  allowed : a.allowedPaths ≠ [] → ∃ p ∈ a.allowedPaths, LiesIn target p

def Lawful (w : Watched) : Call → Prop
  | .authorize runtimeId capability target ownerId =>
    ∀ d, (w.call (.authorize runtimeId capability target ownerId)).1 = .ok (.decision d) →
      d.decision = .allow →
        Text.strip runtimeId ∉ w.stopped ∧
          ∃ a, w.registrations.get? (Text.strip runtimeId) = some a ∧
            Entitled a capability target ownerId
  | _ => True

/-! ## What a call must be like -/

/-- A runtime is stopped under its own id. -/
def Spelled : Call → Prop
  | .quarantine runtimeId _ _ _ | .isolate runtimeId _ | .freeze runtimeId _ =>
    Text.strip runtimeId = runtimeId
  | _ => True

instance (c : Call) : Decidable (Spelled c) := by
  cases c <;> unfold Spelled <;> infer_instance

/-- The paths of a runtime, as the beginnings of texts, let the target through. -/
structure LetThrough (a : RegisterArgs) (target : String) : Prop where
  denied : a.deniedPaths.any (Text.startsWith target) = false
  allowed : a.allowedPaths ≠ [] → a.allowedPaths.any (Text.startsWith target) = true

/-- The target starts with the denied paths it lies in, and lies in an allowed path if it starts
with one. -/
structure ReadingsAgree (a : RegisterArgs) (target : String) : Prop where
  denied : ∀ p ∈ a.deniedPaths, LiesIn target p → a.deniedPaths.any (Text.startsWith target) = true
  allowed : a.allowedPaths.any (Text.startsWith target) = true →
    ∃ p ∈ a.allowedPaths, LiesIn target p

/-- A use that is let through is the owner's, and its target means what its text says. -/
def Agrees (w : Watched) : Call → Prop
  | .authorize runtimeId capability target ownerId =>
    ∀ a, w.registrations.get? (Text.strip runtimeId) = some a →
      Text.strip runtimeId ∉ w.stopped → capability ∈ a.capabilities → LetThrough a target →
        Text.strip ownerId = Text.strip a.ownerId ∧ ReadingsAgree a target
  | _ => True

/-! ## What runs keep -/

/-- A record is what was registered, and it is active until the runtime is stopped. -/
structure Holds (w : Watched) (id : String) (r : RuntimeOwnershipRecord) : Prop where
  named : id ≠ ""
  registered : ∃ a, w.registrations.get? id = some a ∧
    r.capabilityScope.capabilities = a.capabilities ∧
    r.capabilityScope.allowedPaths = a.allowedPaths ∧
    r.capabilityScope.deniedPaths = a.deniedPaths
  active : r.status = .active ↔ id ∉ w.stopped

structure Kept (w : Watched) : Prop where
  records : ∀ id r, w.fabric.ownerships.get? id = some r → Holds w id r
  registered : ∀ id a, w.registrations.get? id = some a →
    ∃ r, w.fabric.ownerships.get? id = some r
  stopped : ∀ id ∈ w.stopped, ∃ r, w.fabric.ownerships.get? id = some r

theorem kept_start : Kept Watched.start where
  records _ _ h := by cases h
  registered _ _ h := by cases h
  stopped _ h := by cases h

theorem validateText_ok {fieldName value text : String}
    (h : validateText fieldName value = .ok text) :
    text = Text.strip value ∧ text ≠ "" := by
  unfold validateText at h
  dsimp only at h
  split at h
  · cases h
  · rename_i hne
    cases h
    exact ⟨rfl, hne⟩

variable {runtimeId : String} {r : RuntimeOwnershipRecord}

theorem getRuntime_ok {f : Fabric} (h : getRuntime f runtimeId = .ok r) :
    f.ownerships.get? (Text.strip runtimeId) = some r := by
  obtain ⟨id, hid, h⟩ := bind_eq_ok.mp h
  rw [(validateText_ok hid).1] at h
  split at h
  · cases h
  · rename_i record hrecord
    cases h
    exact hrecord

/-- What a registration writes. -/
theorem registerRuntime_ok {f f' : Fabric} {a : RegisterArgs}
    (h : registerRuntime f a = .ok (r, f')) :
    r.runtimeId ≠ "" ∧ f.ownerships.get? r.runtimeId = none ∧
      f'.ownerships = f.ownerships.set r.runtimeId r ∧ r.status = .active ∧
      r.capabilityScope.capabilities = a.capabilities ∧
      r.capabilityScope.allowedPaths = a.allowedPaths ∧
      r.capabilityScope.deniedPaths = a.deniedPaths := by
  obtain ⟨id, hid, h⟩ := bind_eq_ok.mp h
  obtain ⟨nameSpace, -, h⟩ := bind_eq_ok.mp h
  obtain ⟨ownerId, -, h⟩ := bind_eq_ok.mp h
  split at h
  · cases h
  · rename_i hnew
    cases h
    refine ⟨(validateText_ok hid).2, ?_, rfl, rfl, rfl, rfl, rfl⟩
    rw [Dict.contains, Bool.not_eq_true, Option.isSome_eq_false_iff,
      Option.isNone_iff_eq_none] at hnew
    exact hnew

variable {status : RuntimeStatus}

/-- What stopping a runtime writes. -/
theorem stopRuntime_ok {f f' : Fabric} {restrict : Restriction} {u : RuntimeOwnershipRecord}
    (h : stopRuntime f runtimeId status restrict = .ok (u, f')) :
    ∃ r, f.ownerships.get? (Text.strip runtimeId) = some r ∧ u.status = status ∧
      u.capabilityScope = r.capabilityScope ∧ f'.ownerships = f.ownerships.set runtimeId u := by
  obtain ⟨r, hr, h⟩ := bind_eq_ok.mp h
  cases h
  exact ⟨r, getRuntime_ok hr, rfl, rfl, rfl⟩

variable {target : String}

theorem authorize_ok {f f' : Fabric} {capability ownerId : String} {d : RuntimeAuthorityDecision}
    (h : authorize f runtimeId capability target ownerId = .ok (d, f')) :
    ∃ r, f.ownerships.get? (Text.strip runtimeId) = some r ∧
      d.decision = (decisionFor r capability target).1 ∧ f'.ownerships = f.ownerships := by
  obtain ⟨r, hr, h⟩ := bind_eq_ok.mp h
  cases h
  exact ⟨r, getRuntime_ok hr, rfl, rfl⟩

section Answers

variable {w : Watched} {fabric : Fabric}

theorem call_register_error {a : RegisterArgs} {err : Err}
    (h : registerRuntime w.fabric a = .error err) : w.call (.register a) = (.error err, w) := by
  unfold Watched.call
  dsimp only
  rw [h]

theorem call_register_ok {a : RegisterArgs} {r : RuntimeOwnershipRecord}
    (h : registerRuntime w.fabric a = .ok (r, fabric)) :
    w.call (.register a) =
      (.ok (.record r), { w with fabric, registrations := w.registrations.set r.runtimeId a }) := by
  unfold Watched.call
  dsimp only
  rw [h]

theorem call_authorize_error {runtimeId capability target ownerId : String} {err : Err}
    (h : authorize w.fabric runtimeId capability target ownerId = .error err) :
    w.call (.authorize runtimeId capability target ownerId) = (.error err, w) := by
  unfold Watched.call
  dsimp only
  rw [h]

theorem call_authorize_ok {runtimeId capability target ownerId : String}
    {d : RuntimeAuthorityDecision}
    (h : authorize w.fabric runtimeId capability target ownerId = .ok (d, fabric)) :
    w.call (.authorize runtimeId capability target ownerId) =
      (.ok (.decision d), { w with fabric }) := by
  unfold Watched.call
  dsimp only
  rw [h]

end Answers

variable {w : Watched}

theorem kept_register (hw : Kept w) (a : RegisterArgs) : Kept (w.call (.register a)).2 := by
  cases hcall : registerRuntime w.fabric a with
  | error err =>
    rw [call_register_error hcall]
    exact hw
  | ok result =>
    obtain ⟨r, fabric⟩ := result
    rw [call_register_ok hcall]
    obtain ⟨hnamed, hnew, hset, hactive, hscope⟩ := registerRuntime_ok hcall
    have hstopped : r.runtimeId ∉ w.stopped := by
      intro h
      obtain ⟨r', hr'⟩ := hw.stopped _ h
      rw [hnew] at hr'
      cases hr'
    refine ⟨fun id r' hr' => ?_, fun id a' ha' => ?_, fun id hid => ?_⟩
    · dsimp only at hr' ⊢
      rw [hset, Dict.get?_set] at hr'
      by_cases hid : id = r.runtimeId
      · rw [if_pos hid] at hr'
        cases hr'
        refine ⟨hid ▸ hnamed, ⟨a, ?_, hscope⟩, ?_⟩
        · dsimp only
          rw [Dict.get?_set, if_pos hid]
        · rw [hid]
          exact iff_of_true hactive hstopped
      · rw [if_neg hid] at hr'
        obtain ⟨hnamed', ⟨a', ha', hscope'⟩, hactive'⟩ := hw.records id r' hr'
        refine ⟨hnamed', ⟨a', ?_, hscope'⟩, hactive'⟩
        dsimp only
        rw [Dict.get?_set, if_neg hid]
        exact ha'
    · dsimp only at ha' ⊢
      rw [hset, Dict.get?_set]
      rw [Dict.get?_set] at ha'
      by_cases hid : id = r.runtimeId
      · rw [if_pos hid]
        exact ⟨r, rfl⟩
      · rw [if_neg hid] at ha' ⊢
        exact hw.registered id a' ha'
    · dsimp only at hid ⊢
      obtain ⟨r', hr'⟩ := hw.stopped id hid
      rw [hset, Dict.get?_set]
      split
      · exact ⟨r, rfl⟩
      · exact ⟨r', hr'⟩

theorem kept_stop (hw : Kept w) (hid : Text.strip runtimeId = runtimeId)
    (hstatus : status ≠ .active) (restrict : Restriction) :
    Kept (w.stop runtimeId (stopRuntime w.fabric runtimeId status restrict)).2 := by
  cases hcall : stopRuntime w.fabric runtimeId status restrict with
  | error err => exact hw
  | ok result =>
    obtain ⟨u, fabric⟩ := result
    obtain ⟨r, hr, hu, hscope, hset⟩ := stopRuntime_ok hcall
    rw [hid] at hr
    have hstopped : ∀ id,
        id ∈ w.stopped ++ [Text.strip runtimeId] ↔ id ∈ w.stopped ∨ id = runtimeId := by
      intro id
      rw [List.mem_append, List.mem_singleton, hid]
    refine ⟨fun id r' hr' => ?_, fun id a ha => ?_, fun id hmem => ?_⟩
    · change fabric.ownerships.get? id = some r' at hr'
      rw [hset, Dict.get?_set] at hr'
      by_cases heq : id = runtimeId
      · rw [if_pos heq] at hr'
        cases hr'
        obtain ⟨hnamed, ⟨a, ha, hcaps, hallowed, hdenied⟩, -⟩ := hw.records runtimeId r hr
        refine ⟨heq ▸ hnamed, ⟨a, heq ▸ ha, ?_, ?_, ?_⟩, ?_⟩
        · rw [hscope]
          exact hcaps
        · rw [hscope]
          exact hallowed
        · rw [hscope]
          exact hdenied
        · refine iff_of_false (hu ▸ hstatus) (not_not.mpr ?_)
          exact (hstopped id).mpr (.inr heq)
      · rw [if_neg heq] at hr'
        obtain ⟨hnamed, hregistered, hactive⟩ := hw.records id r' hr'
        refine ⟨hnamed, hregistered, hactive.trans (not_congr ?_)⟩
        rw [Watched.stop]
        exact ((hstopped id).trans (or_iff_left heq)).symm
    · change ∃ r', fabric.ownerships.get? id = some r'
      rw [hset, Dict.get?_set]
      split
      · exact ⟨u, rfl⟩
      · exact hw.registered id a ha
    · change ∃ r', fabric.ownerships.get? id = some r'
      rw [hset, Dict.get?_set]
      split
      · exact ⟨u, rfl⟩
      · rename_i hne
        exact hw.stopped id (((hstopped id).mp hmem).resolve_right hne)

theorem kept_authorize (hw : Kept w) (runtimeId capability target ownerId : String) :
    Kept (w.call (.authorize runtimeId capability target ownerId)).2 := by
  cases hcall : authorize w.fabric runtimeId capability target ownerId with
  | error err =>
    rw [call_authorize_error hcall]
    exact hw
  | ok result =>
    obtain ⟨d, fabric⟩ := result
    rw [call_authorize_ok hcall]
    obtain ⟨r, -, -, hsame⟩ := authorize_ok hcall
    refine ⟨fun id r' hr' => ?_, fun id a ha => ?_, fun id hid => ?_⟩
    · change fabric.ownerships.get? id = some r' at hr'
      rw [hsame] at hr'
      obtain ⟨hnamed, hregistered, hactive⟩ := hw.records id r' hr'
      exact ⟨hnamed, hregistered, hactive⟩
    · change ∃ r', fabric.ownerships.get? id = some r'
      rw [hsame]
      exact hw.registered id a ha
    · change ∃ r', fabric.ownerships.get? id = some r'
      rw [hsame]
      exact hw.stopped id hid

theorem kept_step {c : Call} (hw : Kept w) (hc : Spelled c) : Kept (w.call c).2 := by
  cases c with
  | register a => exact kept_register hw a
  | quarantine runtimeId reason restrictedCapabilities blockedSessions =>
    exact kept_stop hw hc (by decide) _
  | isolate runtimeId reason => exact kept_stop hw hc (by decide) _
  | freeze runtimeId reason => exact kept_stop hw hc (by decide) _
  | authorize runtimeId capability target ownerId =>
    exact kept_authorize hw runtimeId capability target ownerId

/-! ## What is allowed -/

theorem decisionFor_allow {capability : String} :
    (decisionFor r capability target).1 = .allow ↔
      r.status = .active ∧ capability ∈ r.capabilityScope.capabilities ∧
        r.capabilityScope.deniedPaths.any (Text.startsWith target) = false ∧
        (r.capabilityScope.allowedPaths ≠ [] →
          r.capabilityScope.allowedPaths.any (Text.startsWith target) = true) := by
  have hstatus : r.status ∉ [RuntimeStatus.quarantined, .isolated, .frozen] ↔
      r.status = .active := by
    cases r.status <;> decide
  unfold decisionFor
  dsimp only
  rw [← hstatus]
  split
  · rename_i hstop
    exact iff_of_false (by intro h; cases h) fun h => h.1 hstop
  rename_i hactive
  split
  · rename_i hmissing
    exact iff_of_false (by intro h; cases h) fun h => hmissing h.2.1
  rename_i hgranted
  split
  · rename_i hdenied
    refine iff_of_false (by intro h; cases h) fun h => ?_
    rw [hdenied] at h
    cases h.2.2.1
  rename_i hdenied
  split
  · rename_i houtside
    exact iff_of_false (by intro h; cases h) fun h => houtside.2 (h.2.2.2 houtside.1)
  · rename_i hinside
    refine iff_of_true rfl
      ⟨hactive, not_not.mp hgranted, Bool.eq_false_iff.mpr hdenied, fun hne => ?_⟩
    by_contra hnone
    exact hinside ⟨hne, hnone⟩

theorem decided {w : Watched} (hw : Kept w) {runtimeId capability target ownerId : String} :
    (∃ d, (w.call (.authorize runtimeId capability target ownerId)).1 = .ok (.decision d) ∧
        d.decision = .allow) ↔
      ∃ a, w.registrations.get? (Text.strip runtimeId) = some a ∧
        Text.strip runtimeId ∉ w.stopped ∧ capability ∈ a.capabilities ∧ LetThrough a target := by
  constructor
  · rintro ⟨d, hd, hallow⟩
    cases hcall : authorize w.fabric runtimeId capability target ownerId with
    | error err =>
      rw [call_authorize_error hcall] at hd
      cases hd
    | ok result =>
      obtain ⟨d', fabric⟩ := result
      rw [call_authorize_ok hcall] at hd
      cases hd
      obtain ⟨r, hr, hdecision, -⟩ := authorize_ok hcall
      obtain ⟨-, ⟨a, ha, hcaps, hpaths, hdenied⟩, hactive⟩ := hw.records _ r hr
      rw [hdecision, decisionFor_allow, hcaps, hpaths, hdenied, hactive] at hallow
      obtain ⟨hrunning, hgranted, hnone, hsome⟩ := hallow
      exact ⟨a, ha, hrunning, hgranted, hnone, hsome⟩
  · rintro ⟨a, ha, hrunning, hgranted, hthrough⟩
    obtain ⟨r, hr⟩ := hw.registered _ a ha
    obtain ⟨hnamed, ⟨a', ha', hcaps, hpaths, hdenied⟩, hactive⟩ := hw.records _ r hr
    rw [ha] at ha'
    cases ha'
    have hget : getRuntime w.fabric runtimeId = .ok r := by
      unfold getRuntime validateText
      dsimp only [bind, Except.bind]
      rw [if_neg hnamed]
      dsimp only
      rw [hr]
    have hallow : (decisionFor r capability target).1 = .allow := by
      rw [decisionFor_allow, hcaps, hpaths, hdenied]
      exact ⟨hactive.mpr hrunning, hgranted, hthrough.denied, hthrough.allowed⟩
    cases hcall : authorize w.fabric runtimeId capability target ownerId with
    | error err =>
      unfold authorize at hcall
      rw [hget] at hcall
      cases hcall
    | ok result =>
      obtain ⟨d, fabric⟩ := result
      obtain ⟨r', hr', hdecision, -⟩ := authorize_ok hcall
      rw [hr] at hr'
      cases hr'
      rw [call_authorize_ok hcall]
      exact ⟨d, rfl, hdecision.trans hallow⟩

theorem readingsAgree_iff {a : RegisterArgs} (h : LetThrough a target) :
    ReadingsAgree a target ↔ (∀ p ∈ a.deniedPaths, ¬LiesIn target p) ∧
      (a.allowedPaths ≠ [] → ∃ p ∈ a.allowedPaths, LiesIn target p) := by
  constructor
  · intro hagree
    refine ⟨fun p hp hlies => ?_, fun hne => hagree.allowed (h.allowed hne)⟩
    have hdenied := hagree.denied p hp hlies
    rw [h.denied] at hdenied
    cases hdenied
  · rintro ⟨hdenied, hallowed⟩
    refine ⟨fun p hp hlies => absurd hlies (hdenied p hp), fun hany => hallowed fun hnil => ?_⟩
    rw [hnil] at hany
    cases hany

theorem lawful_iff_agrees_step (hw : Kept w) (c : Call) : Lawful w c ↔ Agrees w c := by
  cases c with
  | authorize runtimeId capability target ownerId =>
    constructor
    · intro hlaw a ha hrunning hgranted hthrough
      obtain ⟨d, hd, hallow⟩ := (@decided w hw runtimeId capability target ownerId).mpr
        ⟨a, ha, hrunning, hgranted, hthrough⟩
      obtain ⟨-, a', ha', hentitled⟩ := hlaw d hd hallow
      rw [ha] at ha'
      cases ha'
      exact ⟨hentitled.owner,
        (readingsAgree_iff hthrough).mpr ⟨hentitled.denied, hentitled.allowed⟩⟩
    · intro hagrees d hd hallow
      obtain ⟨a, ha, hrunning, hgranted, hthrough⟩ := (decided hw).mp ⟨d, hd, hallow⟩
      obtain ⟨howner, hreadings⟩ := hagrees a ha hrunning hgranted hthrough
      obtain ⟨hdenied, hallowed⟩ := (readingsAgree_iff hthrough).mp hreadings
      exact ⟨hrunning, a, ha, ⟨howner, hgranted, hdenied, hallowed⟩⟩
  | register a => exact Iff.rfl
  | quarantine runtimeId reason restrictedCapabilities blockedSessions => exact Iff.rfl
  | isolate runtimeId reason => exact Iff.rfl
  | freeze runtimeId reason => exact Iff.rfl

/-- Where every runtime is stopped under its own id, what is allowed is lawful throughout a run if
and only if the owner and the readings of the target agree throughout. -/
theorem lawful_iff_agrees (calls : List Call)
    (hspelled : watchedFabric.Guarded (fun _ c => Spelled c) Watched.start calls) :
    watchedFabric.Guarded Lawful Watched.start calls ↔
      watchedFabric.Guarded Agrees Watched.start calls := by
  have hstep : ∀ w c, Kept w → Spelled c →
      (Lawful w c ↔ Agrees w c) ∧ Kept (watchedFabric.step w c).2 := fun w c hw hc =>
    ⟨lawful_iff_agrees_step hw c, kept_step hw hc⟩
  exact hspelled.iff_of_invariant hstep kept_start

/-! ## Uses that are not the owner's -/

def sampleArgs : RegisterArgs where
  runtimeId := "r"
  nameSpace := "n"
  ownerId := "o"
  capabilities := ["write"]
  allowedPaths := ["a"]

/-- Someone who is not the owner is let through, to a place beside the allowed path; and a runtime
that was stopped under its id with a space is still active. -/
theorem allowed_to_others :
    ¬watchedFabric.Guarded Lawful Watched.start
        [.register sampleArgs, .authorize "r" "write" "ab" "x"] ∧
      ¬watchedFabric.Guarded Lawful Watched.start
        [.register sampleArgs, .freeze "r " "", .authorize "r" "write" "a/b" "o"] := by
  constructor
  · rintro ⟨-, hlaw, -⟩
    obtain ⟨-, a, ha, hentitled⟩ := hlaw _ rfl (by decide +kernel)
    have howner : ((watchedFabric.step Watched.start (.register sampleArgs)).2.registrations.get?
        (Text.strip "r")).map RegisterArgs.ownerId = some "o" := by decide +kernel
    rw [ha, Option.map_some, Option.some.injEq] at howner
    have hother := hentitled.owner
    rw [howner] at hother
    revert hother
    decide +kernel
  · rintro ⟨-, -, hlaw, -⟩
    obtain ⟨hrunning, -⟩ := hlaw _ rfl (by decide +kernel)
    exact hrunning (by decide +kernel)

theorem lawful_iff_agrees_sample :
    watchedFabric.Guarded Lawful Watched.start
        [.register sampleArgs, .freeze "r" "", .authorize "r" "write" "a/b" "o"] ↔
      watchedFabric.Guarded Agrees Watched.start
        [.register sampleArgs, .freeze "r" "", .authorize "r" "write" "a/b" "o"] :=
  lawful_iff_agrees _ ⟨trivial, by decide +kernel, trivial, trivial⟩

end Ownership
end ZeroRuntime
