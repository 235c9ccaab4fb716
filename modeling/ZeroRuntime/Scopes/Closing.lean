import ZeroRuntime.Scopes.Coordinator

/-!
# ZeroRuntime.Scopes.Closing

How transactions are closed, over whole runs of the coordinator.

* `Face` is what the guards look at: the status and two flags. `effect` is what a call does to a
  transaction, if it gets past its guards; `step_face`: nothing else changes a face.
* `Honoured`: once a rollback is required, the transaction is neither committed nor sealed before
  it. `ClosedOnce`: one commit or one rollback takes effect, and no other after it.
* `Careless` calls are a seal while a rollback is required, which seals over it, and a rollback of
  what was rolled back. `closing_iff_careful`: both laws hold of exactly the runs without one.
-/

namespace ZeroRuntime
namespace Scopes

open Lib

structure Face where
  status : ScopeStatus
  rollbackRequired : Bool
  sealed : Bool

def RuntimeTransactionScope.face (scope : RuntimeTransactionScope) : Face :=
  ⟨scope.status, scope.rollbackRequired, scope.sealed⟩

def faceAt (c : RuntimeTransactionCoordinator) (id : String) : Option Face :=
  (c.scopes.get? id).map RuntimeTransactionScope.face

inductive Effect where
  | marked | committed | rolledBack | sealed
deriving DecidableEq, Repr

/-- A commit or a rollback. -/
def Effect.closes : Effect → Bool
  | committed | rolledBack => true
  | marked | sealed => false

/-- The guards let the effect pass. -/
def Effect.allowed (f : Face) : Effect → Prop
  | marked => f.status.closed = false ∧ f.sealed = false
  | committed => f.status.closed = false ∧ f.sealed = false ∧ f.rollbackRequired = false
  | rolledBack => f.sealed = false ∧ f.status ≠ .committed
  | sealed => f.sealed = false

def Effect.apply (f : Face) : Effect → Face
  | marked => { f with status := .rollbackRequired, rollbackRequired := true }
  | committed => { f with status := .committed }
  | rolledBack => { f with status := .rolledBack, rollbackRequired := false }
  | sealed => { f with status := .sealed, sealed := true }

/-- The effect on the transaction of that id, where the guards of the call let it pass. -/
def unrefused (c : RuntimeTransactionCoordinator) (transactionId : String) (e : Effect)
    (refused : Face → Bool) : Option (String × Effect) :=
  match faceAt c (Text.strip transactionId) with
  | none => none
  | some f => if refused f then none else some (Text.strip transactionId, e)

def effect (c : RuntimeTransactionCoordinator) : Call → Option (String × Effect)
  | .rollbackRequired transactionId _ =>
    unrefused c transactionId .marked fun f => f.status.closed || f.sealed
  | .commit transactionId _ journal _ _ =>
    unrefused c transactionId .committed fun f =>
      f.status.closed || f.sealed || f.rollbackRequired || journal.isSome
  | .rollback transactionId _ journal _ _ =>
    unrefused c transactionId .rolledBack fun f =>
      f.sealed || f.status = .committed || journal.isSome
  | .sealed transactionId _ _ => unrefused c transactionId .sealed fun f => f.sealed
  | _ => none

/-- Transactions stand under their own ids, which are stripped. -/
def Filed (c : RuntimeTransactionCoordinator) : Prop :=
  ∀ id scope, c.scopes.get? id = some scope → scope.transactionId = id ∧ Text.strip id = id

variable {H : Helpers} {c : RuntimeTransactionCoordinator}

/-! ## One call -/

theorem get?_store (c : RuntimeTransactionCoordinator) (scope : RuntimeTransactionScope)
    (id : String) :
    (store c scope).scopes.get? id =
      if id = scope.transactionId then some scope else c.scopes.get? id := Dict.get?_set ..

theorem faceAt_store (c : RuntimeTransactionCoordinator) (scope : RuntimeTransactionScope)
    (id : String) :
    faceAt (store c scope) id =
      if id = scope.transactionId then some scope.face else faceAt c id := by
  unfold faceAt
  rw [get?_store]
  split <;> rfl

variable {scope : RuntimeTransactionScope}

theorem Filed.store (h : Filed c) (hid : Text.strip scope.transactionId = scope.transactionId) :
    Filed (store c scope) := by
  intro id scope' hscope'
  rw [get?_store] at hscope'
  split at hscope'
  · rename_i hown
    cases hscope'
    exact ⟨hown.symm, hown ▸ hid⟩
  · exact h id scope' hscope'

variable {scope' : RuntimeTransactionScope}

/-- A transaction with the same face is stored again. -/
theorem faceAt_store_same (hscope : c.scopes.get? scope.transactionId = some scope)
    (hid : scope'.transactionId = scope.transactionId) (hface : scope'.face = scope.face)
    (id : String) : faceAt (store c scope') id = faceAt c id := by
  rw [faceAt_store]
  split
  · rename_i hown
    unfold faceAt
    rw [hown, hid, hscope, hface]
    rfl
  · rfl

variable {transactionId : String}

theorem getScope_ok (h : Filed c) (hscope : getScope c transactionId = .ok scope) :
    c.scopes.get? scope.transactionId = some scope ∧
      scope.transactionId = Text.strip transactionId := by
  unfold getScope at hscope
  split at hscope
  · cases hscope
  · rename_i scope' hget
    cases hscope
    have hown := (h _ _ hget).1
    exact ⟨hown ▸ hget, hown⟩

/-- What is known of a call: the ids stay in place, and the faces change as its effect says, but
for a transaction that is begun. -/
structure Steps (c c' : RuntimeTransactionCoordinator) (did : Option (String × Effect)) : Prop where
  filed : Filed c'
  face : ∀ id, (∀ e, did ≠ some (id, e)) →
    faceAt c' id = faceAt c id ∨ faceAt c id = none ∧ faceAt c' id = some ⟨.active, false, false⟩
  effect : ∀ id e, did = some (id, e) →
    ∃ f, faceAt c id = some f ∧ e.allowed f ∧ faceAt c' id = some (e.apply f)

variable {c' : RuntimeTransactionCoordinator}

/-- A call without effect. -/
theorem Steps.same (h : Filed c') (hface : ∀ id, faceAt c' id = faceAt c id) : Steps c c' none :=
  ⟨h, fun id _ => .inl (hface id), fun _ _ hdid => by cases hdid⟩

variable {e : Effect}

theorem Steps.effective (h : Filed c) (hscope : c.scopes.get? scope.transactionId = some scope)
    (hid : scope'.transactionId = scope.transactionId) (hallowed : e.allowed scope.face)
    (hface : scope'.face = e.apply scope.face) :
    Steps c (store c scope') (some (scope.transactionId, e)) := by
  refine ⟨h.store ?_, fun id hne => ?_, fun id e' hdid => ?_⟩
  · rw [hid]
    exact (h _ _ hscope).2
  · rw [faceAt_store, if_neg]
    · exact .inl rfl
    · rintro rfl
      exact hne e (by rw [hid])
  · cases hdid
    refine ⟨scope.face, ?_, hallowed, ?_⟩
    · unfold faceAt
      rw [hscope]
      rfl
    · rw [faceAt_store, if_pos hid.symm, hface]

/-- `_require_open` refuses closed transactions, and changes no face. -/
theorem requireOpen_cases (h : Filed c) (transactionId : String) :
    (∃ e c', requireOpen H c transactionId = (.error e, c') ∧ Steps c c' none ∧
        ∀ f, faceAt c (Text.strip transactionId) = some f → (f.status.closed || f.sealed) = true) ∨
      ∃ scope, requireOpen H c transactionId = (.ok scope, c) ∧
        c.scopes.get? scope.transactionId = some scope ∧
        scope.transactionId = Text.strip transactionId ∧
        (scope.status.closed || scope.sealed) = false := by
  have hsame : Steps c c none := .same h fun _ => rfl
  unfold requireOpen
  cases hscope : getScope c transactionId with
  | error e =>
    refine .inl ⟨e, c, rfl, hsame, fun f hf => ?_⟩
    unfold getScope at hscope
    split at hscope
    · rename_i hnone
      unfold faceAt at hf
      rw [hnone] at hf
      cases hf
    · cases hscope
  | ok scope =>
    obtain ⟨hget, hid⟩ := getScope_ok h hscope
    have hface : faceAt c (Text.strip transactionId) = some scope.face := by
      unfold faceAt
      rw [← hid, hget]
      rfl
    dsimp only
    by_cases hclosed : scope.isClosed = true
    · rw [if_pos hclosed]
      have hfaces : ∀ f, faceAt c (Text.strip transactionId) = some f →
          (f.status.closed || f.sealed) = true := by
        intro f hf
        rw [hface] at hf
        cases hf
        exact hclosed
      cases H.closure scope (mergeMetadata scope.metadata
          [("transaction_status", .str scope.status.text), ("reopen_attempt", .bool true),
            ("requested_status", .str "open"),
            ("source", .str "runtime_transaction_coordinator")]) with
      | error e => exact .inl ⟨e, c, rfl, hsame, hfaces⟩
      | ok closure =>
        refine .inl ⟨_, _, rfl, .same (h.store ?_) (faceAt_store_same hget rfl rfl), hfaces⟩
        exact (h _ _ hget).2
    · rw [if_neg hclosed]
      exact .inr ⟨scope, rfl, hget, hid, (Bool.not_eq_true _).mp hclosed⟩

theorem faceAt_own (hscope : c.scopes.get? scope.transactionId = some scope) :
    faceAt c scope.transactionId = some scope.face := by
  unfold faceAt
  rw [hscope]
  rfl

/-- An action that leaves the face of the transaction as it is. -/
theorem BoundIds.transactionId_add (ids : BoundIds) (value : String)
    (scope : RuntimeTransactionScope) :
    (ids.add value scope).transactionId = scope.transactionId := by
  cases ids <;> simp only [BoundIds.add]

theorem BoundIds.face_add (ids : BoundIds) (value : String) (scope : RuntimeTransactionScope) :
    (ids.add value scope).face = scope.face := by
  cases ids <;> simp only [BoundIds.add, RuntimeTransactionScope.face]

theorem steps_act (h : Filed c) (transactionId action : String) (metadata : Entries)
    {change : RuntimeTransactionScope → RuntimeTransactionScope}
    (hid : ∀ scope, (change scope).transactionId = scope.transactionId)
    (hface : ∀ scope, (change scope).face = scope.face) :
    Steps c (act H c transactionId action metadata change).2 none := by
  unfold act
  rcases requireOpen_cases (H := H) h transactionId with
    ⟨e, c', heq, hsteps, -⟩ | ⟨scope, heq, hget, -, -⟩
  · rw [heq]
    exact hsteps
  · rw [heq]
    refine .same (h.store ?_) (faceAt_store_same hget (hid scope) (hface scope))
    change Text.strip (change scope).transactionId = (change scope).transactionId
    rw [hid]
    exact (h _ _ hget).2

/-- The effect of a call on a transaction that is there. -/
theorem unrefused_own (hscope : c.scopes.get? scope.transactionId = some scope)
    (hid : scope.transactionId = Text.strip transactionId) (e : Effect) (refused : Face → Bool) :
    unrefused c transactionId e refused =
      if refused scope.face then none else some (scope.transactionId, e) := by
  unfold unrefused
  rw [← hid, faceAt_own hscope]

theorem unrefused_none {refused : Face → Bool}
    (h : ∀ f, faceAt c (Text.strip transactionId) = some f → refused f = true) :
    unrefused c transactionId e refused = none := by
  unfold unrefused
  split
  · rfl
  · rename_i f hf
    rw [if_pos (h f hf)]

theorem steps_markRollbackRequired (h : Filed c) (transactionId : String) (metadata : Entries) :
    Steps c (markRollbackRequired H c transactionId metadata).2
      (effect c (.rollbackRequired transactionId metadata)) := by
  unfold markRollbackRequired act
  rcases requireOpen_cases (H := H) h transactionId with
    ⟨e, c', heq, hsteps, hclosed⟩ | ⟨scope, heq, hget, hid, hopen⟩
  · have heffect : effect c (.rollbackRequired transactionId metadata) = none :=
      unrefused_none hclosed
    rw [heq, heffect]
    exact hsteps
  · have heffect : effect c (.rollbackRequired transactionId metadata) =
        some (scope.transactionId, .marked) :=
      (unrefused_own hget hid _ _).trans (if_neg (ne_true_of_eq_false hopen))
    rw [heq, heffect]
    exact .effective h hget rfl (Bool.or_eq_false_iff.mp hopen) rfl

/-- The journal may refuse the change; the event comes after it. -/
theorem steps_close (h : Filed c) (hscope : c.scopes.get? scope.transactionId = some scope)
    (hid : scope'.transactionId = scope.transactionId) (hallowed : e.allowed scope.face)
    (hface : scope'.face = e.apply scope.face) (action : String) (metadata : Entries)
    (journal emit : Option Err) :
    Steps c (close H c scope' action metadata journal emit).2
      (if journal.isSome then none else some (scope.transactionId, e)) := by
  unfold close
  cases journal with
  | some e => exact .same h fun _ => rfl
  | none =>
    cases emit with
    | some e => exact .effective h hscope hid hallowed hface
    | none => exact .effective h hscope hid hallowed hface

theorem steps_commit (h : Filed c) (transactionId : String) (metadata : Entries)
    (journal emit : Option Err) (now : String) :
    Steps c (commit H c transactionId metadata journal emit now).2
      (effect c (.commit transactionId metadata journal emit now)) := by
  unfold commit
  rcases requireOpen_cases (H := H) h transactionId with
    ⟨e, c', heq, hsteps, hclosed⟩ | ⟨scope, heq, hget, hid, hopen⟩
  · have heffect : effect c (.commit transactionId metadata journal emit now) = none := by
      refine unrefused_none fun f hf => ?_
      rw [hclosed f hf]
      rfl
    rw [heq, heffect]
    exact hsteps
  · have heffect : effect c (.commit transactionId metadata journal emit now) =
        if scope.rollbackRequired || journal.isSome then none
        else some (scope.transactionId, .committed) := by
      refine (unrefused_own hget hid _ _).trans ?_
      change (if scope.status.closed || scope.sealed || scope.rollbackRequired || journal.isSome
        then none else _) = _
      rw [hopen, Bool.false_or]
    rw [heq, heffect]
    dsimp only
    by_cases hrequired : scope.rollbackRequired = true
    · rw [if_pos hrequired, hrequired, Bool.true_or, if_pos rfl]
      exact .same h fun _ => rfl
    · have hallowed : Effect.committed.allowed scope.face :=
        ⟨(Bool.or_eq_false_iff.mp hopen).1, (Bool.or_eq_false_iff.mp hopen).2,
          (Bool.not_eq_true _).mp hrequired⟩
      have hguard : (scope.rollbackRequired || journal.isSome) = journal.isSome := by
        rw [(Bool.not_eq_true _).mp hrequired, Bool.false_or]
      rw [if_neg hrequired, hguard]
      exact steps_close h hget (by rfl) hallowed (by rfl) _ _ _ _

theorem getScope_error {e : Err} (h : getScope c transactionId = .error e) :
    faceAt c (Text.strip transactionId) = none := by
  unfold getScope at h
  split at h
  · rename_i hnone
    unfold faceAt
    rw [hnone]
    rfl
  · cases h

theorem steps_rollback (h : Filed c) (transactionId : String) (metadata : Entries)
    (journal emit : Option Err) (now : String) :
    Steps c (rollback H c transactionId metadata journal emit now).2
      (effect c (.rollback transactionId metadata journal emit now)) := by
  unfold rollback
  cases hscope : getScope c transactionId with
  | error e =>
    have heffect : effect c (.rollback transactionId metadata journal emit now) = none := by
      refine unrefused_none fun f hf => ?_
      rw [getScope_error hscope] at hf
      cases hf
    rw [heffect]
    exact .same h fun _ => rfl
  | ok scope =>
    obtain ⟨hget, hid⟩ := getScope_ok h hscope
    have heffect : effect c (.rollback transactionId metadata journal emit now) =
        if scope.sealed || decide (scope.status = .committed) || journal.isSome then none
        else some (scope.transactionId, .rolledBack) := unrefused_own hget hid _ _
    rw [heffect]
    dsimp only
    by_cases hsealed : scope.sealed = true
    · rw [if_pos hsealed, hsealed, Bool.true_or, if_pos (Bool.true_or _)]
      exact .same h fun _ => rfl
    · rw [if_neg hsealed]
      by_cases hcommitted : scope.status = .committed
      · rw [if_pos hcommitted, decide_eq_true hcommitted, Bool.or_true, Bool.true_or, if_pos rfl]
        exact .same h fun _ => rfl
      · have hallowed : Effect.rolledBack.allowed scope.face :=
          ⟨(Bool.not_eq_true _).mp hsealed, hcommitted⟩
        have hguard : (scope.sealed || decide (scope.status = .committed) || journal.isSome) =
            journal.isSome := by
          rw [(Bool.not_eq_true _).mp hsealed, decide_eq_false hcommitted, Bool.false_or,
            Bool.false_or]
        rw [if_neg hcommitted, hguard]
        exact steps_close h hget (by rfl) hallowed (by rfl) _ _ _ _

theorem steps_seal (h : Filed c) (transactionId : String) (metadata : Entries) (now : String) :
    Steps c (sealScope H c transactionId metadata now).2
      (effect c (.sealed transactionId metadata now)) := by
  unfold sealScope
  cases hscope : getScope c transactionId with
  | error e =>
    have heffect : effect c (.sealed transactionId metadata now) = none := by
      refine unrefused_none fun f hf => ?_
      rw [getScope_error hscope] at hf
      cases hf
    rw [heffect]
    exact .same h fun _ => rfl
  | ok scope =>
    obtain ⟨hget, hid⟩ := getScope_ok h hscope
    have heffect : effect c (.sealed transactionId metadata now) =
        if scope.sealed then none else some (scope.transactionId, .sealed) :=
      unrefused_own hget hid _ _
    rw [heffect]
    dsimp only
    by_cases hsealed : scope.sealed = true
    · rw [if_pos hsealed, if_pos hsealed]
      split
      · exact .same h fun _ => rfl
      · exact .same (h.store (h _ _ hget).2) (faceAt_store_same hget rfl rfl)
    · rw [if_neg hsealed, if_neg hsealed]
      exact .effective h hget rfl ((Bool.not_eq_true _).mp hsealed) rfl

theorem steps_begin (h : Filed c) (transactionId parentTransactionId : String)
    (lineage authorityMetadata provenance metadata : Entries) (journal : Option Err)
    (now : String) :
    Steps c (beginTransaction H c transactionId parentTransactionId lineage authorityMetadata
      provenance metadata journal now).2 none := by
  have hsame : Steps c c none := .same h fun _ => rfl
  unfold beginTransaction
  dsimp only
  split
  · exact hsame
  · split
    · exact hsame
    · rename_i hnew
      split
      · exact hsame
      · cases journal with
        | some e => exact hsame
        | none =>
          refine ⟨h.store (Text.strip_strip _), fun id _ => ?_, fun id e hdid => by cases hdid⟩
          rw [faceAt_store]
          split
          · rename_i hid
            refine .inr ⟨?_, rfl⟩
            subst hid
            have hnone : c.scopes.get? (Text.strip transactionId) = none := by
              simpa [Dict.contains] using hnew
            unfold faceAt
            rw [hnone]
            rfl
          · exact .inl rfl

theorem steps_snapshot (h : Filed c) (transactionId : String) (files : List Entries)
    (metadata : Entries) (journal : Option Err) (now : String) :
    Steps c (captureSnapshot H c transactionId files metadata journal now).2 none := by
  unfold captureSnapshot
  rcases requireOpen_cases (H := H) h transactionId with
    ⟨e, c', heq, hsteps, -⟩ | ⟨scope, heq, -, -, -⟩
  · rw [heq]
    exact hsteps
  · rw [heq]
    cases journal with
    | some e => exact .same h fun _ => rfl
    | none => exact .same h fun _ => rfl

theorem steps_step (h : Filed c) (call : Call) :
    Steps c ((coordinator H).step c call).2 (effect c call) := by
  cases call with
  | begin transactionId parent lineage authority provenance metadata journal now =>
    -- the machine is reduced first: the unifier would unfold the call itself
    dsimp only [coordinator]
    exact steps_begin h transactionId parent lineage authority provenance metadata journal now
  | snapshot => exact steps_snapshot h ..
  | bind transactionId ids value metadata =>
    exact steps_act h transactionId ids.action metadata
      (fun scope => ids.transactionId_add value scope) fun scope => ids.face_add value scope
  | verified transactionId metadata =>
    exact steps_act h transactionId "mark_verified" metadata (fun _ => rfl) fun _ => rfl
  | rollbackRequired transactionId metadata => exact steps_markRollbackRequired h ..
  | commit => exact steps_commit h ..
  | rollback => exact steps_rollback h ..
  | sealed => exact steps_seal h ..

/-! ## Whole runs -/

/-- The part of an effect that is on the transaction of that id. -/
def Effect.on (id : String) : Option (String × Effect) → List Effect
  | none => []
  | some (id', e) => if id' = id then [e] else []

/-- What a run did to the transaction of that id, in order. -/
def effectsOn (H : Helpers) (id : String) (c : RuntimeTransactionCoordinator) :
    List Call → List Effect
  | [] => []
  | call :: calls =>
    Effect.on id (effect c call) ++ effectsOn H id ((coordinator H).step c call).2 calls

def Effect.outcome : Effect → ScopeStatus
  | marked => .rollbackRequired
  | committed => .committed
  | rolledBack => .rolledBack
  | sealed => .sealed

/-- Once a rollback is required, the transaction is neither committed nor sealed before it is
rolled back. -/
def Honoured (H : Helpers) (calls : List Call) : Prop :=
  ∀ id done, done <+: calls → ∀ before after,
    effectsOn H id {} done = before ++ .marked :: after → .rolledBack ∉ after →
      ∀ f, faceAt ((coordinator H).run {} done) id = some f →
        f.status ≠ .committed ∧ f.sealed = false

/-- A transaction that was committed or rolled back keeps that outcome, until it is sealed with it:
neither a commit nor a rollback takes effect any more. -/
def OutcomeKept (H : Helpers) (calls : List Call) : Prop :=
  ∀ id done, done <+: calls → ∀ before e after,
    effectsOn H id {} done = before ++ e :: after → e.closes = true →
      (∀ e' ∈ after, e'.closes = false) ∧
        ∀ f, faceAt ((coordinator H).run {} done) id = some f →
          f.status = e.outcome ∨ f.status = .sealed

def Careless (c : RuntimeTransactionCoordinator) : Call → Prop
  | .sealed transactionId _ _ =>
    ∃ f, faceAt c (Text.strip transactionId) = some f ∧ f.sealed = false ∧
      f.rollbackRequired = true
  | .rollback transactionId _ journal _ _ =>
    ∃ f, faceAt c (Text.strip transactionId) = some f ∧ f.sealed = false ∧
      f.status = .rolledBack ∧ journal = none
  | _ => False

/-- The same, of the effect that a careless call has. -/
def Effect.careless (f : Face) : Effect → Prop
  | sealed => f.rollbackRequired = true
  | rolledBack => f.status = .rolledBack
  | marked | committed => False

/-- The effects of a careful run on one transaction, and where they lead. -/
inductive Told : List Effect → Face → Prop
  | active : Told [] ⟨.active, false, false⟩
  | marked {es : List Effect} : (∀ e ∈ es, e = .marked) →
      Told (es ++ [.marked]) ⟨.rollbackRequired, true, false⟩
  | committed : Told ([] ++ [.committed]) ⟨.committed, false, false⟩
  | rolledBack {es : List Effect} : (∀ e ∈ es, e = .marked) →
      Told (es ++ [.rolledBack]) ⟨.rolledBack, false, false⟩
  | sealed {es : List Effect} {f : Face} : Told es f → f.rollbackRequired = false →
      f.sealed = false → Told (es ++ [.sealed]) ⟨.sealed, false, true⟩

variable {es : List Effect}

variable {f : Face}

theorem Told.step (h : Told es f) (hallowed : e.allowed f) (hcareful : ¬ e.careless f) :
    Told (es ++ [e]) (e.apply f) := by
  cases e with
  | marked =>
    obtain ⟨hopen, hunsealed⟩ := hallowed
    cases h with
    | active => exact .marked fun e he => by cases he
    | marked hall =>
      refine .marked fun e he => ?_
      rcases List.mem_append.mp he with he | he
      · exact hall e he
      · exact List.mem_singleton.mp he
    | committed => cases hopen
    | rolledBack => cases hopen
    | sealed => cases hunsealed
  | committed =>
    obtain ⟨hopen, hunsealed, hrequired⟩ := hallowed
    cases h with
    | active => exact .committed
    | marked => cases hrequired
    | committed => cases hopen
    | rolledBack => cases hopen
    | sealed => cases hunsealed
  | rolledBack =>
    obtain ⟨hunsealed, hcommitted⟩ := hallowed
    cases h with
    | active => exact .rolledBack fun e he => by cases he
    | marked hall =>
      refine .rolledBack fun e he => ?_
      rcases List.mem_append.mp he with he | he
      · exact hall e he
      · exact List.mem_singleton.mp he
    | committed => exact absurd rfl hcommitted
    | rolledBack => exact absurd rfl hcareful
    | sealed => cases hunsealed
  | sealed =>
    have hrequired : f.rollbackRequired = false := (Bool.not_eq_true _).mp hcareful
    have hface : Effect.apply f .sealed = ⟨.sealed, false, true⟩ := by
      change (⟨.sealed, f.rollbackRequired, true⟩ : Face) = _
      rw [hrequired]
    rw [hface]
    exact .sealed h hrequired hallowed

/-- Where a list with a last element is split. -/
theorem split_snoc {α : Type} {l before after : List α} {x a : α}
    (h : l ++ [x] = before ++ a :: after) :
    after = [] ∧ a = x ∨ ∃ after', after = after' ++ [x] ∧ l = before ++ a :: after' := by
  rcases List.eq_nil_or_concat after with rfl | ⟨after', y, rfl⟩
  · exact .inl ⟨rfl, (List.append_singleton_inj.mp h).2.symm⟩
  · rw [List.concat_eq_append, ← List.cons_append, ← List.append_assoc] at h
    obtain ⟨hl, hx⟩ := List.append_singleton_inj.mp h
    exact .inr ⟨after', by rw [List.concat_eq_append, hx], hl⟩

/-- A required rollback is still required, as long as there was none. -/
theorem Told.pending (h : Told es f) {before after : List Effect}
    (hes : es = before ++ .marked :: after) (hnot : .rolledBack ∉ after) :
    f = ⟨.rollbackRequired, true, false⟩ := by
  induction h generalizing after with
  | active => exact absurd hes.symm (List.append_ne_nil_of_right_ne_nil _ (List.cons_ne_nil _ _))
  | marked => rfl
  | committed =>
    have hmem : Effect.marked ∈ ([] ++ [.committed] : List Effect) := by
      rw [hes]
      exact List.mem_append_right _ (List.mem_cons_self ..)
    cases List.mem_singleton.mp hmem
  | rolledBack =>
    rcases split_snoc hes with ⟨-, ha⟩ | ⟨after', rfl, -⟩
    · cases ha
    · exact absurd (List.mem_append_right _ (List.mem_singleton.mpr rfl)) hnot
  | sealed _ hrequired _ ih =>
    rcases split_snoc hes with ⟨-, ha⟩ | ⟨after', rfl, hes'⟩
    · cases ha
    · rw [ih hes' fun hmem => hnot (List.mem_append_left _ hmem)] at hrequired
      cases hrequired

/-- After a commit or a rollback there is at most a seal. -/
theorem Told.kept (h : Told es f) {before after : List Effect} (hes : es = before ++ e :: after)
    (hcloses : e.closes = true) :
    (∀ e' ∈ after, e'.closes = false) ∧ (f.status = e.outcome ∨ f.status = .sealed) := by
  induction h generalizing after with
  | active => exact absurd hes.symm (List.append_ne_nil_of_right_ne_nil _ (List.cons_ne_nil _ _))
  | @marked es hall =>
    rcases split_snoc hes with ⟨-, rfl⟩ | ⟨after', -, rfl⟩
    · cases hcloses
    · rw [hall e (List.mem_append_right _ (List.mem_cons_self ..))] at hcloses
      cases hcloses
  | committed =>
    rcases split_snoc hes with ⟨rfl, rfl⟩ | ⟨after', -, hnil⟩
    · exact ⟨(fun e' he' => by cases he'), .inl rfl⟩
    · exact absurd hnil.symm (List.append_ne_nil_of_right_ne_nil _ (List.cons_ne_nil _ _))
  | rolledBack hall =>
    rcases split_snoc hes with ⟨rfl, rfl⟩ | ⟨after', -, rfl⟩
    · exact ⟨(fun e' he' => by cases he'), .inl rfl⟩
    · rw [hall e (List.mem_append_right _ (List.mem_cons_self ..))] at hcloses
      cases hcloses
  | sealed _ _ _ ih =>
    rcases split_snoc hes with ⟨-, rfl⟩ | ⟨after', rfl, hes'⟩
    · cases hcloses
    · refine ⟨fun e' he' => ?_, .inr rfl⟩
      rcases List.mem_append.mp he' with he' | he'
      · exact (ih hes').1 e' he'
      · rw [List.mem_singleton.mp he']
        rfl

theorem effectsOn_snoc (id : String) (calls : List Call) (call : Call) :
    effectsOn H id c (calls ++ [call]) =
      effectsOn H id c calls ++ Effect.on id (effect ((coordinator H).run c calls) call) := by
  induction calls generalizing c with
  | nil => exact List.append_nil _
  | cons first calls ih =>
    change _ ++ effectsOn H id _ (calls ++ [call]) = _
    rw [ih]
    exact (List.append_assoc ..).symm

/-- One call, seen from one transaction. -/
theorem Steps.on {did : Option (String × Effect)} (h : Steps c c' did) (id : String) :
    Effect.on id did = [] ∧ (faceAt c' id = faceAt c id ∨
        faceAt c id = none ∧ faceAt c' id = some ⟨.active, false, false⟩) ∨
      ∃ e f, did = some (id, e) ∧ Effect.on id did = [e] ∧ faceAt c id = some f ∧ e.allowed f ∧
        faceAt c' id = some (e.apply f) := by
  cases did with
  | none => exact .inl ⟨rfl, h.face id fun _ hdid => by cases hdid⟩
  | some did =>
    obtain ⟨id', e⟩ := did
    by_cases hid : id' = id
    · subst hid
      obtain ⟨f, hf, hallowed, hnext⟩ := h.effect id' e rfl
      exact .inr ⟨e, f, rfl, if_pos rfl, hf, hallowed, hnext⟩
    · refine .inl ⟨if_neg hid, h.face id fun e' hdid => ?_⟩
      cases hdid
      exact hid rfl

/-- What it is for an effect to be careless, at the guards of its call. -/
theorem unrefused_careless (transactionId : String) (e : Effect) (refused : Face → Bool) :
    (∃ id e' f, unrefused c transactionId e refused = some (id, e') ∧ faceAt c id = some f ∧
        e'.careless f) ↔
      ∃ f, faceAt c (Text.strip transactionId) = some f ∧ refused f = false ∧ e.careless f := by
  unfold unrefused
  constructor
  · rintro ⟨id, e', f, hsome, hf, hcareless⟩
    cases hface : faceAt c (Text.strip transactionId) with
    | none =>
      rw [hface] at hsome
      cases hsome
    | some f' =>
      rw [hface] at hsome
      dsimp only at hsome
      split at hsome
      · cases hsome
      · rename_i hpass
        cases hsome
        rw [hface] at hf
        cases hf
        exact ⟨f, rfl, (Bool.not_eq_true _).mp hpass, hcareless⟩
  · rintro ⟨f, hf, hpass, hcareless⟩
    refine ⟨Text.strip transactionId, e, f, ?_, hf, hcareless⟩
    rw [hf]
    exact if_neg (ne_true_of_eq_false hpass)

theorem careless_iff (call : Call) :
    Careless c call ↔
      ∃ id e f, effect c call = some (id, e) ∧ faceAt c id = some f ∧ e.careless f := by
  cases call with
  | sealed transactionId metadata now => exact (unrefused_careless transactionId .sealed _).symm
  | rollback transactionId metadata journal emit now =>
    refine Iff.trans ?_ (unrefused_careless transactionId .rolledBack _).symm
    constructor
    · rintro ⟨f, hf, hsealed, hstatus, rfl⟩
      refine ⟨f, hf, ?_, hstatus⟩
      rw [hsealed, hstatus]
      rfl
    · rintro ⟨f, hf, hpass, hstatus⟩
      obtain ⟨hguards, hjournal⟩ := Bool.or_eq_false_iff.mp hpass
      obtain ⟨hsealed, -⟩ := Bool.or_eq_false_iff.mp hguards
      exact ⟨f, hf, hsealed, hstatus, Option.isSome_eq_false_iff.mp hjournal |> Option.isNone_iff_eq_none.mp⟩
  | rollbackRequired transactionId metadata =>
    refine ⟨False.elim, fun h => ?_⟩
    obtain ⟨f, -, -, hcareless⟩ := (unrefused_careless transactionId .marked _).mp h
    exact hcareless
  | commit transactionId metadata journal emit now =>
    refine ⟨False.elim, fun h => ?_⟩
    obtain ⟨f, -, -, hcareless⟩ := (unrefused_careless transactionId .committed _).mp h
    exact hcareless
  | begin => exact ⟨False.elim, fun ⟨_, _, _, hsome, _⟩ => by cases hsome⟩
  | snapshot => exact ⟨False.elim, fun ⟨_, _, _, hsome, _⟩ => by cases hsome⟩
  | bind => exact ⟨False.elim, fun ⟨_, _, _, hsome, _⟩ => by cases hsome⟩
  | verified => exact ⟨False.elim, fun ⟨_, _, _, hsome, _⟩ => by cases hsome⟩

theorem filed_run (H : Helpers) (calls : List Call) : Filed ((coordinator H).run {} calls) := by
  have hkeeps : ∀ c call, Filed c → Filed ((coordinator H).step c call).2 :=
    fun _ call h => (steps_step h call).filed
  refine Machine.run_invariant hkeeps calls fun id scope hscope => ?_
  have hnone : ({} : RuntimeTransactionCoordinator).scopes.get? id = none := Dict.get?_empty id
  rw [hnone] at hscope
  cases hscope

/-- A careful run: every transaction stands where its effects lead. -/
theorem told_run {calls : List Call}
    (h : (coordinator H).Guarded (fun c call => ¬ Careless c call) {} calls) (id : String) :
    (faceAt ((coordinator H).run {} calls) id = none → effectsOn H id {} calls = []) ∧
      ∀ f, faceAt ((coordinator H).run {} calls) id = some f →
        Told (effectsOn H id {} calls) f := by
  induction calls using List.reverseRecOn with
  | nil => exact ⟨fun _ => rfl, fun f hf => by cases hf⟩
  | append_singleton calls call ih =>
    obtain ⟨hcalls, hcareful⟩ := h.snoc
    obtain ⟨hnone, hsome⟩ := ih hcalls
    have hfiled := filed_run H calls
    rw [Machine.run_snoc, effectsOn_snoc]
    generalize (coordinator H).run {} calls = c at *
    rcases (steps_step (H := H) hfiled call).on id with
      ⟨hon, hsame | ⟨hnew, hface⟩⟩ | ⟨e, f, hdid, hon, hf, hallowed, hnext⟩
    · rw [hon, List.append_nil, hsame]
      exact ⟨hnone, hsome⟩
    · rw [hon, List.append_nil, hface, hnone hnew]
      refine ⟨(fun h => by cases h), fun f hf => ?_⟩
      cases hf
      exact .active
    · rw [hon, hnext]
      refine ⟨(fun h => by cases h), fun f' hf' => ?_⟩
      cases hf'
      exact (hsome f hf).step hallowed fun hcareless =>
        hcareful ((careless_iff call).mpr ⟨id, e, f, hdid, hf, hcareless⟩)

/-- What a face tells of the effects before it, in any run. -/
structure Remembered (es : List Effect) (f : Face) : Prop where
  pending : f.rollbackRequired = true →
    ∃ before after, es = before ++ .marked :: after ∧ .rolledBack ∉ after
  ended : f.status = .rolledBack → .rolledBack ∈ es

theorem Remembered.step (h : Remembered es f) : Remembered (es ++ [e]) (e.apply f) := by
  have hpending : e ≠ .rolledBack → f.rollbackRequired = true →
      ∃ before after, es ++ [e] = before ++ .marked :: after ∧ .rolledBack ∉ after := by
    intro he hrequired
    obtain ⟨before, after, rfl, hnot⟩ := h.pending hrequired
    refine ⟨before, after ++ [e], by rw [List.append_assoc, List.cons_append], fun hmem => ?_⟩
    rcases List.mem_append.mp hmem with hmem | hmem
    · exact hnot hmem
    · exact he (List.mem_singleton.mp hmem).symm
  cases e with
  | marked => exact ⟨fun _ => ⟨es, [], rfl, List.not_mem_nil⟩, fun hstatus => by cases hstatus⟩
  | committed => exact ⟨hpending (by decide), fun hstatus => by cases hstatus⟩
  | rolledBack =>
    refine ⟨(fun hrequired => by cases hrequired), fun _ => ?_⟩
    exact List.mem_append_right _ (List.mem_singleton.mpr rfl)
  | sealed => exact ⟨hpending (by decide), fun hstatus => by cases hstatus⟩

theorem remembered_run (H : Helpers) (calls : List Call) (id : String) :
    ∀ f, faceAt ((coordinator H).run {} calls) id = some f →
      Remembered (effectsOn H id {} calls) f := by
  induction calls using List.reverseRecOn with
  | nil => exact fun f hf => by cases hf
  | append_singleton calls call ih =>
    have hfiled := filed_run H calls
    rw [Machine.run_snoc, effectsOn_snoc]
    generalize (coordinator H).run {} calls = c at *
    rcases (steps_step (H := H) hfiled call).on id with
      ⟨hon, hsame | ⟨-, hface⟩⟩ | ⟨e, f, -, hon, hf, -, hnext⟩
    · rw [hon, List.append_nil, hsame]
      exact ih
    · rw [hface]
      intro f hf
      cases hf
      exact ⟨(fun hrequired => by cases hrequired), fun hstatus => by cases hstatus⟩
    · rw [hon, hnext]
      intro f' hf'
      cases hf'
      exact (ih f hf).step

/-- Both laws hold of exactly the runs without a careless call. -/
theorem closing_iff_careful (H : Helpers) (calls : List Call) :
    Honoured H calls ∧ OutcomeKept H calls ↔
      (coordinator H).Guarded (fun c call => ¬ Careless c call) {} calls := by
  constructor
  · rintro ⟨hhonoured, hkept⟩
    refine Machine.guarded_iff_prefix.mpr fun done call hdone hcareless => ?_
    obtain ⟨id, e, f, hdid, hf, hcareless⟩ := (careless_iff call).mp hcareless
    have hremembered := remembered_run H done id f hf
    have heffects : effectsOn H id {} (done ++ [call]) = effectsOn H id {} done ++ [e] := by
      rw [effectsOn_snoc, hdid]
      exact congrArg _ (if_pos rfl)
    have hnext : faceAt ((coordinator H).run {} (done ++ [call])) id = some (e.apply f) := by
      obtain ⟨f', hf', -, hnext⟩ := (steps_step (H := H) (filed_run H done) call).effect id e hdid
      rw [hf] at hf'
      cases hf'
      rw [Machine.run_snoc]
      exact hnext
    cases e with
    | marked => exact hcareless
    | committed => exact hcareless
    | rolledBack =>
      obtain ⟨before, after, hes⟩ := List.append_of_mem (hremembered.ended hcareless)
      have hsplit : effectsOn H id {} (done ++ [call]) =
          before ++ .rolledBack :: (after ++ [.rolledBack]) := by
        rw [heffects, hes, List.append_assoc, List.cons_append]
      have hopen := (hkept id _ hdone before _ _ hsplit rfl).1 .rolledBack
        (List.mem_append_right _ (List.mem_singleton.mpr rfl))
      cases hopen
    | sealed =>
      obtain ⟨before, after, hes, hnot⟩ := hremembered.pending hcareless
      have hsplit : effectsOn H id {} (done ++ [call]) =
          before ++ .marked :: (after ++ [.sealed]) := by
        rw [heffects, hes, List.append_assoc, List.cons_append]
      have hnot' : .rolledBack ∉ after ++ [Effect.sealed] := by
        intro hmem
        rcases List.mem_append.mp hmem with hmem | hmem
        · exact hnot hmem
        · cases List.mem_singleton.mp hmem
      have hunsealed := (hhonoured id _ hdone before _ hsplit hnot' _ hnext).2
      cases hunsealed
  · intro hcareful
    have htold : ∀ id done, done <+: calls → ∀ f, faceAt ((coordinator H).run {} done) id = some f →
        Told (effectsOn H id {} done) f := by
      rintro id done ⟨rest, rfl⟩
      exact (told_run (Machine.guarded_append.mp hcareful).1 id).2
    refine ⟨fun id done hdone before after hes hnot f hf => ?_,
      fun id done hdone before e after hes hcloses => ?_⟩
    · rw [(htold id done hdone f hf).pending hes hnot]
      exact ⟨ScopeStatus.noConfusion, rfl⟩
    · obtain ⟨rest, rfl⟩ := hdone
      obtain ⟨hnone, hsome⟩ := told_run (Machine.guarded_append.mp hcareful).1 id
      cases hface : faceAt ((coordinator H).run {} done) id with
      | none =>
        rw [hnone hface] at hes
        exact absurd hes.symm (List.append_ne_nil_of_right_ne_nil _ (List.cons_ne_nil _ _))
      | some f =>
        obtain ⟨hopen, hstatus⟩ := (hsome f hface).kept hes hcloses
        refine ⟨hopen, fun f' hf' => ?_⟩
        cases hf'
        exact hstatus

def plain : Helpers where
  closure _ payload := .ok payload
  normalize metadata := .ok metadata

def sealedOver : List Call :=
  [.begin "t1" "" [] [] [] [] none "2024-05-01T00:00:00Z", .rollbackRequired "t1" [],
    .sealed "t1" [] "2024-05-01T00:00:01Z"]

def rolledBackTwice : List Call :=
  [.begin "t1" "" [] [] [] [] none "2024-05-01T00:00:00Z",
    .rollback "t1" [] none none "2024-05-01T00:00:01Z",
    .rollback "t1" [] none none "2024-05-01T00:00:02Z"]

/-- A seal closes a transaction that must be rolled back, and a rollback takes effect twice. -/
theorem sealed_over_required_rollback :
    ¬ Honoured plain sealedOver ∧ ¬ OutcomeKept plain rolledBackTwice := by
  constructor
  · intro h
    have hface : faceAt ((coordinator plain).run {} sealedOver) "t1" = some ⟨.sealed, true, true⟩ :=
      rfl
    have hlaw := h "t1" sealedOver (List.prefix_refl _) [] [.sealed] rfl (by decide) _ hface
    exact absurd hlaw.2 (by decide)
  · intro h
    have hlaw := h "t1" rolledBackTwice (List.prefix_refl _) [] .rolledBack [.rolledBack] rfl rfl
    exact absurd (hlaw.1 _ (List.mem_singleton.mpr rfl)) (by decide)

end Scopes
end ZeroRuntime
