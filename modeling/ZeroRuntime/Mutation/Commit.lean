import ZeroRuntime.Mutation.Stages

/-!
# ZeroRuntime.Mutation.Commit

Changing the tree and changing it back: the commit loop, the verification after it, the rollback,
and the verification of the recovery (`..._atomic_commit.py`, `..._post_commit_verification.py`,
`..._rollback.py`, `..._recovery_verification.py`).

The commit stops at the first operation that finds something amiss or raises. An operation counts as
committed before the journal entry that says so is written.
-/

namespace ZeroRuntime
namespace Mutation

open Lib Workspace

/-- The statuses of the artifacts from the commit on. -/
inductive Status where
  | committed | partiallyCommitted | failed | invalid
  | verified | notVerified
  | rolledBack | partiallyRolledBack | notRequired
  | duplicateSuppressed
deriving DecidableEq, Repr

/-! ## Paths that may be missing -/

/-- The path of `resolve_inside`, `None` when it is refused. -/
def pathOf : Except (List String) Path → Option Path
  | .ok p => some p
  | .error _ => none

def reasonsOf : Except (List String) Path → List String
  | .ok _ => []
  | .error rs => rs

/-- A method of what may be `None`. -/
def onPath {α : Type} (f : Path → Run α) : Option Path → Run α
  | some p => f p
  | none => Eff.raise .attributeError

/-! ## The commit -/

/-- Moving a staged file to its target. -/
def placeStaged (txid : String) (i : ℕ) (tp : Path) : Run Unit := Eff.modify fun s =>
  match s.file txid ⟨.staged i, false⟩ with
  | some (.bytes b) =>
    (s.tree.put tp b).map fun t => { s.eraseFile txid ⟨.staged i, false⟩ with tree := t }
  | _ => .error .osError

/-- `expected_before(o) and file_fp(tp)[0] != expected_before(o)`, denied. -/
def matchesPin (D : Digest) (o : Entries) (tp : Path) : Run Bool :=
  if (expectedBefore o).truthy then do
    let t ← readText tp
    pure (unpinned D o t)
  else pure true

/-- One operation on the tree, or what stands against it. -/
def commitOperation (D : Digest) (txid : String) (i : ℕ) (o : Entries) (tp : Path) :
    Run (Option String) :=
  match opKind o with
  | some .createTextFile => do
    if ← has tp then pure (some "target_exists")
    else do
      placeStaged txid i tp
      pure none
  | some .replaceTextFile => do
    if !(← isFile tp) then pure (some "target_kind_invalid")
    else if !(← matchesPin D o tp) then pure (some "precondition_mismatch")
    else do
      placeStaged txid i tp
      pure none
  | some .deleteFile => do
    if !(← isFile tp) then pure (some "target_kind_invalid")
    else if !(← matchesPin D o tp) then pure (some "precondition_mismatch")
    else do
      onTree fun w => w.unlink tp
      pure none
  | some .createDirectory => do
    if ← has tp then pure (some "target_exists")
    else do
      onTree fun w => w.mkdir tp
      pure none
  | some .renamePath => do
    match ← resolveInside (sourceRel o) with
    | .error _ => pure (some "precondition_mismatch")
    | .ok sp =>
      if !(← has sp) then pure (some "precondition_mismatch")
      else if ← has tp then pure (some "precondition_mismatch")
      else do
        onTree fun w => w.rename sp tp
        pure none
  | none => pure (some "unsupported_operation")

def commitEvent (phase : String) (o : Entries) : Entries :=
  [("phase", .str phase), ("operation_id", operationId o), ("operation_type", opType o)]

/-- Whether the operation counts as committed, and the reasons to stop. -/
def commitOne (D : Digest) (txid : String) (i : ℕ) (o : Entries) : Run (Bool × List String) := do
  let target ← resolveInside (targetRel o)
  appendJournal D txid (commitEvent "before_commit" o)
  match ← Eff.attempt (onPath (commitOperation D txid i o) (pathOf target)) with
  | .error _ => pure (false, ["atomic_commit_failed"])
  | .ok (some r) => pure (false, [r])
  | .ok none =>
    match ← Eff.attempt (appendJournal D txid (commitEvent "after_commit" o)) with
    | .ok () => pure (true, [])
    | .error _ => pure (true, ["atomic_commit_failed"])

def commitEach (D : Digest) (txid : String) : ℕ → List Entries → Run (List Val × List String)
  | _, [] => pure ([], [])
  | i, o :: os => do
    let one ← commitOne D txid i o
    let ids := if one.1 then [operationId o] else []
    if one.2.isEmpty then do
      let more ← commitEach D txid (i + 1) os
      pure (ids ++ more.1, more.2)
    else pure (ids, one.2)

structure CommitArtifact where
  status : Status
  committedOperationIds : List Val
  reasonCodes : List String

def commitStatus (ops : List Entries) (r : List Val × List String) : Status :=
  if r.2.isEmpty = true ∧ r.1.length = ops.length then .committed
  else if r.1.isEmpty then .failed else .partiallyCommitted

def marker (txid status : String) : Val :=
  .dict [("transaction_id", .str txid), ("status", .str status)]

def atomicCommit (D : Digest) (txid : String) (ops : List Entries) (gate : Gate) :
    Run CommitArtifact := do
  if !gate.authorized then pure ⟨.invalid, [], ["commit_not_authorized"]⟩
  else do
    let _ ← transitionState txid "committing"
    let r ← commitEach D txid 0 ops
    let status := commitStatus ops r
    if status = .committed then do
      let _ ← transitionState txid "committed"
      writeJsonAtomic txid .commitMarker (marker txid "committed")
    pure ⟨status, r.1, reasons r.2⟩

/-! ## Post-commit verification -/

structure PostArtifact where
  status : Status
  reasonCodes : List String

/-- What the target of an operation shows after the commit, inside its `try`. -/
def postReasons (D : Digest) (o : Entries) (tp : Option Path) : Run (List String) :=
  match opKind o with
  | some .createTextFile | some .replaceTextFile => do
    if !(← onPath isFile tp) then pure ["content_fingerprint_mismatch"]
    else if (expectedAfter o).truthy then do
      let t ← onPath readText tp
      pure (if expectsContent D o t then [] else ["content_fingerprint_mismatch"])
    else pure []
  | some .deleteFile => do
    pure (if ← onPath has tp then ["target_exists"] else [])
  | some .createDirectory => do
    pure (if ← onPath isDir tp then [] else ["target_missing"])
  | some .renamePath => do
    let source ← resolveInside (sourceRel o)
    if ← onPath has (pathOf source) then pure ["precondition_mismatch"]
    else pure (if ← onPath has tp then [] else ["precondition_mismatch"])
  | none => pure []

def verifyEach (D : Digest) : List Entries → Run (List String)
  | [] => pure []
  | o :: os => do
    let target ← resolveInside (targetRel o)
    let rs ← match ← Eff.attempt (postReasons D o (pathOf target)) with
      | .ok rs => pure rs
      | .error _ => pure ["post_commit_verification_failed"]
    let more ← verifyEach D os
    pure (reasonsOf target ++ rs ++ more)

def verifyPostCommit (D : Digest) (txid : String) (ops : List Entries) (commit : CommitArtifact) :
    Run PostArtifact := do
  let found ← verifyEach D ops
  let marked ← hasFile txid .commitMarker
  let rs := (if commit.status = .committed then [] else ["atomic_commit_failed"]) ++ found ++
    (if marked then [] else ["post_commit_verification_failed"])
  if rs.isEmpty then let _ ← transitionState txid "post_commit_verified"
  pure ⟨if rs.isEmpty then .verified else .notVerified, reasons rs⟩

/-! ## Rollback -/

structure RollbackArtifact where
  status : Status
  rolledBackOperationIds : List Val
  reasonCodes : List String

/-- `index(o)`: the first operation equal to this one. -/
def indexOf (ops : List Entries) (o : Entries) : ℕ :=
  ops.findIdx fun x => Val.eq (.dict x) (.dict o)

/-- The operations with the id of a committed one. The ids are put in a set, so each has to be
hashable. -/
def selectCommitted (ops : List Entries) (ids : List Val) : Except Err (List Entries) :=
  if ids.all Val.hashable && ops.all fun o => (operationId o).hashable then
    .ok (ops.filter fun o => (operationId o).elem ids)
  else .error .typeError

/-- Writing the backup back: the file is emptied as it is opened, then written. -/
def restoreBackup (txid : String) (i : ℕ) (tp : Option Path) : Run Unit := do
  let b ← readBytes txid (.backupFile i)
  onPath (fun p => onTree fun w => w.put p (.text "")) tp
  onPath (fun p => onTree fun w => w.put p b) tp
  sync

/-- Undoing one operation; `false` when a rename cannot be undone. -/
def undoOperation (txid : String) (i : ℕ) (o : Entries) (tp : Option Path) : Run Bool :=
  match opKind o with
  | some .createTextFile => do
    if ← onPath has tp then
      if ← onPath isFile tp then onPath (fun p => onTree fun w => w.unlink p) tp
    pure true
  | some .createDirectory => do
    onPath (fun p => onTree fun w => w.rmdir p) tp
    pure true
  | some .replaceTextFile | some .deleteFile => do
    restoreBackup txid i tp
    pure true
  | some .renamePath => do
    let source ← resolveInside (sourceRel o)
    if ← onPath has (pathOf source) then pure false
    else if !(← onPath has tp) then pure false
    else do
      onPath (fun sp => onPath (fun p => onTree fun w => w.rename p sp) tp) (pathOf source)
      pure true
  | none => pure true

def rollbackEvent (phase : String) (o : Entries) : Entries :=
  [("phase", .str phase), ("operation_id", operationId o)]

/-- Whether the operation counts as rolled back, and whether the rollback goes on. -/
def rollbackOne (D : Digest) (txid : String) (ops : List Entries) (o : Entries) :
    Run (Bool × Bool) := do
  let target ← resolveInside (targetRel o)
  appendJournal D txid (rollbackEvent "before_rollback" o)
  match ← Eff.attempt (undoOperation txid (indexOf ops o) o (pathOf target)) with
  | .error _ | .ok false => pure (false, false)
  | .ok true =>
    match ← Eff.attempt (appendJournal D txid (rollbackEvent "after_rollback" o)) with
    | .ok () => pure (true, true)
    | .error _ => pure (true, false)

/-- The ids rolled back, and whether all operations of the list are. -/
def rollbackEach (D : Digest) (txid : String) (ops : List Entries) :
    List Entries → Run (List Val × Bool)
  | [] => pure ([], true)
  | o :: os => do
    let one ← rollbackOne D txid ops o
    let ids := if one.1 then [operationId o] else []
    if one.2 then do
      let more ← rollbackEach D txid ops os
      pure (ids ++ more.1, more.2)
    else pure (ids, false)

def rollbackStatus (r : List Val × Bool) : Status :=
  if r.2 then .rolledBack else if r.1.isEmpty then .failed else .partiallyRolledBack

def rollbackTransaction (D : Digest) (txid : String) (ops : List Entries)
    (commit : CommitArtifact) : Run RollbackArtifact := do
  if commit.status = .committed then pure ⟨.notRequired, [], []⟩
  else do
    let _ ← transitionState txid "rolling_back"
    let selected ← Eff.ofExcept (selectCommitted ops commit.committedOperationIds)
    let r ← rollbackEach D txid ops selected.reverse
    let status := rollbackStatus r
    if status = .rolledBack then do
      let _ ← transitionState txid "rolled_back"
      writeJsonAtomic txid .rollbackMarker (marker txid "rolled_back")
    else do
      let _ ← transitionState txid "failed"
    pure ⟨status, r.1, if r.2 then [] else ["rollback_failed"]⟩

/-! ## Recovery verification -/

structure RecoveryArtifact where
  status : Status
  manualRecoveryRequired : Bool
  reasonCodes : List String

def verifyRecovery (txid : String) (rollback : RollbackArtifact) : Run RecoveryArtifact := do
  let recovered := rollback.status = .rolledBack ∨ rollback.status = .notRequired
  if rollback.status = .rolledBack then let _ ← transitionState txid "recovery_verified"
  pure ⟨if recovered then .verified else .notVerified, !decide recovered,
    if recovered then [] else ["recovery_verification_failed"]⟩

end Mutation
end ZeroRuntime
