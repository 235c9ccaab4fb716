import Mathlib
import ZeroRuntime.Lib.FileMap
import ZeroRuntime.Lib.Machine
import ZeroRuntime.Lib.Written

/-!
# ZeroRuntime.Boundary.Mutation

The life of one mutation at the boundary (`core/runtime/mutation_boundary.py`): preview, approval
or rejection, snapshot, apply, verification, rollback and finalization.

* A `Project` maps the places of files to their contents; a place is a path as its names.
* A snapshot keeps, for each target, the copy that was made of it.
* `step` is one call, or one edit of a file by somebody else. What a call stores is written as
  JSON, so a value JSON cannot write makes it raise.
-/

namespace ZeroRuntime
namespace Boundary

open Lib

abbrev Project := Names → Option String

/-- `MutationBoundaryError` -/
def boundaryError (message : String) : Err := .raised message

/-! ## Target paths -/

def blockedPathParts : List String :=
  [".git", ".hg", ".svn", "__pycache__", ".venv", "venv", "env", "node_modules", ".mypy_cache",
    ".pytest_cache"]

def blockedFilenames : List String :=
  [".env", ".env.local", ".env.production", "id_rsa", "id_ed25519", "known_hosts"]

/-- The names in a path; empty ones name nothing. -/
def place (path : String) : Names := (Text.split '/' path).filter (· ≠ "")

def basename (path : String) : String := ((Text.split '/' path).getLast?).getD ""

def validateRelativeProjectPath (relPath : String) : Except Err Unit :=
  let text := Text.strip (Text.replaceChar '\\' '/' relPath)
  if text = "" then .error (boundaryError "empty target path is not allowed")
  else if Text.startsWith text "/" then
    .error (boundaryError ("absolute target path is not allowed: " ++ relPath))
  else if (place text).any fun part => part = ".." || part = "." then
    .error (boundaryError ("path traversal is not allowed: " ++ relPath))
  else if (place text).any fun part => blockedPathParts.contains (Text.lower part) then
    .error (boundaryError ("blocked target path: " ++ relPath))
  else if blockedFilenames.contains (Text.lower (basename text)) then
    .error (boundaryError ("blocked target filename: " ++ relPath))
  else .ok ()

/-- `text.strip("/").lstrip("./")` -/
def trimPath (text : String) : String :=
  String.ofList
    (((text.toList.dropWhile (· = '/')).rdropWhile (· = '/')).dropWhile fun c => c = '.' || c = '/')

def normalizeTarget (item : Val) : String := trimPath (Text.replaceChar '\\' '/' item.text)

def normalizeItems : List Val → Except Err (List String)
  | [] => .ok []
  | item :: items => do
    let text := normalizeTarget item
    if text = "" then normalizeItems items
    else do
      validateRelativeProjectPath text
      let rest ← normalizeItems items
      .ok (text :: rest)

def normalizeTargetFiles : Val → Except Err (List String)
  | .list items => do
    let paths ← normalizeItems items
    .ok paths.eraseDups
  | _ => .ok []

/-! ## Risk -/

def highRiskPrefixes : List String := ["core/", "services/", "planning/", "runtime/", "tasks/"]

def highRiskFilenames : List String :=
  ["scheduler.py", "agent_loop.py", "task_runtime.py", "task_runner.py", "execution_guard.py",
    "runtime_state_guard.py", "runtime_transition_policy.py", "repair_rollback.py",
    "step_executor.py"]

inductive RiskLevel where
  | low | medium | high
deriving DecidableEq, Repr

def isSourcePath (path : String) : Bool := highRiskPrefixes.any (Text.startsWith (Text.lower path))

def isRuntimeFile (path : String) : Bool :=
  highRiskFilenames.contains (basename (Text.lower path))

/-- `_classify_risk`, whose reasons name the paths. -/
def classifyRisk (targetFiles : List String) : RiskLevel :=
  let unique := (targetFiles.map fun path => String.ofList
    ((Text.replaceChar '\\' '/' path).toList.dropWhile fun c => c = '.' || c = '/')).eraseDups
  if unique.any isRuntimeFile then .high
  else if unique.any isSourcePath || 1 < unique.length then .medium
  else .low

/-- `requires_approval` of the risk. -/
def RiskLevel.requiresApproval (level : RiskLevel) : Bool := level ≠ .low

/-! ## The record of a mutation -/

structure Approval where
  required : Bool
  approved : Bool
  approvedBy : String
  note : String := ""
  rejectedBy : String := ""
  rejectReason : String := ""

/-- A target of a snapshot with the copy of its content, `none` when there was no file. -/
structure SnapshotRecord where
  path : String
  copy : Option String
deriving DecidableEq, Repr

structure Rollback where
  snapshotCreated : Bool := false
  snapshotFiles : List SnapshotRecord := []
  createdBy : String := ""
  rolledBack : Bool := false
  rolledBackBy : String := ""
  rollbackReason : String := ""

structure Applied where
  applied : Bool := false
  changedFiles : List String := []
  result : Val := .dict []
  actor : String := ""

structure Verification where
  verified : Bool := false
  replayVerified : Bool := false
  ok : Bool := false
  result : Val := .dict []
  replayResult : Val := .dict []

structure Final where
  status : String
  summary : String
  actor : String

structure AuditEvent where
  event : String
  actor : String
  payload : Val

structure Mutation where
  mutationId : String
  status : String
  operation : String
  targetFiles : List String
  requiresApproval : Bool
  approval : Approval
  rollback : Rollback := {}
  apply : Applied := {}
  verification : Verification := {}
  final : Option Final := none
  events : List AuditEvent

/-- `str(x or default)` -/
def textOr (x : Val) (default : String) : String := (x.orElse (.str default)).toText

def addEvent (m : Mutation) (event : String) (actor payload : Val) : Mutation :=
  { m with events := m.events ++ [{ event, actor := textOr actor "zero", payload }] }

/-- `_write_mutation_state`: what is new in the record has to be written as JSON. -/
def save (m : Mutation) (new : List Val) : Except Err Mutation :=
  if new.all Val.writable then .ok m else .error .typeError

/-- `create_preview`, under the id that was drawn for it. -/
def createPreview (mutationId : String) (operation targetFiles requiresApproval createdBy : Val) :
    Except Err Mutation := do
  let targets ← normalizeTargetFiles targetFiles
  if targets = [] then
    .error (boundaryError "mutation preview requires at least one target file")
  else
    let required := match requiresApproval with
      | .none => (classifyRisk targets).requiresApproval
      | x => x.truthy
    .ok
      { mutationId
        status := if required then "waiting_approval" else "preview"
        operation := if operation.text = "" then "mutation" else operation.text
        targetFiles := targets
        requiresApproval := required
        approval :=
          { required, approved := !required, approvedBy := if required then "" else "auto" }
        events := [{ event := "preview_created", actor := textOr createdBy "zero",
                     payload := .dict [] }] }

/-! ## The calls -/

def ensureApprovalContract (m : Mutation) : Except Err Unit :=
  if (m.requiresApproval || m.approval.required) && !m.approval.approved then
    .error (boundaryError ("mutation requires approval before this operation: " ++ m.mutationId))
  else .ok ()

def ensureNotRejected (m : Mutation) : Except Err Unit :=
  if m.status = "rejected" then .error (boundaryError ("mutation was rejected: " ++ m.mutationId))
  else .ok ()

def approveMutation (m : Mutation) (approvedBy note : Val) : Except Err Mutation :=
  if m.status = "rejected" then
    .error (boundaryError ("cannot approve rejected mutation: " ++ m.mutationId))
  else
    save (addEvent
      { m with
        status := "approved"
        approval :=
          { m.approval with
            approved := true, approvedBy := textOr approvedBy "user", note := textOr note "" } }
      "approved" approvedBy (.dict [("note", note)])) [note]

def rejectMutation (m : Mutation) (rejectedBy reason : Val) : Except Err Mutation :=
  save (addEvent
    { m with
      status := "rejected"
      approval :=
        { m.approval with
          approved := false, rejectedBy := textOr rejectedBy "user"
          rejectReason := textOr reason "" } }
    "rejected" rejectedBy (.dict [("reason", reason)])) [reason]

/-- `x or list(state.get("target_files") or [])` -/
def filesOr (x : Val) (m : Mutation) : Val :=
  x.orElse (.list (m.targetFiles.map Val.str))

def createRollbackSnapshot (m : Mutation) (project : Project) (targetFiles createdBy : Val) :
    Except Err Mutation := do
  ensureNotRejected m
  ensureApprovalContract m
  let files ← normalizeTargetFiles (filesOr targetFiles m)
  if files = [] then
    .error (boundaryError "rollback snapshot requires at least one target file")
  else
    .ok (addEvent
      { m with
        status := "snapshot_created"
        rollback :=
          { snapshotCreated := true
            snapshotFiles := files.map fun path => { path, copy := project (place path) }
            createdBy := textOr createdBy "zero" } }
      "rollback_snapshot_created" createdBy
      (.dict [("target_files", .list (files.map Val.str))]))

/-- `bool(x.get("ok"))` of a mapping. -/
def isOk (x : Val) : Bool := (Val.getIn "ok" x.entries).truthy

/-- `x if isinstance(x, dict) else {"ok": False}` -/
def mappingOr (x : Val) : Val := if x.isDict then x else .dict [("ok", .bool false)]

def recordGovernedApply (m : Mutation) (applyResult changedFiles actor : Val) :
    Except Err Mutation := do
  ensureNotRejected m
  ensureApprovalContract m
  if m.rollback.snapshotCreated = false then
    .error (boundaryError "governed apply requires rollback snapshot first")
  else do
    let changed ← normalizeTargetFiles (filesOr changedFiles m)
    let ok := isOk applyResult
    save (addEvent
      { m with
        status := if ok then "applied" else "apply_failed"
        apply :=
          { applied := ok, changedFiles := changed, result := mappingOr applyResult
            actor := textOr actor "zero" } }
      "governed_apply_recorded" actor
      (.dict [("ok", .bool ok), ("changed_files", .list (changed.map Val.str))]))
      [mappingOr applyResult]

def recordReplayVerification (m : Mutation) (verificationResult replayResult actor : Val) :
    Except Err Mutation := do
  ensureNotRejected m
  if m.apply.applied = false then
    .error (boundaryError "replay verification requires successful governed apply first")
  else
    let verified := isOk verificationResult
    let replay : Val := .dict replayResult.entries
    let replayVerified := if replay.truthy then isOk replay else verified
    let ok := verified && replayVerified
    save (addEvent
      { m with
        status := if ok then "verified" else "verification_failed"
        verification :=
          { verified, replayVerified, ok, result := mappingOr verificationResult
            replayResult := replay } }
      "replay_verification_recorded" actor
      (.dict [("verified", .bool verified), ("replay_verified", .bool replayVerified),
        ("ok", .bool ok)]))
      [mappingOr verificationResult, replay]

def edit (project : Project) (p : Names) (content : Option String) : Project :=
  fun q => if q = p then content else project q

/-- A record of the snapshot is put back, under the path as it is read again. -/
def restoreRecord (project : Project) (record : SnapshotRecord) : Project :=
  let path := Text.strip record.path
  if path = "" then project else edit project (place path) record.copy

def restore (records : List SnapshotRecord) (project : Project) : Project :=
  records.foldl restoreRecord project

def rolledBack (m : Mutation) (actor reason : Val) : Except Err Mutation :=
  save (addEvent
    { m with
      status := "rolled_back"
      rollback :=
        { m.rollback with
          rolledBack := true, rolledBackBy := textOr actor "zero"
          rollbackReason := textOr reason "" } }
    "rolled_back" actor (.dict [("reason", reason)])) [reason]

def finalStatusOf (m : Mutation) (finalStatus : Val) : String :=
  let status := Text.strip (finalStatus.orElse (.str m.status)).toText
  if status = "" then "finalized" else status

def finalizeMutation (m : Mutation) (finalStatus summary actor : Val) : Except Err Mutation :=
  let status := finalStatusOf m finalStatus
  save (addEvent
    { m with
      status
      final := some { status, summary := textOr summary "", actor := textOr actor "zero" } }
    "finalized" actor (.dict [("status", .str status), ("summary", summary)])) [summary]

/-! ## Steps -/

inductive Event where
  | approve (approvedBy note : Val)
  | reject (rejectedBy reason : Val)
  | snapshot (targetFiles createdBy : Val)
  | apply (applyResult changedFiles actor : Val)
  | verify (verificationResult replayResult actor : Val)
  | rollback (actor reason : Val)
  | finalize (finalStatus summary actor : Val)
  | edit (path : Names) (content : Option String)

structure World where
  mutation : Mutation
  project : Project

def World.settle (w : World) (answer : Except Err Mutation) : Bool × World :=
  match answer with
  | .ok m => (true, { w with mutation := m })
  | .error _ => (false, w)

/-- Whether the call succeeds, and the world after it. A rollback has put the files back when its
record turns out not to be writable. -/
def step (w : World) : Event → Bool × World
  | .approve approvedBy note => w.settle (approveMutation w.mutation approvedBy note)
  | .reject rejectedBy reason => w.settle (rejectMutation w.mutation rejectedBy reason)
  | .snapshot targetFiles createdBy =>
    w.settle (createRollbackSnapshot w.mutation w.project targetFiles createdBy)
  | .apply applyResult changedFiles actor =>
    w.settle (recordGovernedApply w.mutation applyResult changedFiles actor)
  | .verify verificationResult replayResult actor =>
    w.settle (recordReplayVerification w.mutation verificationResult replayResult actor)
  | .rollback actor reason =>
    if w.mutation.rollback.snapshotCreated = false then (false, w)
    else
      World.settle
        { w with project := restore w.mutation.rollback.snapshotFiles w.project }
        (rolledBack w.mutation actor reason)
  | .finalize finalStatus summary actor =>
    w.settle (finalizeMutation w.mutation finalStatus summary actor)
  | .edit path content => (true, { w with project := edit w.project path content })

/-- The boundary as a system that takes one event at a time. -/
def boundary : Machine World Event Bool := ⟨step⟩

/-! ## What a call does to the status -/

variable {m : Mutation} {new : List Val}

theorem save_eq_ok {m' : Mutation} :
    save m new = .ok m' ↔ new.all Val.writable = true ∧ m' = m := by
  unfold save
  split
  · rename_i h
    exact ⟨fun heq => ⟨h, (Except.ok.inj heq).symm⟩, fun ⟨_, heq⟩ => by rw [heq]⟩
  · rename_i h
    exact ⟨fun heq => (by cases heq), fun ⟨hw, _⟩ => absurd hw h⟩

theorem ensureNotRejected_ok : ensureNotRejected m = .ok () ↔ m.status ≠ "rejected" := by
  unfold ensureNotRejected
  split
  · rename_i h
    exact ⟨(by intro heq; cases heq), fun hne => absurd h hne⟩
  · rename_i h
    exact ⟨fun _ => h, fun _ => rfl⟩

variable {answer : Except Err Mutation}

theorem settle_true {w w' : World} (h : w.settle answer = (true, w')) :
    ∃ m, answer = .ok m ∧ w' = { w with mutation := m } := by
  unfold World.settle at h
  cases answer with
  | error e => cases h
  | ok m =>
    cases h
    exact ⟨m, rfl, rfl⟩

theorem settle_error {w : World} {err : Err} (h : answer = .error err) :
    w.settle answer = (false, w) := by
  rw [h]
  rfl

theorem save_ok (h : new.all Val.writable = true) : save m new = .ok m := if_pos h

theorem save_error (h : ¬new.all Val.writable = true) : save m new = .error .typeError := if_neg h

theorem all_writable_singleton {x : Val} : [x].all Val.writable = true ↔ x.writable = true := by
  rw [List.all_cons, List.all_nil, Bool.and_true]

/-- A mutation of a file that needs no approval. -/
def samplePreview : Mutation where
  mutationId := "mutation_1"
  status := "preview"
  operation := "edit"
  targetFiles := ["notes.txt"]
  requiresApproval := false
  approval := { required := false, approved := true, approvedBy := "auto" }
  events := [{ event := "preview_created", actor := "zero", payload := .dict [] }]

example : createPreview "mutation_1" (.str "edit") (.list [.str "notes.txt"]) .none .none =
    .ok samplePreview := by
  rfl

end Boundary
end ZeroRuntime
