import ZeroRuntime.Patching.Plan

/-!
# ZeroRuntime.Patching.Apply

A patch plan is applied: each of its items is checked, the file it replaces is copied to the rollback
directory, and the file of the sandbox is copied over it.

* `Access` says where files can be written; a copy to anywhere else fails.
* `applyItem` is one turn of the loop, `applyItems` the loop, which stops at the first error.
* `applyPatchPlan` answers what came of the plan, and the directories after it.
-/

namespace ZeroRuntime
namespace Patching

open Lib

/-- Where files can be written. -/
structure Access where
  workspace : Names → Bool
  sandbox : Names → Bool
  rollback : Names → Bool
  report : Bool

/-- What a call is given besides the plan. -/
structure Call where
  session : MutationSession
  dryRun : Bool := false
  capability : Entries := []
  access : Access

/-- The directories, and what is known of the items so far. -/
structure Progress where
  workspace : FileMap
  sandbox : FileMap
  rollback : FileMap
  appliedPaths : List Names
  skippedPaths : List Names
  rollbackPaths : List Names
  authority : Entries

structure ApplyResult where
  sessionId : String
  applied : Bool
  appliedPaths : List String
  skippedPaths : List String
  rollbackPaths : List String

/-- A file is written where it can be. -/
def writeAllowed (allowed : Names → Bool) (f : FileMap) (p : Names) (content : String) :
    Except Err FileMap :=
  if allowed p then f.write p content else .error .osError

/-- `_seed_plan_sandbox_files`: the files before the first one that fails are written. -/
def seedPlanSandboxFiles (allowed : Names → Bool) (sandbox : FileMap) :
    List (String × String) → Except Err Unit × FileMap
  | [] => (.ok (), sandbox)
  | (path, content) :: files =>
    match normalizeRelativePath "Patch" path >>= fun p => writeAllowed allowed sandbox p content with
    | .ok sandbox => seedPlanSandboxFiles allowed sandbox files
    | .error e => (.error e, sandbox)

/-- What an item must be like before anything is looked at: its path, and the authority for it. -/
def checkItem (call : Call) (item : MutationPatchItem) : Except Err (Names × Entries) := do
  if item.operation ∉ ["replace", "write_file", "patch_file"] then
    .error (.valueError ("Unsupported patch operation: " ++ item.operation))
  else
    let p ← normalizeRelativePath "Patch" item.relativePath
    if ← validateMutationPath (pathText p) call.session.scope then
      let capability :=
        if call.capability ≠ [] then call.capability
        else issueRuntimeMutationCapability call.session.sessionId item.operation (pathText p)
      let authority ← requireRuntimeMutationAuthority capability item.operation (pathText p)
      .ok (p, authority)
    else .error (.valueError ("Patch path outside mutation scope: " ++ pathText p))

/-- The file of the sandbox, which is made from the payload if there is none. -/
def sourceOf (call : Call) (sandbox : FileMap) (item : MutationPatchItem) (p : Names) :
    Except Err (String × FileMap) :=
  if sandbox.isDir p then
    .error (.valueError ("Directory patch apply is not supported yet: " ++ pathText p))
  else
    match sandbox.get? p with
    | some content => .ok (content, sandbox)
    | none => do
      if sandbox.blocked p then .error .osError
      else
        match ← payloadContent item.operationPayload with
        | none =>
          .error (.raised ("Sandbox patch source does not exist: " ++ pathText p))
        | some content =>
          let sandbox ← writeAllowed call.access.sandbox sandbox p content
          .ok (content, sandbox)

/-- Where `shutil.copy2` puts a file: below a directory, under its own name. -/
def copyTarget (f : FileMap) (p : Names) : Names :=
  if f.isDir p then p ++ [p.getLastD ""] else p

/-- The file that is replaced is copied to the rollback directory. -/
def keepOriginal (call : Call) (s : Progress) (p : Names) : Except Err Progress :=
  match s.workspace.get? p with
  | none => .ok s
  | some original => do
    let rollback ←
      writeAllowed call.access.rollback s.rollback (copyTarget s.rollback p) original
    .ok { s with rollback, rollbackPaths := s.rollbackPaths ++ [p] }

/-- The file of the sandbox is copied over the file of the workspace. -/
def replaceTarget (call : Call) (s : Progress) (p : Names) (content : String) :
    Except Err Unit × Progress :=
  if s.workspace.blocked p ∨ s.rollback.blocked p then (.error .osError, s)
  else
    match keepOriginal call s p with
    | .error e => (.error e, s)
    | .ok s =>
      match writeAllowed call.access.workspace s.workspace p content with
      | .error e => (.error e, s)
      | .ok workspace => (.ok (), { s with workspace, appliedPaths := s.appliedPaths ++ [p] })

/-- One turn of the loop over the items. -/
def applyItem (call : Call) (s : Progress) (item : MutationPatchItem) :
    Except Err Unit × Progress :=
  match checkItem call item with
  | .error e => (.error e, s)
  | .ok (p, authority) =>
    match sourceOf call s.sandbox item p with
    | .error e => (.error e, { s with authority })
    | .ok (content, sandbox) =>
      let s := { s with authority, sandbox }
      if s.workspace.isDir p then
        (.error (.valueError ("Cannot replace directory target with file: " ++ pathText p)), s)
      else if s.workspace.get? p = some content then
        (.ok (), { s with skippedPaths := s.skippedPaths ++ [p] })
      else if s.workspace.get? p = none ∧ ¬call.session.scope.allowNewFiles then
        (.error (.valueError ("Mutation scope does not allow new files: " ++ pathText p)), s)
      else if call.dryRun then (.ok (), { s with appliedPaths := s.appliedPaths ++ [p] })
      else replaceTarget call s p content

def applyItems (call : Call) (s : Progress) : List MutationPatchItem → Except Err Unit × Progress
  | [] => (.ok (), s)
  | item :: items =>
    match applyItem call s item with
    | (.ok _, s) => applyItems call s items
    | (.error e, s) => (.error e, s)

/-- What comes of a plan. -/
inductive Outcome where
  | returned (result : ApplyResult)
  /-- It raises before the first item. -/
  | refused (e : Err)
  /-- It raises at an item. -/
  | stopped (e : Err)
  /-- It raises when the report is written. -/
  | unreported (e : Err)

/-- What the report cannot do without. -/
def reportable (call : Call) (plan : MutationPatchPlan) (s : Progress) : Except Err Unit :=
  if ¬(Val.dict plan.metadata).writable ∨ ¬(Val.dict s.authority).writable then .error .typeError
  else if call.access.report then .ok () else .error .osError

def applyPatchPlan (call : Call) (plan : MutationPatchPlan) (workspace sandbox rollback : FileMap) :
    Outcome × Progress :=
  let start : Progress :=
    { workspace, sandbox, rollback, appliedPaths := [], skippedPaths := [], rollbackPaths := []
      authority := [] }
  if plan.sessionId ≠ call.session.sessionId then
    (.refused (.valueError "Patch plan session_id does not match mutation session."), start)
  else
    match seedPlanSandboxFiles call.access.sandbox sandbox plan.sandboxFiles with
    | (.error e, sandbox) => (.refused e, { start with sandbox })
    | (.ok _, sandbox) =>
      match applyItems call { start with sandbox } plan.items with
      | (.error e, s) => (.stopped e, s)
      | (.ok _, s) =>
        match reportable call plan s with
        | .error e => (.unreported e, s)
        | .ok _ =>
          (.returned
            { sessionId := call.session.sessionId
              applied := !call.dryRun
              appliedPaths := s.appliedPaths.map pathText
              skippedPaths := s.skippedPaths.map pathText
              rollbackPaths := s.rollbackPaths.map pathText }, s)

end Patching
end ZeroRuntime
