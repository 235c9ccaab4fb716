import ZeroRuntime.Lib.Machine
import ZeroRuntime.Lib.Value

/-!
# ZeroRuntime.Seal.Authority

The authority boundary of the runtime (`core/runtime/runtime_authority_seal.py`). Capabilities,
terminal evidence and completion authorities are known by identity: an object counts only if it
stands in the registry it was entered in when it was issued.

* `Boundary` holds every object made so far, each known by its place (`Ref`), and the registries
  of `_build_authority_boundary`. A registry keeps its objects alive, so an identity is never
  used twice.
* `Call` is one call of the boundary, or what a caller can do without it: construct an object of
  any class with any fields (`forge`), or copy one (`copy`).
* The is-functions take `None` for an identifier that is not to be compared; so do, without a
  check, the functions that issue.
-/

namespace ZeroRuntime
namespace Seal

open Lib

/-- The issuer tokens of the module; `foreign` is any other object. -/
inductive Token where
  | runtimeDispatcher
  | taskRunner
  | workPackageScheduler
  | governedRuntimeEvidence
  | foreign
deriving DecidableEq

structure RuntimeExecutionCapability where
  taskId : String
  sessionId : String
  packageId : String
  stepId : String := ""
  delegated : Bool := false
  executionId : String := ""
  capabilityId : String := ""
deriving DecidableEq

structure TaskCompletionAuthority where
  taskId : String
  packageId : String
  sessionId : String
deriving DecidableEq

structure WorkPackageCompletionAuthority where
  packageId : String
  sessionId : String := ""
deriving DecidableEq

structure TerminalExecutionEvidence where
  taskId : String
  packageId : String
  sessionId : String
  stepId : String
  executionId : String := ""
  capabilityId : String := ""
  evidenceId : String := ""
deriving DecidableEq

/-- An object by its class; `plain` is one of any other class. -/
inductive Object where
  | executionCapability (c : RuntimeExecutionCapability)
  | taskCompletion (a : TaskCompletionAuthority)
  | workPackageCompletion (a : WorkPackageCompletionAuthority)
  | terminalEvidence (e : TerminalExecutionEvidence)
  | plain
deriving DecidableEq

/-- The identity of an object. -/
abbrev Ref := Nat

structure Boundary where
  objects : List Object := []
  dispatchCapabilities : List Ref := []
  delegatedCapabilities : List Ref := []
  taskCompletions : List Ref := []
  terminalEvidence : List Ref := []
  packageCompletions : List Ref := []
  evidenceAuthorities : List Ref := []

/-- `expected is None or field == str(expected)` -/
def agrees (expected : Val) (field : String) : Bool :=
  match expected with
  | .none => true
  | expected => field == expected.toText

namespace Boundary

variable (b : Boundary)

/-- A new object and its identity. -/
def make (o : Object) : Boundary := { b with objects := b.objects ++ [o] }

/-- The object a value is, when it is an object of one of the classes: `none` is `None`. -/
def object? (value : Option Ref) : Option Object := value.bind (b.objects[·]?)

def executionCapability? (value : Option Ref) : Option RuntimeExecutionCapability :=
  match b.object? value with
  | some (.executionCapability c) => some c
  | _ => none

/-- `registry.get(id(value)) is value` for a value that is not `None`. -/
def registered (registry : List Ref) (value : Option Ref) : Bool :=
  value.any (registry.contains ·)

/-! ## The checks -/

def isDispatchExecutionCapability (value : Option Ref) (taskId : Val) : Bool :=
  match b.executionCapability? value with
  | some c => registered b.dispatchCapabilities value && !c.delegated && agrees taskId c.taskId
  | none => false

def isTaskrunnerExecutionCapability (value : Option Ref)
    (taskId stepId packageId sessionId : Val) : Bool :=
  match b.executionCapability? value with
  | some c =>
    registered b.delegatedCapabilities value && c.delegated && agrees taskId c.taskId &&
      (c.stepId == "" || agrees stepId c.stepId) && agrees packageId c.packageId &&
      agrees sessionId c.sessionId
  | none => false

def isTerminalExecutionEvidence (value : Option Ref) (taskId packageId sessionId : Val) : Bool :=
  match b.object? value with
  | some (.terminalEvidence e) =>
    registered b.terminalEvidence value && agrees taskId e.taskId &&
      agrees packageId e.packageId && agrees sessionId e.sessionId
  | _ => false

def isTaskCompletionAuthority (value : Option Ref) (taskId packageId sessionId : Val) : Bool :=
  match b.object? value with
  | some (.taskCompletion a) =>
    registered b.taskCompletions value && agrees taskId a.taskId &&
      agrees packageId a.packageId && agrees sessionId a.sessionId
  | _ => false

def isWorkPackageCompletionAuthority (value : Option Ref) (packageId sessionId : Val) : Bool :=
  match b.object? value with
  | some (.workPackageCompletion a) =>
    registered b.packageCompletions value && agrees packageId a.packageId &&
      (a.sessionId == "" || agrees sessionId a.sessionId)
  | _ => false

/-- `None` passes: `evidence_authorities.get(id(None))` is `None` as well. -/
def isRuntimeEvidenceAuthority (value : Option Ref) : Bool :=
  match value with
  | some r => b.evidenceAuthorities.contains r
  | none => true

/-! ## Issuing and delegating -/

/-- What a call answers: an object, `None`, or the error it raises. -/
abbrev Answer := Except Err (Option Ref)

def issueDispatchExecutionCapability (token : Token)
    (taskId sessionId packageId executionId capabilityId : Val) : Answer × Boundary :=
  if token ≠ .runtimeDispatcher then
    (.error (.permissionError "runtime_dispatcher_authority_required"), b)
  else
    let capability := b.objects.length
    let b := b.make (.executionCapability
      { taskId := taskId.toText, sessionId := sessionId.toText, packageId := packageId.toText
        executionId := executionId.toText, capabilityId := capabilityId.toText })
    (.ok (some capability),
      { b with dispatchCapabilities := b.dispatchCapabilities ++ [capability] })

def delegateTaskrunnerExecutionCapability (token : Token) (capability : Option Ref)
    (taskId stepId : Val) : Answer × Boundary :=
  if token ≠ .taskRunner then (.error (.permissionError "taskrunner_authority_required"), b)
  else
    match b.executionCapability? capability, b.isDispatchExecutionCapability capability taskId with
    | some dispatch, true =>
      let delegated := b.objects.length
      let b := b.make (.executionCapability
        { taskId := taskId.toText, sessionId := dispatch.sessionId
          packageId := dispatch.packageId, stepId := stepId.toText, delegated := true
          executionId := dispatch.executionId, capabilityId := dispatch.capabilityId })
      (.ok (some delegated),
        { b with delegatedCapabilities := b.delegatedCapabilities ++ [delegated] })
    | _, _ => (.error (.permissionError "runtime_dispatcher_live_capability_required"), b)

def issueTerminalExecutionEvidence (token : Token) (capability : Option Ref)
    (taskId packageId sessionId stepId : Val) : Answer × Boundary :=
  if token ≠ .taskRunner then (.error (.permissionError "taskrunner_authority_required"), b)
  else
    match b.executionCapability? capability,
      b.isTaskrunnerExecutionCapability capability taskId stepId packageId sessionId with
    | some capability, true =>
      let evidence := b.objects.length
      let b := b.make (.terminalEvidence
        { taskId := taskId.toText, packageId := packageId.toText, sessionId := sessionId.toText
          stepId := stepId.toText, executionId := capability.executionId
          capabilityId := capability.capabilityId
          evidenceId := "evidence:" ++ capability.executionId ++ ":" ++ stepId.toText })
      (.ok (some evidence), { b with terminalEvidence := b.terminalEvidence ++ [evidence] })
    | _, _ => (.error (.permissionError "terminal_execution_lineage_required"), b)

def issueTaskCompletionAuthority (token : Token) (taskId packageId sessionId : Val)
    (evidence : Option Ref) : Answer × Boundary :=
  if token ≠ .taskRunner then (.error (.permissionError "taskrunner_authority_required"), b)
  else if !b.isTerminalExecutionEvidence evidence taskId packageId sessionId then
    (.error (.permissionError "terminal_execution_evidence_required"), b)
  else
    let authority := b.objects.length
    let b := b.make (.taskCompletion
      { taskId := taskId.toText, packageId := packageId.toText, sessionId := sessionId.toText })
    (.ok (some authority), { b with taskCompletions := b.taskCompletions ++ [authority] })

def issueWorkPackageCompletionAuthority (token : Token) (packageId sessionId : Val) :
    Answer × Boundary :=
  if token ≠ .runtimeDispatcher ∧ token ≠ .workPackageScheduler then
    (.error (.permissionError "work_package_completion_owner_required"), b)
  else
    let authority := b.objects.length
    let b := b.make (.workPackageCompletion
      { packageId := packageId.toText, sessionId := (sessionId.orElse (.str "")).toText })
    (.ok (some authority), { b with packageCompletions := b.packageCompletions ++ [authority] })

def registerRuntimeEvidenceAuthority (token : Token) (authority : Option Ref) :
    Answer × Boundary :=
  if token ≠ .governedRuntimeEvidence then
    (.error (.permissionError "governed_runtime_evidence_owner_required"), b)
  else
    (.ok none, { b with evidenceAuthorities := b.evidenceAuthorities ++ authority.toList })

end Boundary

/-! ## Calls -/

inductive Call where
  | forge (o : Object)
  | copy (value : Ref)
  | issueDispatch (token : Token) (taskId sessionId packageId executionId capabilityId : Val)
  | delegate (token : Token) (capability : Option Ref) (taskId stepId : Val)
  | issueEvidence (token : Token) (capability : Option Ref) (taskId packageId sessionId stepId : Val)
  | issueCompletion (token : Token) (taskId packageId sessionId : Val) (evidence : Option Ref)
  | issuePackageCompletion (token : Token) (packageId sessionId : Val)
  | registerEvidence (token : Token) (authority : Option Ref)

/-- One call. A copy is a new object, with the fields of the one it was copied from. -/
def call (b : Boundary) : Call → Boundary.Answer × Boundary
  | .forge o => (.ok (some b.objects.length), b.make o)
  | .copy value =>
    match b.objects[value]? with
    | some o => (.ok (some b.objects.length), b.make o)
    | none => (.ok none, b)
  | .issueDispatch token taskId sessionId packageId executionId capabilityId =>
    b.issueDispatchExecutionCapability token taskId sessionId packageId executionId capabilityId
  | .delegate token capability taskId stepId =>
    b.delegateTaskrunnerExecutionCapability token capability taskId stepId
  | .issueEvidence token capability taskId packageId sessionId stepId =>
    b.issueTerminalExecutionEvidence token capability taskId packageId sessionId stepId
  | .issueCompletion token taskId packageId sessionId evidence =>
    b.issueTaskCompletionAuthority token taskId packageId sessionId evidence
  | .issuePackageCompletion token packageId sessionId =>
    b.issueWorkPackageCompletionAuthority token packageId sessionId
  | .registerEvidence token authority => b.registerRuntimeEvidenceAuthority token authority

def authorityBoundary : Machine Boundary Call Boundary.Answer := ⟨call⟩

end Seal
end ZeroRuntime
