import ZeroRuntime.Lib.Value

/-!
# ZeroRuntime.Transactions.Surface

The surfaces of the runtime: what kind of work each one does, at which risk, and whether it needs a
transaction. A name that is not listed is anonymous.
-/

namespace ZeroRuntime
namespace Transactions

open Lib

inductive RuntimeSurfaceKind where
  | execution | fileMutation | gitMutation | runtimeMutation | readOnly | reviewPolicy | unknown
deriving DecidableEq, Repr

inductive RuntimeSurfaceRisk where
  | none | low | moderate | high | critical
deriving DecidableEq, Repr

structure RuntimeSurface where
  name : String
  kind : RuntimeSurfaceKind
  risk : RuntimeSurfaceRisk
  mutation : Bool
  anonymous : Bool
  requiresTransaction : Bool
deriving DecidableEq, Repr

def listed (kind : RuntimeSurfaceKind) (risk : RuntimeSurfaceRisk) (mutation : Bool)
    (names : List String) : List RuntimeSurface :=
  names.map fun name => ⟨name, kind, risk, mutation, false, mutation⟩

/-- `_SURFACES`, with `requires_transaction=bool(surface.mutation)`. -/
def surfaces : List RuntimeSurface :=
  listed .execution .high false
    ["command", "shell", "run_shell", "subprocess", "python_exec", "run_python", "tool_execute",
      "tool", "bash", "powershell", "cmd", "replay_execute", "operator_verification"] ++
  listed .fileMutation .moderate true
    ["write_file", "append_file", "workspace_write", "workspace_append"] ++
  listed .fileMutation .high true
    ["delete_file", "rename_file", "apply_patch", "apply-patch", "apply_unified_diff",
      "atomic_edit", "patch_transaction", "repo_edit", "repo_apply", "operator_apply_edit"] ++
  listed .gitMutation .high true ["git_commit", "git_branch", "git_checkout", "git_merge"] ++
  listed .gitMutation .critical true ["git_push", "github_write", "create_pr", "create_issue"] ++
  listed .runtimeMutation .high true
    ["governed_repair", "governed_repair_mutation", "mutation_apply", "mutation_commit",
      "repair_chain_apply", "recovery_apply", "rollback_restore", "code_chain_repair",
      "autonomous_code_repair", "replay_mutation", "replay_repair"] ++
  listed .readOnly .none false
    ["read_file", "list_files", "scan_repo", "operator_repo_scan", "operator_commit_message",
      "replay_read", "replay_verify", "recovery_read", "recovery_inspect", "audit_read",
      "evidence_read", "summarize", "workspace_read", "verify", "verify_file",
      "verify_python_syntax", "python_syntax_check", "verify_unified_diff", "verify_patch"] ++
  listed .reviewPolicy .none false
    ["operator_edit_plan", "plan", "review", "policy_check", "respond", "final_answer", "llm",
      "llm_generate"]

def mutationTokens : List String :=
  ["write", "append", "delete", "rename", "patch", "edit", "mutation", "commit", "push",
    "checkout", "merge", "repair", "recovery", "rollback", "restore", "create_pr", "create_issue"]

def executionTokens : List String := ["command", "shell", "subprocess", "exec", "execute", "run_"]

def normalizeSurfaceName (surface : Val) : String :=
  let named : Val :=
    match surface with
    | .dict kvs =>
      (((Val.getIn "surface" kvs).orElse (Val.getIn "type" kvs)).orElse
        (Val.getIn "action" kvs)).orElse (Val.getIn "name" kvs)
    | x => x
  String.ofList (named.text.toList.map fun c => if c = ' ' then '_' else c.toLower)

def classifyRuntimeSurface (surface : Val) : RuntimeSurface :=
  let name := normalizeSurfaceName surface
  match surfaces.find? (·.name = name) with
  | some known => known
  | none =>
    if name ≠ "" ∧ mutationTokens.any (Text.contains name) then
      ⟨name, .unknown, .high, true, true, true⟩
    else if name ≠ "" ∧ executionTokens.any (Text.contains name) then
      ⟨name, .unknown, .high, false, true, false⟩
    else ⟨if name = "" then "unknown" else name, .unknown, .none, false, true, false⟩

/-! ## A name that was normalized -/

/-- What becomes of one character of a name. -/
theorem isSpace_normalized (c : Char)
    (h : Text.isSpace (if c = ' ' then '_' else c.toLower) = true) : Text.isSpace c = true := by
  split at h
  · cases h
  · rwa [Text.isSpace_toLower] at h

theorem normalizeSurfaceName_str (surface : Val) :
    normalizeSurfaceName (.str (normalizeSurfaceName surface)) = normalizeSurfaceName surface := by
  have hname : ∃ x : Val, normalizeSurfaceName surface =
      String.ofList (x.text.toList.map fun c => if c = ' ' then '_' else c.toLower) := ⟨_, rfl⟩
  obtain ⟨x, hname⟩ := hname
  have hstripped : Text.stripChars x.text.toList = x.text.toList := by
    have h := congrArg String.toList (Val.strip_text x)
    unfold Text.strip at h
    rwa [String.toList_ofList] at h
  change String.ofList ((Val.str (normalizeSurfaceName surface)).text.toList.map _) = _
  rw [Val.text_str]
  unfold Text.strip
  rw [hname, String.toList_ofList, String.toList_ofList,
    Text.stripChars_map isSpace_normalized hstripped, List.map_map]
  congr 1
  refine List.map_congr_left fun c _ => ?_
  by_cases hc : c = ' '
  · rw [Function.comp_apply, if_pos hc]
    decide
  · rw [Function.comp_apply, if_neg hc, if_neg ?_, Text.toLower_toLower]
    intro hspace
    rcases Text.toNat_toLower c with h | ⟨hlow, -, h⟩
    · exact hc (h ▸ hspace)
    · rw [hspace] at h
      have hthirty : ' '.toNat = 32 := rfl
      omega

/-- A surface that is not anonymous is found again by its name. -/
theorem classifyRuntimeSurface_name {surface : Val}
    (h : (classifyRuntimeSurface surface).anonymous = false) :
    classifyRuntimeSurface (.str (classifyRuntimeSurface surface).name) =
      classifyRuntimeSurface surface := by
  have hname : (classifyRuntimeSurface surface).name = normalizeSurfaceName surface := by
    unfold classifyRuntimeSurface at h ⊢
    dsimp only at h ⊢
    split at h
    · rename_i known hknown
      have hfound := List.find?_some hknown
      exact of_decide_eq_true hfound
    · split at h
      · cases h
      · split at h <;> cases h
  rw [hname]
  conv_lhs => unfold classifyRuntimeSurface
  rw [normalizeSurfaceName_str]
  rfl

end Transactions
end ZeroRuntime
