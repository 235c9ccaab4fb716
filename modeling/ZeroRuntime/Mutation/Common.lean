import Mathlib.Algebra.GroupWithZero.Nat
import ZeroRuntime.Lib.Dict
import ZeroRuntime.Lib.Effect
import ZeroRuntime.Lib.FileTree

/-!
# ZeroRuntime.Mutation.Common

What the stages of the workspace mutation executor share
(`core/engineering/engineering_workspace_mutation_executor_common.py`): reading the operations of a
handoff, checking relative paths, reason codes and identities.

A handoff is a mapping of plain data; an operation that is no mapping raises as soon as it is read.
`Digest` stands for SHA-256 of a text and for the fingerprint of a value's canonical JSON.
-/

namespace ZeroRuntime
namespace Mutation

open Lib

abbrev Entries := List (String × Val)

structure Digest where
  sha : String → String
  fingerprint : Val → String

def Digest.identity (D : Digest) (pre : String) (body : Entries) : String :=
  pre ++ "-" ++ Text.take 24 (D.fingerprint (.dict body))

/-! ## Reason codes -/

def insertReason (x : String) : List String → List String
  | [] => [x]
  | y :: ys =>
    if x = y then y :: ys
    else if TextLe x y then x :: y :: ys
    else y :: insertReason x ys

/-- `sorted(set(str(x) for x in xs if x))` -/
def reasons : List String → List String
  | [] => []
  | x :: xs => if x = "" then reasons xs else insertReason x (reasons xs)

/-! ## Operations -/

/-- `o.get(a) or o.get(b) or …` -/
def firstOf (o : Entries) : List String → Val
  | [] => .none
  | [k] => Val.getIn k o
  | k :: ks => (Val.getIn k o).orElse (firstOf o ks)

def opType (o : Entries) : Val := firstOf o ["operation_type", "operation_class"]

def targetRel (o : Entries) : Val :=
  firstOf o ["target_path", "target_relative_path", "path"]

def sourceRel (o : Entries) : Val := firstOf o ["source_path", "source_relative_path"]

def content (o : Entries) : Val :=
  if Val.hasKey "proposed_content" o then Val.getIn "proposed_content" o
  else (Val.find "content" o).getD (.str "")

def expectedBefore (o : Entries) : Val :=
  firstOf o ["expected_before_fingerprint", "before_fingerprint"]

def expectedAfter (o : Entries) : Val :=
  firstOf o ["expected_after_fingerprint", "proposed_after_fingerprint", "content_fingerprint"]

def operationId (o : Entries) : Val := Val.getIn "operation_id" o

/-- `SUPPORTED` -/
inductive OpKind where
  | createTextFile | replaceTextFile | deleteFile | createDirectory | renamePath
deriving DecidableEq, Repr

def OpKind.text : OpKind → String
  | .createTextFile => "create_text_file"
  | .replaceTextFile => "replace_text_file"
  | .deleteFile => "delete_file"
  | .createDirectory => "create_directory"
  | .renamePath => "rename_path"

def opKind (o : Entries) : Option OpKind :=
  match opType o with
  | .str s =>
    [OpKind.createTextFile, .replaceTextFile, .deleteFile, .createDirectory, .renamePath].find?
      fun k => k.text = s
  | _ => none

/-- `list(x)` of a truthy value, for the operations of a package. -/
def listOf : Val → Except Err (List Val)
  | .list xs => .ok xs
  | .str s => .ok (s.toList.map fun c => .str (String.singleton c))
  | .dict kvs => .ok (kvs.map fun e => .str e.1)
  | x => if x.truthy then .error .typeError else .ok []

def asOperation : Val → Except Err Entries
  | .dict kvs => .ok kvs
  | _ => .error .attributeError

def packageKeys : List String :=
  ["transaction_package", "mutation_transaction_package", "package", "mutation_package"]

/-- `tx_package(h)`, as the mapping it is read as. -/
def txPackage (h : Entries) : Except Err Entries :=
  asOperation ((firstOf h packageKeys).orElse (.dict h))

/-- `ops_from_handoff(h)`: the operations of the package, else those of the handoff itself. -/
def opsFromHandoff (h : Entries) : Except Err (List Entries) := do
  let pkg ← asOperation ((firstOf h packageKeys).orElse (.dict []))
  let ops ← listOf (firstOf pkg
    ["operations", "authorized_operations", "ordered_operations", "prepared_operations"])
  let ops ← if ops.isEmpty then listOf (firstOf h ["authorized_operations", "operations"])
    else .ok ops
  ops.mapM asOperation

/-! ## Paths -/

/-- Why a relative path is refused; nothing, when it is safe. -/
def safeRelPath (rel : Val) : List String :=
  let s := rel.toText
  let cs := s.toList
  (if rel.isStr && s ≠ "" then [] else ["path_invalid"]) ++
  (if cs.contains '\x00' then ["path_invalid"] else []) ++
  (if Text.startsWith s "\\\\" || Text.startsWith s "//" then ["path_escape"] else []) ++
  (if Text.startsWith s "/" || cs[1]? = some ':' then ["path_escape"] else []) ++
  (if cs.contains '\\' || Text.contains s "//" then ["path_invalid"] else []) ++
  (if (Text.split '/' s).any fun p => p = "" || p = "." || p = ".."
    then ["path_escape"] else []) ++
  (if cs.contains ':' then ["path_invalid"] else []) ++
  (if s = ".zero" || s = ".zero/transactions" || Text.startsWith s ".zero/transactions/"
    then ["path_escape"] else [])

def relPath (rel : Val) : Path := (Text.split '/' rel.toText).reverse

/-- `resolve_inside`, without its queries: a safe path, or the reasons against it. -/
def resolve (rel : Val) : Except (List String) Path :=
  match safeRelPath rel with
  | [] => .ok (relPath rel)
  | rs => .error (reasons rs)

/-! ## Sizes and identities -/

/-- `len(s.encode('utf-8'))` -/
def utf8Length (s : String) : ℕ := (s.toList.map Char.utf8Size).sum

def maxContent : ℕ := 1000000

def maxOps : ℕ := 100

def maxBackup : ℕ := 5000000

/-- `transaction_id(h, admission)`: the admission has no fingerprint yet when it is computed. -/
def transactionId (D : Digest) (h : Entries) : Except Err String := do
  let pkg ← txPackage h
  pure (D.identity "wsmutx" [("handoff_id", Val.getIn "handoff_id" h),
    ("handoff_fingerprint", Val.getIn "fingerprint" h),
    ("package_id", firstOf pkg ["transaction_package_id", "mutation_package_id"]),
    ("admission", .none)])

end Mutation
end ZeroRuntime
