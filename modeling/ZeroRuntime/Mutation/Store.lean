import ZeroRuntime.Mutation.Common

/-!
# ZeroRuntime.Mutation.Store

The workspace and its transaction directories
(`engineering_workspace_mutation_transaction_store.py`).

A workspace is a file tree, without symbolic links, and a directory for each transaction. The tree
leaves out `.zero/transactions`, and `.zero` itself, which is there as soon as something is kept in
it. The files of a transaction directory have names of their own; a file written atomically goes
through a temporary one, which stays behind when the writing is cut short.

Everything here is a sequence of single operations: opening, writing, syncing, replacing, reading.
-/

namespace ZeroRuntime
namespace Mutation

open Lib

inductive TxName where
  | manifest | journal | commitMarker | rollbackMarker
  | staging | backup
  | staged (i : ℕ) | intent (i : ℕ) | backupFile (i : ℕ)
deriving DecidableEq, Repr

/-- What a name lies in, inside the transaction directory. -/
def TxName.parent : TxName → Option TxName
  | .staged _ | .intent _ => some .staging
  | .backupFile _ => some .backup
  | _ => none

/-- A file of a transaction directory, or the temporary file it is written through. -/
structure TxPath where
  name : TxName
  temporary : Bool := false
deriving DecidableEq, Repr

inductive TxFile where
  | dir
  | bytes (b : Bytes)
  | json (v : Val)

abbrev TxDir := Dict TxPath TxFile

structure Workspace where
  tree : FileTree
  store : Dict String TxDir := .empty

abbrev Run (α : Type) := Eff Workspace α

namespace Workspace

def file (s : Workspace) (txid : String) (p : TxPath) : Option TxFile :=
  (s.store.get? txid).bind fun d => d.get? p

/-- The transaction directory after something is filed in it. -/
def setFile (s : Workspace) (txid : String) (p : TxPath) (f : TxFile) : Workspace :=
  { s with store := s.store.modify txid fun d => d.set p f }

def eraseFile (s : Workspace) (txid : String) (p : TxPath) : Workspace :=
  { s with store := s.store.modify txid fun d => d.erase p }

/-- Something can be made under this name. -/
def hasRoom (s : Workspace) (txid : String) (p : TxPath) : Bool :=
  s.store.contains txid && (match p.name.parent with
    | none => true
    | some q => match s.file txid ⟨q, false⟩ with
      | some .dir => true
      | _ => false) && (s.file txid p).isNone

end Workspace

open Workspace

/-! ## Single operations -/

section Operations

variable (txid : String)

/-- `base.exists()` -/
def baseExists : Run Bool := Eff.query fun s => .ok (s.store.contains txid)

/-- `base.mkdir(parents=True, exist_ok=False)` -/
def makeBase : Run Unit := Eff.modify fun s =>
  if s.store.contains txid then .error .osError
  else .ok { s with store := s.store.set txid .empty }

def makeDir (name : TxName) : Run Unit := Eff.modify fun s =>
  if s.hasRoom txid ⟨name, false⟩ then .ok (s.setFile txid ⟨name, false⟩ .dir)
  else .error .osError

/-- `open('xb')` -/
def createFile (p : TxPath) : Run Unit := Eff.modify fun s =>
  if s.hasRoom txid p then .ok (s.setFile txid p (.bytes (.text ""))) else .error .osError

/-- Writing to the file that was opened. -/
def writeFile (p : TxPath) (f : TxFile) : Run Unit := Eff.modify fun s => .ok (s.setFile txid p f)

/-- `os.fsync` -/
def sync : Run Unit := Eff.query fun _ => .ok ()

/-- `tmp.replace(path)` -/
def replaceTemporary (name : TxName) : Run Unit := Eff.modify fun s =>
  match s.file txid ⟨name, true⟩ with
  | some f => .ok ((s.eraseFile txid ⟨name, true⟩).setFile txid ⟨name, false⟩ f)
  | none => .error .osError

def writeJsonAtomic (name : TxName) (v : Val) : Run Unit := do
  createFile txid ⟨name, true⟩
  writeFile txid ⟨name, true⟩ (.json v)
  sync
  replaceTemporary txid name

/-- `read_json`, of a file that holds a mapping. -/
def readJson (name : TxName) : Run Entries := Eff.query fun s =>
  match s.file txid ⟨name, false⟩ with
  | some (.json (.dict kvs)) => .ok kvs
  | _ => .error .osError

/-- Opening, writing and syncing a new file. -/
def writeNew (name : TxName) (b : Bytes) : Run Unit := do
  createFile txid ⟨name, false⟩
  writeFile txid ⟨name, false⟩ (.bytes b)
  sync

/-- `open('rb')` and reading. -/
def readBytes (name : TxName) : Run Bytes := Eff.query fun s =>
  match s.file txid ⟨name, false⟩ with
  | some (.bytes b) => .ok b
  | _ => .error .osError

def hasFile (name : TxName) : Run Bool := Eff.query fun s => .ok (s.file txid ⟨name, false⟩).isSome

end Operations

/-! ## The tree -/

/-- `resolve_inside`: the queries of its symbolic link checks, which find none. -/
def resolveInside (rel : Val) : Run (Except (List String) Path) :=
  match resolve rel with
  | .error rs => pure (.error rs)
  | .ok p => Eff.query fun _ => .ok (.ok p)

def has (p : Path) : Run Bool := Eff.query fun s => .ok (s.tree.has p)

def isFile (p : Path) : Run Bool := Eff.query fun s => .ok (s.tree.isFile p)

def isDir (p : Path) : Run Bool := Eff.query fun s => .ok (s.tree.isDir p)

/-- `read_bytes` and decoding. -/
def readText (p : Path) : Run String := Eff.query fun s =>
  match s.tree.read p with
  | .ok (.text t) => .ok t
  | .ok (.binary _) => .error .unicodeError
  | .error e => .error e

/-- An operation on the tree. -/
def onTree (f : FileTree → Except Err FileTree) : Run Unit := Eff.modify fun s =>
  (f s.tree).map fun t => { s with tree := t }

/-! ## The transaction store -/

/-- `ORDER` -/
def stateOrder : List String :=
  ["created", "preconditions_verified", "backups_captured", "staged", "stage_verified",
    "commit_admitted", "committing", "committed", "post_commit_verified", "rolling_back",
    "rolled_back", "recovery_verified", "failed", "invalid"]

/-- `TERMINAL` -/
def terminalStates : List String := ["post_commit_verified", "recovery_verified", "failed"]

/-- `index(new) >= index(old)`, where both are states. -/
def advances (old : Val) (new : String) : Bool :=
  match old with
  | .str s => stateOrder.contains s && stateOrder.contains new &&
      stateOrder.idxOf s ≤ stateOrder.idxOf new
  | _ => false

def transitionState (txid newState : String) : Run Bool := do
  let m ← readJson txid .manifest
  if advances (Val.getIn "state" m) newState then
    writeJsonAtomic txid .manifest (.dict (Val.put "state" (.str newState) m))
    pure true
  else pure false

/-- The entries of the journal, which is a list whenever it was written here. -/
def journalEntries (j : Entries) : List Val :=
  match Val.find "entries" j with
  | some (.list es) => es
  | _ => []

def appendJournal (D : Digest) (txid : String) (event : Entries) : Run Unit := do
  let j ← readJson txid .journal
  let es := journalEntries j
  let e := event ++ [("sequence", .int es.length)]
  let e := e ++ [("fingerprint", .str (D.fingerprint (.dict e)))]
  writeJsonAtomic txid .journal (.dict (Val.put "entries" (.list (es ++ [.dict e])) j))

inductive StoreStatus where
  | planned | created | duplicateSuppressed | invalid
deriving DecidableEq, Repr

structure StoreArtifact where
  status : StoreStatus
  transactionId : String
  reasonCodes : List String

def newManifest (txid : String) (workspaceId handoffId : Val) (operationIds : List Val) : Val :=
  .dict [("transaction_id", .str txid), ("state", .str "created"), ("workspace_id", workspaceId),
    ("handoff_id", handoffId),
    ("relative_transaction_directory", .str (".zero/transactions/" ++ txid)),
    ("operation_ids", .list operationIds),
    ("token_consumption", .dict [("authorization", .str "not_consumed"),
      ("preparation", .str "not_consumed")])]

/-- Making the directory of a new transaction. -/
def makeTransaction (txid : String) (workspaceId handoffId : Val) (operationIds : List Val) :
    Run Unit := do
  makeBase txid
  makeDir txid .staging
  makeDir txid .backup
  writeJsonAtomic txid .manifest (newManifest txid workspaceId handoffId operationIds)
  writeJsonAtomic txid .journal (.dict [("transaction_id", .str txid), ("entries", .list [])])

/-- `create_transaction_store`, for an admitted handoff. -/
def createTransactionStore (txid : String) (workspaceId handoffId : Val)
    (operationIds : List Val) : Run StoreArtifact := do
  if ← baseExists txid then
    match ← Eff.attempt (readJson txid .manifest) with
    | .error _ => pure ⟨.invalid, txid, reasons ["transaction_state_invalid",
        "duplicate_transaction"]⟩
    | .ok m =>
      let terminal := match Val.getIn "state" m with
        | .str s => terminalStates.contains s
        | _ => false
      pure ⟨if terminal then .duplicateSuppressed else .invalid, txid, ["duplicate_transaction"]⟩
  else
    match ← Eff.attempt (makeTransaction txid workspaceId handoffId operationIds) with
    | .ok () => pure ⟨.created, txid, []⟩
    | .error _ => pure ⟨.invalid, txid, ["internal_execution_failure"]⟩

end Mutation
end ZeroRuntime
