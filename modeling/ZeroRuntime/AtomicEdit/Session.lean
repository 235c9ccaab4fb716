import ZeroRuntime.Lib.Disk

/-!
# ZeroRuntime.AtomicEdit.Session

The edit session of the scheduler (`core/tasks/scheduler_core/atomic_edit_helpers.py`): text writes
are staged, then backed up and written together, and taken back from the backups.

* The disk is a map from paths to contents; every operation on it may fail, and a write that fails
  may leave any part of the text. `os.path.exists` answers for every path.
* `commit` and `rollback` are programs over the session, the variables of `commit` and the disk: what
  was recorded before an exception is there for the rollback.
* `abspath` is `os.path.abspath` in the working directory at hand.
-/

namespace ZeroRuntime
namespace AtomicEdit

open Lib Disk

/-! ## Staging -/

structure AtomicEditRecord where
  path : String
  before : String
  after : String
  backupPath : String
  changed : Bool

structure AtomicEditSession where
  backupSuffix : String
  records : List AtomicEditRecord
  committed : Bool
  rollbackApplied : Bool

/-- `AtomicEditSession(backup_suffix)` at the time `now`, in seconds. -/
def newSession (backupSuffix : Option String) (now : ℕ) : AtomicEditSession :=
  let given := backupSuffix.getD ""
  let safeSuffix := if given = "" then "v5_7_0_" ++ toString now else given
  ⟨Text.replaceChar ' ' '_' safeSuffix, [], false, false⟩

/-- The arguments of `add_write`. -/
structure Write where
  path : Option String
  before : Option String
  after : Option String

def addWrite (abspath : String → String) (write : Write) (session : AtomicEditSession) :
    Except Err AtomicEditSession :=
  let absPath := abspath (write.path.getD "")
  if absPath = "" then .error (.valueError "atomic write missing path")
  else
    let beforeText := write.before.getD ""
    let afterText := write.after.getD ""
    .ok
      { session with
        records := session.records ++
          [⟨absPath, beforeText, afterText, "", decide (beforeText ≠ afterText)⟩] }

/-- A list of `add_write` calls; one that raises stages nothing. -/
def stage (abspath : String → String) (session : AtomicEditSession) (writes : List Write) :
    AtomicEditSession :=
  writes.foldl (fun session write =>
    match addWrite abspath write session with
    | .ok session' => session'
    | .error _ => session) session

/-! ## Reports -/

structure RollbackReport where
  ok : Bool
  rollbackApplied : Bool
  restoredFiles : List String
  errors : List (String × Err)

/-- What a commit reports of a failure. -/
structure Failure where
  failedFile : String
  failedReason : Err
  rollback : RollbackReport

structure CommitReport where
  ok : Bool
  committed : Bool
  rollbackApplied : Bool
  changedFiles : List String
  backupFiles : List String
  failure : Option Failure
  stagedCount : ℕ
  changedCount : ℕ

/-! ## Commit and rollback -/

/-- The session, and the variables `written`, `backups` and `record` of `commit`. -/
structure Memory where
  session : AtomicEditSession
  written : List String
  backups : List String
  record : String

abbrev State := Memory × Disk UInt8

def encode (text : String) : List UInt8 := text.toUTF8.data.toList

/-- `os.path.dirname(path)` is not empty. -/
def hasParent (path : String) : Bool := path.toList.contains '/'

/-- `os.makedirs(parent, exist_ok=True)`, which changes no file. -/
def makeParent (path : String) : Eff (Disk UInt8) Unit :=
  if hasParent path then touch else pure ()

def backupPathOf (suffix path : String) : String := path ++ ".bak_" ++ suffix

/-- The candidates of the search, by number. -/
def candidate (backupPath : String) : ℕ → String
  | 0 => backupPath
  | n + 1 => backupPath ++ "_" ++ toString (n + 2)

/-- The name under which a file is backed up on this disk. -/
def backupName (suffix path : String) (disk : Disk UInt8) : String :=
  freeName (candidate (backupPathOf suffix path)) disk

/-- `shutil.copy2`, or an empty file where there is nothing to copy. -/
def copyOrEmpty (path backup : String) (disk : Disk UInt8) : Eff (Disk UInt8) Unit :=
  if disk.contains path then copyFile path backup else writeFile backup []

/-- The body of the first loop, up to the new backup. -/
def backUp (record : AtomicEditRecord) : Eff State String := do
  Eff.onSecond (makeParent record.path)
  let s ← Eff.inspect fun s : State => s
  let backup := backupName s.1.session.backupSuffix record.path s.2
  Eff.onSecond (copyOrEmpty record.path backup s.2)
  pure backup

/-- `record.backup_path = candidate; backups.append(candidate)` -/
def setBackup (before rest : List AtomicEditRecord) (record : AtomicEditRecord) (s : State) :
    State :=
  ({ s.1 with
      session := { s.1.session with records := before ++ record :: rest }
      backups := s.1.backups ++ [record.backupPath] }, s.2)

def setRecord (record : AtomicEditRecord) (s : State) : State :=
  ({ s.1 with record := record.path }, s.2)

/-- The first loop: the records before are done with. -/
def backUpAll (before : List AtomicEditRecord) : List AtomicEditRecord → Eff State Unit
  | [] => pure ()
  | record :: rest =>
    if record.changed then do
      Eff.assign (setRecord record)
      let backup ← backUp record
      Eff.assign (setBackup before rest { record with backupPath := backup })
      backUpAll (before ++ [{ record with backupPath := backup }]) rest
    else backUpAll (before ++ [record]) rest

def setWritten (record : AtomicEditRecord) (s : State) : State :=
  ({ s.1 with written := s.1.written ++ [record.path] }, s.2)

/-- The second loop. -/
def writeAll : List AtomicEditRecord → Eff State Unit
  | [] => pure ()
  | record :: rest => do
    Eff.assign (setRecord record)
    Eff.onSecond (writeFile record.path (encode record.after))
    Eff.assign (setWritten record)
    writeAll rest

/-- The body of the loop of `rollback`; whether the file has been restored. -/
def restore (record : AtomicEditRecord) : Eff State Bool := do
  let s ← Eff.inspect fun s : State => s
  if s.2.contains record.backupPath then do
    Eff.onSecond (makeParent record.path)
    Eff.onSecond (copyFile record.backupPath record.path)
    pure true
  else pure false

def restoreAll (restored : List String) (errors : List (String × Err)) :
    List AtomicEditRecord → Eff State (List String × List (String × Err))
  | [] => pure (restored, errors)
  | record :: rest =>
    if record.backupPath = "" then restoreAll restored errors rest
    else do
      let outcome ← Eff.attempt (restore record)
      match outcome with
      | .ok true => restoreAll (restored ++ [record.path]) errors rest
      | .ok false => restoreAll restored errors rest
      | .error e => restoreAll restored (errors ++ [(record.path, e)]) rest

def setRollbackApplied (applied : Bool) (s : State) : State :=
  ({ s.1 with session := { s.1.session with rollbackApplied := applied } }, s.2)

def rollback : Eff State RollbackReport := do
  let s ← Eff.inspect fun s : State => s
  let outcome ← restoreAll [] [] s.1.session.records.reverse
  let applied := !outcome.1.isEmpty || !outcome.2.isEmpty
  Eff.assign (setRollbackApplied applied)
  pure ⟨outcome.2.isEmpty, applied, outcome.1, outcome.2⟩

def setCommitted (s : State) : State :=
  ({ s.1 with session := { s.1.session with committed := true } }, s.2)

def AtomicEditSession.changedRecords (session : AtomicEditSession) : List AtomicEditRecord :=
  session.records.filter (·.changed)

/-- What `commit` tries. -/
def commitBody (session : AtomicEditSession) : Eff State Unit := do
  backUpAll [] session.records
  writeAll session.changedRecords
  Eff.assign setCommitted

def commit : Eff State CommitReport := do
  Eff.assign fun s : State => (⟨s.1.session, [], [], ""⟩, s.2)
  let start ← Eff.inspect fun s : State => s
  let session := start.1.session
  let outcome ← Eff.attempt (commitBody session)
  match outcome with
  | .ok () => do
    let s ← Eff.inspect fun s : State => s
    pure ⟨true, true, false, s.1.written, s.1.backups, none, session.records.length,
      session.changedRecords.length⟩
  | .error e => do
    let rolledBack ← rollback
    let s ← Eff.inspect fun s : State => s
    pure ⟨false, false, rolledBack.rollbackApplied, s.1.written, s.1.backups,
      some ⟨s.1.record, e, rolledBack⟩, session.records.length, session.changedRecords.length⟩

/-- Rolling back once more after so many times, with the report of the last. -/
def rollbacks : ℕ → Eff State RollbackReport
  | 0 => rollback
  | n + 1 => do
    let _ ← rollback
    rollbacks n

end AtomicEdit
end ZeroRuntime
