import ZeroRuntime.Lib.Machine
import ZeroRuntime.Lib.Merge

/-!
# ZeroRuntime.TaskFile.TaskStateMachine

The state file of a task (`core/runtime/task_state_machine.py`): a mapping that `initialize`,
`transition` and `patch_state` read, change and write over.

* `Stored` is the file as `json.load` sees it. A write that is cut short leaves a file that cannot be
  read, and `readState` answers with a new task.
* `Fate` says what becomes of the process at the write of a call. A value that JSON cannot write is
  found while the file is being written.
* After the write the call adds an event to the timeline, which fails if its data cannot be written.
  The timeline itself is not modelled.
-/

namespace ZeroRuntime
namespace TaskFile

open Lib

/-- The entries of a mapping. -/
abbrev Entries := List (String × Val)

def validStates : List String :=
  ["created", "planning", "running", "reflecting", "finished", "failed"]

def allowedTransitions : String → List String
  | "created" => ["planning", "running", "failed"]
  | "planning" => ["running", "failed"]
  | "running" => ["reflecting", "finished", "failed"]
  | "reflecting" => ["running", "finished", "failed"]
  | _ => []

/-- `PROTECTED_STATE_KEYS`, in their order. -/
def protectedStateKeys : List String := ["current_state", "history", "state", "status"]

/-! ## The file -/

inductive Stored where
  | absent
  | json (v : Val)
  | cutShort

def newState (now : String) : Entries :=
  [("current_state", .str "created"), ("history", .list []), ("updated_at", .str now)]

def readState (now : String) : Stored → Entries
  | .json (.dict data) => data
  | _ => newState now

inductive Fate where
  | goesOn
  | stopsAfter
  | stopsDuring
deriving DecidableEq

inductive Answer where
  | returned (state : Entries)
  | raised (e : Err)
  | crashed

/-- `_write_state`, then `append_event` with this data. -/
def writeState (state event : Entries) : Fate → Answer × Stored
  | .stopsDuring => (.crashed, .cutShort)
  | fate =>
    if (Val.dict state).writable then
      if fate = .stopsAfter then (.crashed, .json (.dict state))
      else if (Val.dict event).writable then (.returned state, .json (.dict state))
      else (.raised .typeError, .json (.dict state))
    else (.raised .typeError, .cutShort)

/-! ## Calls -/

def historyEntry (state now : String) : Val := .dict [("state", .str state), ("at", .str now)]

def historyOf (state : Entries) : List Val :=
  match Val.getIn "history" state with
  | .list items => items
  | _ => []

/-- `str(x).strip().lower()` -/
def cleanText (x : Val) : String := Text.lower (Text.strip x.toText)

/-- The current state as `transition` reads it. -/
def currentOf (state : Entries) : String :=
  cleanText ((Val.getIn "current_state" state).orElse (.str "created"))

def validatedPatch (updates : Entries) : Except Err Entries :=
  let protectedKeys := protectedStateKeys.filter (Val.hasKey · updates)
  if protectedKeys ≠ [] then
    .error (.permissionError
      ("task_state_mutation_authority_required:" ++ String.intercalate "," protectedKeys))
  else .ok (Val.merge [] (updates.filter fun e => e.1 ∉ protectedStateKeys))

/-- An optional mapping that counts as empty when it is missing. -/
def entriesOf (data : Option (Dict String Val)) : Entries :=
  match data with
  | some d => d.entries
  | none => []

/-- The state that `initialize` starts from: the one at hand, or a new one if it has no history. -/
def startingState (taskName goal taskType now : String) (existing : Entries) : Entries :=
  if (Val.getIn "history" existing).truthy then
    Val.merge existing
      [("task_name", .str taskName), ("goal", .str goal), ("task_type", .str taskType),
        ("updated_at", .str now)]
  else
    [("task_name", .str taskName), ("goal", .str goal), ("task_type", .str taskType),
      ("current_state", .str "created"), ("history", .list [historyEntry "created" now]),
      ("updated_at", .str now)]

/-- `initialize` with `force_new_run=False` -/
def initializeTask (taskName goal taskType : String) (extraFields : Option (Dict String Val))
    (now : String) (fate : Fate) (s : Stored) : Answer × Stored :=
  let state := startingState taskName goal taskType now (readState now s)
  match validatedPatch (entriesOf extraFields) with
  | .ok safe =>
    let named := [("task_name", .str taskName), ("goal", .str goal), ("task_type", .str taskType)]
    writeState (Val.merge state safe) (Val.merge named (entriesOf extraFields)) fate
  | .error e => (.raised e, s)

/-- The data of a transition that goes into the state. -/
def transitionData (data : Option (Dict String Val)) : Entries :=
  (entriesOf data).filter fun e => e.1 ≠ "history"

def accepts (current clean : String) : Bool :=
  clean = current || clean ∈ allowedTransitions current

def transition (newState : Val) (data : Option (Dict String Val)) (now : String) (fate : Fate)
    (s : Stored) : Answer × Stored :=
  let clean := cleanText newState
  let state := readState now s
  let current := currentOf state
  if clean ∉ validStates then
    (.raised (.valueError ("Invalid task state: " ++ newState.toText)), s)
  else if !accepts current clean then
    (.raised (.valueError ("Invalid task state transition: " ++ current ++ " -> " ++ clean)), s)
  else
    let moved := Val.merge state
      [("current_state", .str clean), ("updated_at", .str now),
        ("history", .list (historyOf state ++ [historyEntry clean now]))]
    writeState (Val.merge moved (transitionData data))
      (Val.merge [("new_state", .str clean)] (entriesOf data)) fate

def patchState (updates : Val) (now : String) (fate : Fate) (s : Stored) : Answer × Stored :=
  match updates with
  | .dict updates =>
    match validatedPatch updates with
    | .ok safe =>
      let state := Val.merge (readState now s) safe
      writeState (Val.put "updated_at" (.str now) state) safe fate
    | .error e => (.raised e, s)
  | _ => (.raised .typeError, s)

/-! ## Runs -/

inductive Request where
  | initializeTask (taskName goal taskType : String) (extraFields : Option (Dict String Val))
  | transition (newState : Val) (data : Option (Dict String Val))
  | patchState (updates : Val)

/-- A request, the reading of the clock, and what becomes of the process at its write. -/
structure Call where
  request : Request
  now : String
  fate : Fate

def perform (s : Stored) (c : Call) : Answer × Stored :=
  match c.request with
  | .initializeTask taskName goal taskType extraFields =>
    initializeTask taskName goal taskType extraFields c.now c.fate s
  | .transition newState data => transition newState data c.now c.fate s
  | .patchState updates => patchState updates c.now c.fate s

/-- A process that stops is started again, on the file it left. -/
def taskStateMachine : Machine Stored Call Answer := ⟨perform⟩

/-- `TaskStateMachine(task_dir)`, which writes the state of a new task if there is no file. -/
def construct (now : String) (fate : Fate) : Stored → Stored
  | .absent => if fate = .stopsDuring then .cutShort else .json (.dict (newState now))
  | s => s

end TaskFile
end ZeroRuntime
