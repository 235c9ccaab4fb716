import ZeroRuntime.Lib.DepthFirst
import ZeroRuntime.Lib.Machine
import ZeroRuntime.Lib.Value

/-!
# ZeroRuntime.Tasks.TaskRepository

The task store (`core/tasks/task_repository.py`): tasks with the tasks they depend on, in one file.

* Every operation reads the file first and writes it last; what is left in memory after an
  operation that raises is never read again, so the file is the whole state.
* A `Task` is normalised, and carries the proof of it: reading back what was saved changes nothing.
* Fields that are only carried along are in `rest`. `writable` says of them whether they can be
  written down, and is a parameter.
-/

namespace ZeroRuntime
namespace Tasks

open Lib DepthFirst

/-- The entries of a mapping. -/
abbrev Entries := List (String × Val)

/-! ## Tasks -/

def coreKeys : List String := ["task_id", "status", "depends_on"]

/-- A status as it is stored. -/
structure StatusText (status : String) : Prop where
  nonempty : status ≠ ""
  strip : Text.strip status = status
  lower : Text.lower status = status

/-- An id as it is stored. -/
structure IdText (id : String) : Prop where
  nonempty : id ≠ ""
  strip : Text.strip id = id

structure Task where
  taskId : String
  status : String
  dependsOn : List String
  rest : Entries
  taskId_text : IdText taskId
  status_text : StatusText status
  dependsOn_text : ∀ dep ∈ dependsOn, IdText dep
  dependsOn_nodup : dependsOn.Nodup
  rest_keys : ∀ e ∈ rest, e.1 ∉ coreKeys

def Task.entries (t : Task) : Entries :=
  ("task_id", .str t.taskId) :: ("status", .str t.status) ::
    ("depends_on", .list (t.dependsOn.map .str)) :: t.rest

/-- `project_runtime_status` -/
def Task.project (t : Task) (status : String) (h : StatusText status) : Task :=
  { t with status := status, status_text := h }

/-! ## Normalising -/

def normalizeDependsOn : Val → List String
  | .list items => ((items.map fun dep => Text.strip dep.toText).filter (· ≠ "")).eraseDups
  | _ => []

def resolveDefaultStatus (explicit : Val) (dependsOn : List String) : String :=
  let status := Text.lower explicit.text
  if status ≠ "" then status
  else if dependsOn ≠ [] then "blocked"
  else "queued"

theorem nodup_eraseDups (xs : List String) : xs.eraseDups.Nodup := by
  induction hn : xs.length using Nat.strong_induction_on generalizing xs with
  | _ n ih =>
    cases xs with
    | nil => exact List.nodup_nil
    | cons x xs =>
      rw [List.eraseDups_cons, List.nodup_cons]
      refine ⟨fun hmem => ?_, ih _ ?_ _ rfl⟩
      · rw [List.mem_eraseDups, List.mem_filter] at hmem
        simp at hmem
      · rw [← hn, List.length_cons]
        exact Nat.lt_succ_of_le (List.length_filter_le _ _)

theorem nodup_normalizeDependsOn (v : Val) : (normalizeDependsOn v).Nodup := by
  cases v with
  | list items => exact nodup_eraseDups _
  | _ => exact List.nodup_nil

theorem idText_normalizeDependsOn (v : Val) : ∀ dep ∈ normalizeDependsOn v, IdText dep := by
  intro dep hdep
  cases v with
  | list items =>
    rw [normalizeDependsOn, List.mem_eraseDups, List.mem_filter] at hdep
    obtain ⟨hmem, hne⟩ := hdep
    obtain ⟨item, -, rfl⟩ := List.mem_map.mp hmem
    exact ⟨of_decide_eq_true hne, Text.strip_strip item.toText⟩
  | _ => cases hdep

theorem statusText_queued : StatusText "queued" := ⟨by decide, by decide, by decide⟩

theorem statusText_blocked : StatusText "blocked" := ⟨by decide, by decide, by decide⟩

theorem statusText_resolveDefaultStatus (explicit : Val) (dependsOn : List String) :
    StatusText (resolveDefaultStatus explicit dependsOn) := by
  unfold resolveDefaultStatus
  dsimp only
  split
  · rename_i hne
    refine ⟨hne, ?_, Text.lower_lower explicit.text⟩
    rw [Text.strip_lower, Val.strip_text]
  split
  · exact statusText_blocked
  · exact statusText_queued

def normalizeTask : Val → Except Err Task
  | .dict task =>
    let taskId := (Val.getIn "task_id" task).text
    if hid : taskId = "" then .error (.valueError "task missing task_id")
    else
      let dependsOn := normalizeDependsOn (Val.getIn "depends_on" task)
      .ok
        { taskId := taskId
          status := resolveDefaultStatus (Val.getIn "status" task) dependsOn
          dependsOn := dependsOn
          rest := task.filter fun e => e.1 ∉ coreKeys
          taskId_text := ⟨hid, Val.strip_text _⟩
          status_text := statusText_resolveDefaultStatus _ _
          dependsOn_text := idText_normalizeDependsOn _
          dependsOn_nodup := nodup_normalizeDependsOn _
          rest_keys := fun _ he => of_decide_eq_true (List.mem_filter.mp he).2 }
  | _ => .error .typeError

/-! ## The graph of the tasks -/

/-- `_build_graph`: the last task of an id counts. -/
def buildGraph (tasks : List Task) : Graph String :=
  tasks.foldl (fun graph t => Dict.setEntries t.taskId t.dependsOn graph) []

def checkDependenciesExist (tasks : List Task) (dependsOn : List String) : Bool :=
  dependsOn.all (· ∈ tasks.map Task.taskId)

def completedStatuses : List String := ["completed", "done", "finished", "success"]

def isDependencyCompleted (status : String) : Bool := status ∈ completedStatuses

/-- The task of this id in `task_map` is completed. -/
def completedIn (tasks : List Task) (dep : String) : Bool :=
  (tasks.reverse.find? fun t => t.taskId = dep).any fun t => isDependencyCompleted t.status

def refreshBlockedStatus (tasks : List Task) (task : Task) : Task :=
  if task.status ∉ ["queued", "blocked"] then task
  else if task.dependsOn = [] then task.project "queued" statusText_queued
  else if task.dependsOn.all (completedIn tasks) then task.project "queued" statusText_queued
  else task.project "blocked" statusText_blocked

/-! ## Operations -/

/-- What the file holds is normalised; what cannot be is passed over. -/
def load (file : List Entries) : List Task :=
  file.filterMap fun e => (normalizeTask (.dict e)).toOption

section Operations

variable (writable : Entries → Bool)

def save (tasks : List Task) : Except Err (List Entries) :=
  if tasks.all (fun t => writable t.rest) then .ok (tasks.map Task.entries) else .error .typeError

def missesAuthority (authority : String → Bool) (t : Task) : Bool :=
  isDependencyCompleted t.status && !authority t.taskId

/-- `add_task`; `authority` says of which ids the given authority may complete the task. -/
def addTask (task : Val) (authority : String → Bool) (file : List Entries) :
    Except Err (Bool × List Entries) :=
  let tasks := load file
  (normalizeTask task).bind fun normalized =>
    if missesAuthority authority normalized then
      .error (.permissionError "task_completion_authority_required")
    else if normalized.taskId ∈ tasks.map Task.taskId then .ok (false, file)
    else if !checkDependenciesExist tasks normalized.dependsOn then
      .error (.valueError "depends_on task not found")
    else
      let grown := tasks ++ [normalized]
      if detectCycle (buildGraph grown) then .error (.valueError "DAG cycle detected")
      else (save writable (tasks ++ [refreshBlockedStatus grown normalized])).map (true, ·)

/-- The tasks with this one in the place of the first of its id, or at the end. -/
def placed (tasks : List Task) (task : Task) : List Task :=
  match tasks.findIdx? (·.taskId = task.taskId) with
  | some i => tasks.set i task
  | none => tasks ++ [task]

def upsertTask (task : Val) (authority : String → Bool) (file : List Entries) :
    Except Err (Bool × List Entries) :=
  let tasks := load file
  (normalizeTask task).bind fun normalized =>
    if missesAuthority authority normalized then
      .error (.permissionError "task_completion_authority_required")
    else if !checkDependenciesExist tasks normalized.dependsOn &&
        !checkDependenciesExist tasks (normalized.dependsOn.filter (· ≠ normalized.taskId)) then
      .error (.valueError "depends_on task not found")
    else
      let changed := placed tasks normalized
      if detectCycle (buildGraph changed) then .error (.valueError "DAG cycle detected")
      else (save writable (placed tasks (refreshBlockedStatus changed normalized))).map (true, ·)

/-- The given id, which may be any value, is this one. -/
def names (given : Val) (t : Task) : Bool :=
  match given with
  | .str id => t.taskId = id
  | _ => false

def deleteTask (taskId : Val) (file : List Entries) : Except Err (Bool × List Entries) :=
  (save writable ((load file).filter fun t => !names taskId t)).map (true, ·)

/-- The file is written anew if a status changed. -/
def saveChanged (tasks refreshed : List Task) (file : List Entries) : Except Err (List Entries) :=
  if refreshed.map Task.status ≠ tasks.map Task.status then save writable refreshed else .ok file

def listTasks (file : List Entries) : Except Err (List Task × List Entries) :=
  let tasks := load file
  let refreshed := tasks.map (refreshBlockedStatus tasks)
  (saveChanged writable tasks refreshed file).map (refreshed, ·)

def getTask (taskId : Val) (file : List Entries) : Except Err (Option Task × List Entries) :=
  let tasks := load file
  match tasks.find? (names taskId) with
  | some task =>
    let updated := refreshBlockedStatus tasks task
    (saveChanged writable tasks (placed tasks updated) file).map (some updated, ·)
  | none => .ok (none, file)

/-- The loop of `get_ready_tasks`: each task is refreshed against those before it as they are by
then. -/
def refreshEach (before : List Task) : List Task → List Task
  | [] => before
  | task :: rest =>
    refreshEach (before ++ [refreshBlockedStatus (before ++ task :: rest) task]) rest

def getReadyTasks (file : List Entries) : Except Err (List Task × List Entries) :=
  let tasks := load file
  let refreshed := refreshEach [] tasks
  (saveChanged writable tasks refreshed file).map (refreshed.filter (·.status = "queued"), ·)

/-! ## Runs -/

inductive Call where
  | addTask (task : Val) (authority : String → Bool)
  | upsertTask (task : Val) (authority : String → Bool)
  | deleteTask (taskId : Val)
  | listTasks
  | getTask (taskId : Val)
  | getReadyTasks

inductive Answer where
  | bool (b : Bool)
  | task (t : Option Task)
  | tasks (ts : List Task)
  | raised (e : Err)

/-- An operation that raises writes nothing. -/
def answer {ο : Type} (wrap : ο → Answer) (file : List Entries)
    (result : Except Err (ο × List Entries)) : Answer × List Entries :=
  match result with
  | .ok (o, file') => (wrap o, file')
  | .error e => (.raised e, file)

def call (file : List Entries) : Call → Answer × List Entries
  | .addTask task authority => answer .bool file (addTask writable task authority file)
  | .upsertTask task authority => answer .bool file (upsertTask writable task authority file)
  | .deleteTask taskId => answer .bool file (deleteTask writable taskId file)
  | .listTasks => answer .tasks file (listTasks writable file)
  | .getTask taskId => answer .task file (getTask writable taskId file)
  | .getReadyTasks => answer .tasks file (getReadyTasks writable file)

def taskRepository : Machine (List Entries) Call Answer := ⟨call writable⟩

end Operations

end Tasks
end ZeroRuntime
