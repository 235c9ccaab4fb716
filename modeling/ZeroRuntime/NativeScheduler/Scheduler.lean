import ZeroRuntime.Lib.Keyed
import ZeroRuntime.Lib.Machine
import ZeroRuntime.Lib.Sorted
import ZeroRuntime.Lib.Value

/-!
# ZeroRuntime.NativeScheduler.Scheduler

The native scheduler (`core/runtime/runtime_native_scheduler.py`): a table of items that are run
through a mainline, with a counter of attempts, and a file that every change is saved to.

* What the mainline does in a run is an input: it answers with a payload or raises.
* The process may die in the middle of a run, or once the result is saved; `reload` then goes on
  from the file.
* `runs` is not in the source: the runs that were made, for the statements about them.
* `taken` lists the runs that a sequence of `run_ready` calls makes, one after another.
-/

namespace ZeroRuntime
namespace NativeScheduler

open Lib

/-- The entries of a mapping. -/
abbrev Entries := List (String × Val)

inductive Status where
  | queued
  | running
  | completed
  | failed
  | blocked
  | recoveryQueued
  | continuationReady
deriving DecidableEq

def Status.value : Status → String
  | queued => "queued"
  | running => "running"
  | completed => "completed"
  | failed => "failed"
  | blocked => "blocked"
  | recoveryQueued => "recovery_queued"
  | continuationReady => "continuation_ready"

/-- `RuntimeNativeScheduleItem`, with a `schedule_id` that has been through `_validate_text`. -/
structure Item where
  scheduleId : String
  goal : String
  status : Status
  priority : ℤ
  readyTick : ℤ
  attempts : ℕ
  maxAttempts : ℕ
  mainlineResult : Entries
  continuationRef : Entries
  recoveryRef : Entries
  authorityRef : Entries
  createdAt : String
  strip_id : Text.strip scheduleId = scheduleId
  id_nonempty : scheduleId ≠ ""
  maxAttempts_pos : 1 ≤ maxAttempts

/-- `_items` -/
structure Items where
  list : List Item
  nodup : (list.map Item.scheduleId).Nodup

def Items.get? (items : Items) (id : String) : Option Item :=
  items.list.find? fun x => x.scheduleId = id

def Items.update (items : Items) (id : String) (f : Item → Item)
    (hf : ∀ x, (f x).scheduleId = x.scheduleId) : Items :=
  ⟨modifyFirst (fun x => x.scheduleId = id) f items.list, by
    rw [map_modifyFirst hf]
    exact items.nodup⟩

theorem nodup_add {xs : List Item} {item : Item} (hxs : (xs.map Item.scheduleId).Nodup)
    (hnew : item.scheduleId ∉ xs.map Item.scheduleId) :
    ((xs ++ [item]).map Item.scheduleId).Nodup := by
  rw [List.map_append]
  refine List.nodup_append.mpr ⟨hxs, List.nodup_singleton _, ?_⟩
  rintro a ha b hb rfl
  cases List.mem_singleton.mp hb
  exact hnew ha

def Items.add (items : Items) (item : Item)
    (hnew : item.scheduleId ∉ items.list.map Item.scheduleId) : Items :=
  ⟨items.list ++ [item], nodup_add items.nodup hnew⟩

/-- How a run came to its end. -/
inductive RunEnd where
  | completed
  | blocked
  | failed
  | died
deriving DecidableEq

structure Scheduler where
  items : Items
  file : Items
  runs : List (String × RunEnd)

def Scheduler.save (s : Scheduler) : Scheduler := { s with file := s.items }

/-- A new process that has loaded the file. -/
def Scheduler.reload (s : Scheduler) : Scheduler := { s with items := s.file }

/-- `_replace_item`, which saves. -/
def Scheduler.replaceItem (s : Scheduler) (id : String) (f : Item → Item)
    (hf : ∀ x, (f x).scheduleId = x.scheduleId) : Scheduler :=
  { s with items := s.items.update id f hf }.save

def Scheduler.logged (s : Scheduler) (id : String) (e : RunEnd) : Scheduler :=
  { s with runs := s.runs ++ [(id, e)] }

/-! ## Scheduling -/

/-- The arguments of `schedule_goal` that are stored, and the time. -/
structure Goal where
  goal : String
  scheduleId : Option String
  priority : ℤ
  readyTick : ℤ
  maxAttempts : ℤ
  now : String

section Scheduling

-- the fingerprint of a goal and its place
variable (fingerprint : String → ℕ → String)

def scheduleGoal (g : Goal) (s : Scheduler) : Except Err Scheduler :=
  let goal := Text.strip g.goal
  if goal = "" then .error (.rejected "goal_required")
  else
    let id := Text.strip (g.scheduleId.getD
      ("runtime-native-schedule-" ++ fingerprint goal (s.items.list.length + 1)))
    if hid : id = "" then .error (.rejected "schedule_id_required")
    else if hnew : id ∈ s.items.list.map Item.scheduleId then
      .error (.rejected ("schedule already exists: " ++ Text.quoted id))
    else
      let item : Item :=
        { scheduleId := id
          goal := goal
          status := .queued
          priority := g.priority
          readyTick := g.readyTick
          attempts := 0
          maxAttempts := (max 1 g.maxAttempts).toNat
          mainlineResult := []
          continuationRef := []
          recoveryRef := []
          authorityRef := []
          createdAt := g.now
          strip_id := Text.strip_strip _
          id_nonempty := hid
          maxAttempts_pos := by omega }
      .ok { s with items := s.items.add item hnew }.save

def emptyScheduler : Scheduler := ⟨⟨[], List.nodup_nil⟩, ⟨[], List.nodup_nil⟩, []⟩

/-- A scheduler with a set of queued items; a goal that is refused adds none. -/
def queueUp (goals : List Goal) : Scheduler :=
  goals.foldl (fun s g =>
    match scheduleGoal fingerprint g s with
    | .ok s' => s'
    | .error _ => s) emptyScheduler

end Scheduling

/-! ## Items that are ready -/

/-- The order of `(-priority, created_at, schedule_id)`. -/
def sortsBefore (a b : Item) : Prop :=
  b.priority < a.priority ∨ a.priority = b.priority ∧
    (a.createdAt ≠ b.createdAt ∧ TextLe a.createdAt b.createdAt ∨
      a.createdAt = b.createdAt ∧ TextLe a.scheduleId b.scheduleId)

instance : DecidableRel sortsBefore := fun _ _ => inferInstanceAs (Decidable (_ ∨ _))

def readyItems (s : Scheduler) (currentTick limit : ℤ) : List Item :=
  ((s.items.list.filter fun x => x.status = .queued ∧ x.readyTick ≤ currentTick).insertionSort
    sortsBefore).take (max 1 limit).toNat

/-! ## Running -/

inductive Stop where
  | never
  | duringRun
  | afterRun
deriving DecidableEq

/-- What the mainline does, and when the process dies. -/
structure Run where
  answer : Except (String × String) Entries
  stop : Stop

inductive Answer where
  | returned (item : Item)
  | raised (e : Err)
  | crashed

def runnable (status : Status) : Bool :=
  status ∈ [Status.queued, .recoveryQueued, .continuationReady]

def startRun (item : Item) : Item :=
  { item with status := .running, attempts := item.attempts + 1 }

/-- The payload of a run; what is raised becomes one. -/
def resultPayload : Except (String × String) Entries → Entries
  | .ok payload => payload
  | .error (type, message) =>
    [("status", .str "failed"),
      ("final_result", .dict [("ok", .bool false),
        ("error", .dict [("type", .str type), ("message", .str message)])])]

/-- `str(payload.get("status") or "")` -/
def payloadStatus (payload : Entries) : String :=
  let status := Val.getIn "status" payload
  if status.truthy then status.toText else ""

def finalStatus (status : String) (running : Item) : Status :=
  if status = "completed" then .completed
  else if status = "blocked" then .blocked
  else if running.attempts + 1 ≥ running.maxAttempts then .failed
  else .queued

def runEnd (status : String) : RunEnd :=
  if status = "completed" then .completed
  else if status = "blocked" then .blocked
  else .failed

def copyDict : Val → Entries
  | .dict kvs => kvs
  | _ => []

section Running

-- the ticket of an id as the queue of the mainline has it
variable (latestTicket : String → Option Entries)

/-- The recovery reference with the ticket as it is by now. -/
def refreshTicket (recoveryRef : Entries) : Entries :=
  let ticket := copyDict (Val.getIn "recovery_ticket" recoveryRef)
  let ticketId := Val.getIn "ticket_id" ticket
  if ticketId.truthy then
    match latestTicket ticketId.toText with
    | some latest => Val.put "recovery_ticket" (.dict latest) recoveryRef
    | none => recoveryRef
  else recoveryRef

def finishRun (payload : Entries) (status : Status) (item : Item) : Item :=
  let task := copyDict (Val.getIn "task" (copyDict (Val.getIn "loop_record" payload)))
  { item with
    status := status
    mainlineResult := payload
    continuationRef := copyDict (Val.getIn "continuation_ref" task)
    recoveryRef := refreshTicket latestTicket (copyDict (Val.getIn "recovery_ref" task))
    authorityRef := copyDict (Val.getIn "authority_decision" payload) }

def runItem (scheduleId : String) (run : Run) (s : Scheduler) : Answer × Scheduler :=
  let id := Text.strip scheduleId
  match s.items.get? id with
  | none => (.raised (.rejected ("schedule does not exist: " ++ Text.quoted id)), s)
  | some item =>
    if runnable item.status then
      let running := startRun item
      let s₁ := s.replaceItem id startRun fun _ => rfl
      if run.stop = .duringRun then (.crashed, (s₁.logged id .died).reload)
      else
        let payload := resultPayload run.answer
        let status := payloadStatus payload
        let finish := finishRun latestTicket payload (finalStatus status running)
        let s₂ := (s₁.logged id (runEnd status)).replaceItem id finish fun _ => rfl
        if run.stop = .afterRun then (.crashed, s₂.reload)
        else (.returned (finish running), s₂.save)
    else
      (.raised (.rejected ("schedule cannot run from status: " ++ Text.quoted item.status.value)), s)

def itemRuns : Machine Scheduler (String × Run) Answer :=
  ⟨fun s turn => runItem latestTicket turn.1 turn.2 s⟩

/-- The loop of `run_ready`: it ends with a crash, or with an item that is refused. -/
def runEach (s : Scheduler) : List (String × Run) → Scheduler
  | [] => s
  | turn :: turns =>
    match runItem latestTicket turn.1 turn.2 s with
    | (.returned _, s') => runEach s' turns
    | (_, s') => s'

/-- A call of `run_ready`, with what the mainline does in its runs. -/
structure Call where
  currentTick : ℤ
  limit : ℤ
  run : ℕ → Run

def turnsOf (s : Scheduler) (c : Call) : List (String × Run) :=
  (readyItems s c.currentTick c.limit).zipIdx.map fun x => (x.1.scheduleId, c.run x.2)

def runReady (s : Scheduler) (c : Call) : Scheduler := runEach latestTicket s (turnsOf s c)

/-- The runs of the loop that are made. -/
def takenEach (s : Scheduler) : List (String × Run) → List (String × Run)
  | [] => []
  | turn :: turns =>
    match runItem latestTicket turn.1 turn.2 s with
    | (.returned _, s') => turn :: takenEach s' turns
    | (_, _) => [turn]

/-- The runs that a sequence of calls makes. -/
def taken (s : Scheduler) : List Call → List (String × Run)
  | [] => []
  | c :: calls => takenEach latestTicket s (turnsOf s c) ++ taken (runReady latestTicket s c) calls

end Running

end NativeScheduler
end ZeroRuntime
