import ZeroRuntime.Queue.Order

/-!
# ZeroRuntime.Queue.Isolation

Which stored tasks a call to the task queue touches.

* `Owned`: the task has this id, and its own session is this one. `Identity` is what a task is told
  apart by.
* `Isolated`: a call that names an id and a session changes one task at most, one it owns; an
  admitted task leaves the tasks of other identities as they are.
* `Careful`: under the texts `session::id` and `id` no other task is stored, and no task of another
  identity is overwritten.
* `isolated_of_careful`: careful runs are isolated. `sessions_not_isolated`: others need not be.
-/

namespace ZeroRuntime
namespace Queue

open Lib

namespace TaskSchedulerQueue

/-! ## What a call may touch -/

/-- A task of this id, of this session. -/
def Owned (taskId sessionId : String) (t : ScheduledTask) : Prop :=
  t.taskId = taskId ∧ t.session = .ok sessionId

structure Identity where
  session : String
  goalLineageId : String
  branchId : String
  taskId : String

/-- What `_storage_key` reads of a task. -/
def identityOf (t : ScheduledTask) : Except Err Identity := do
  let session ← t.session
  let lineage ← extractQueueLineage (.dict t.payload)
  pure ⟨session, (Val.getIn "goal_lineage_id" lineage).text,
    (Val.getIn "branch_id" lineage).text, t.taskId⟩

/-- What is stored under a key, and whether it is queued, is the same. -/
def Same (q q' : TaskSchedulerQueue) (key : String) : Prop :=
  q'.tasks.get? key = q.tasks.get? key ∧ (key ∈ q'.queuedIds ↔ key ∈ q.queuedIds)

def named : QueueCall → Option (String × KeyScope)
  | .requeue taskId _ _ scope | .cancel taskId scope _ | .markFinished taskId _ _ scope _
  | .markFailed taskId _ scope _ | .incrementRetry taskId scope | .updatePriority taskId _ scope
  | .remove taskId scope => some (taskId, scope)
  | .enqueue .. | .popNext _ | .peekNext => none

/-- One task at most has changed, and it is owned. -/
def OneOwned (q q' : TaskSchedulerQueue) (taskId sessionId : String) : Prop :=
  ∃ key, (∀ k, k ≠ key → Same q q' k) ∧
    (Same q q' key ∨ ∃ t, q.tasks.get? key = some t ∧ Owned taskId sessionId t)

section Calls

variable (digest : Val → String)

/-- An admitted task left the tasks of other identities stored, and queued if they were. -/
def KeepsOthers (q : TaskSchedulerQueue) (task : ScheduledTask) (overwrite : Bool) : Prop :=
  (q.enqueue digest task overwrite).1 = .ok true →
    ∀ k t, q.tasks.get? k = some t → identityOf t ≠ identityOf task →
      (q.enqueue digest task overwrite).2.tasks.get? k = some t ∧
        (k ∈ q.queuedIds → k ∈ (q.enqueue digest task overwrite).2.queuedIds)

structure Isolated (q : TaskSchedulerQueue) (c : QueueCall) : Prop where
  one : ∀ taskId scope, named c = some (taskId, scope) → scope.cleanSession ≠ "" →
    OneOwned q (call digest q c).2 (Text.strip taskId) scope.cleanSession
  others : ∀ task overwrite, c = .enqueue task overwrite → KeepsOthers digest q task overwrite

end Calls

/-! ## Careful calls -/

def sessionKey (taskId : String) (scope : KeyScope) : String :=
  scope.cleanSession ++ "::" ++ Text.strip taskId

def NoLineage (scope : KeyScope) : Prop :=
  scope.goalLineageId.getD "" = "" ∧ scope.branchId.getD "" = ""

/-- The call would change a task stored under this key. -/
def Touches (q : TaskSchedulerQueue) (key : String) (t : ScheduledTask) : QueueCall → Prop
  | .requeue .. => key ∉ q.queuedIds
  | .markFinished taskId _ authority _ _ => acceptsAuthority authority taskId t = .ok true
  | _ => True

structure Careful (q : TaskSchedulerQueue) (c : QueueCall) : Prop where
  joined : ∀ taskId scope, named c = some (taskId, scope) → scope.cleanSession ≠ "" →
    NoLineage scope → ∀ t, q.tasks.get? (sessionKey taskId scope) = some t →
      Touches q (sessionKey taskId scope) t c → Owned (Text.strip taskId) scope.cleanSession t
  bare : ∀ taskId scope, named c = some (taskId, scope) → scope.cleanSession ≠ "" →
    (NoLineage scope → q.tasks.get? (sessionKey taskId scope) = none) →
      ∀ t, q.tasks.get? (Text.strip taskId) = some t → Touches q (Text.strip taskId) t c →
        Owned (Text.strip taskId) scope.cleanSession t
  overwritten : ∀ task key, c = .enqueue task true → storageKey task = .ok key →
    ∀ t, q.tasks.get? key = some t → identityOf t = identityOf task

variable {digest : Val → String} {q : TaskSchedulerQueue}

/-! ## The scan for a task -/

variable {scope : KeyScope}

theorem owned_of_scanMatches {clean : String} {t : ScheduledTask}
    (hsession : scope.cleanSession ≠ "") (h : scanMatches clean scope t = .ok true) :
    Owned clean scope.cleanSession t := by
  unfold scanMatches at h
  obtain ⟨lineage, -, h⟩ := bind_eq_ok.mp h
  by_cases hid : t.taskId ≠ clean
  · rw [if_pos hid] at h
    cases h
  · rw [if_neg hid] at h
    dsimp only at h
    rw [if_neg hsession] at h
    obtain ⟨s, hs, h⟩ := bind_eq_ok.mp h
    have hall := Except.ok.inj h
    rw [Bool.and_eq_true, Bool.and_eq_true] at hall
    have heq : s = scope.cleanSession := of_decide_eq_true hall.1.1
    refine ⟨not_not.mp hid, ?_⟩
    unfold ScheduledTask.session
    rw [hs, heq]
    exact if_pos hsession

variable {key : String}

theorem scanMatches_of_mem {clean : String} {es : List (String × ScheduledTask)}
    {keys : List String} (h : scanKeys clean scope es = .ok keys) (hkey : key ∈ keys) :
    ∃ t, (key, t) ∈ es ∧ scanMatches clean scope t = .ok true := by
  induction es generalizing keys with
  | nil =>
    cases h
    cases hkey
  | cons e es ih =>
    obtain ⟨k, t⟩ := e
    obtain ⟨taken, htaken, h⟩ := bind_eq_ok.mp h
    obtain ⟨rest, hrest, h⟩ := bind_eq_ok.mp h
    have hkeys := Except.ok.inj h
    cases taken with
    | true =>
      rw [if_pos rfl] at hkeys
      rw [← hkeys] at hkey
      rcases List.mem_cons.mp hkey with rfl | hkey
      · exact ⟨t, List.mem_cons_self, htaken⟩
      · obtain ⟨t', ht', hmatch⟩ := ih hrest hkey
        exact ⟨t', List.mem_cons_of_mem _ ht', hmatch⟩
    | false =>
      rw [if_neg Bool.false_ne_true] at hkeys
      rw [← hkeys] at hkey
      obtain ⟨t', ht', hmatch⟩ := ih hrest hkey
      exact ⟨t', List.mem_cons_of_mem _ ht', hmatch⟩

theorem mem_of_uniqueKey {keys : List String} (h : uniqueKey keys = some key) : key ∈ keys := by
  unfold uniqueKey at h
  split at h
  · cases h
    exact List.mem_singleton_self key
  · cases h

/-- A key is that of a stored task; it is found under the joined text, under the bare id, or by the
scan. -/
theorem resolveKey_cases {taskId : String} (hsession : scope.cleanSession ≠ "")
    (h : q.resolveKey taskId scope = .ok (some key)) :
    ∃ t, q.tasks.get? key = some t ∧
      ((key = sessionKey taskId scope ∧ NoLineage scope) ∨
        (key = Text.strip taskId ∧
          (NoLineage scope → q.tasks.get? (sessionKey taskId scope) = none)) ∨
        Owned (Text.strip taskId) scope.cleanSession t) := by
  unfold resolveKey at h
  dsimp only at h
  split at h
  · rename_i hjoined
    obtain ⟨t, ht⟩ := Dict.contains_iff.mp hjoined.2.1
    cases h
    exact ⟨t, ht, .inl ⟨rfl, hjoined.2.2⟩⟩
  · rename_i hjoined
    have hnone : NoLineage scope → q.tasks.get? (sessionKey taskId scope) = none := by
      intro hscope
      by_contra hsome
      obtain ⟨t, ht⟩ := Option.ne_none_iff_exists'.mp hsome
      exact hjoined ⟨hsession, Dict.contains_iff.mpr ⟨t, ht⟩, hscope⟩
    split at h
    · rename_i hbare
      obtain ⟨t, ht⟩ := Dict.contains_iff.mp hbare
      cases h
      exact ⟨t, ht, .inr (.inl ⟨rfl, hnone⟩)⟩
    · obtain ⟨keys, hscan, hunique⟩ := bind_eq_ok.mp h
      obtain ⟨t, ht, hmatch⟩ :=
        scanMatches_of_mem hscan (mem_of_uniqueKey (Except.ok.inj hunique))
      exact ⟨t, Dict.mem_entries.mp ht, .inr (.inr (owned_of_scanMatches hsession hmatch))⟩

theorem Careful.owned {c : QueueCall} (h : Careful q c) {taskId : String}
    (hnamed : named c = some (taskId, scope)) (hsession : scope.cleanSession ≠ "")
    (hkey : q.resolveKey taskId scope = .ok (some key)) {t : ScheduledTask}
    (ht : q.tasks.get? key = some t) (htouches : Touches q key t c) :
    Owned (Text.strip taskId) scope.cleanSession t := by
  obtain ⟨t', ht', hcases⟩ := resolveKey_cases hsession hkey
  obtain rfl := Option.some.inj (ht.symm.trans ht')
  rcases hcases with ⟨rfl, hscope⟩ | ⟨rfl, hnone⟩ | howned
  · exact h.joined taskId scope hnamed hsession hscope t ht htouches
  · exact h.bare taskId scope hnamed hsession hnone t ht htouches
  · exact howned

/-! ## What the operations leave alone -/

theorem Same.refl (q : TaskSchedulerQueue) (key : String) : Same q q key := ⟨rfl, Iff.rfl⟩

theorem Same.trans {q q' q'' : TaskSchedulerQueue} (h : Same q q' key) (h' : Same q' q'' key) :
    Same q q'' key :=
  ⟨h'.1.trans h.1, h'.2.trans h.2⟩

variable {k : String}

theorem same_setTask (t : ScheduledTask) (hk : k ≠ key) : Same q (q.setTask key t) k := by
  refine ⟨?_, Iff.rfl⟩
  simp [TaskSchedulerQueue.setTask, hk]

theorem same_discard (hk : k ≠ key) : Same q (q.discard key) k :=
  ⟨rfl, by simp [discard, hk]⟩

theorem same_pushEntry (rank : Rank) (hk : k ≠ key) : Same q (q.pushEntry key rank) k :=
  ⟨rfl, by simp [pushEntry, hk]⟩

theorem same_endTask (t : ScheduledTask) (hk : k ≠ key) :
    Same q ((q.discard key).setTask key t) k :=
  (same_discard hk).trans (same_setTask t hk)

theorem same_storeTask (stored : ScheduledTask) (requeued : Bool) (conflicts : List LineageConflict)
    (hk : k ≠ key) : Same q (q.storeTask key stored requeued conflicts).2 k := by
  have hput : Same q ((q.setTask key (cleared stored)).pushEntry key stored.rank) k :=
    (same_setTask _ hk).trans (same_pushEntry _ hk)
  unfold storeTask
  dsimp only
  split
  · exact hput
  · exact hput

theorem same_overwriteTask (task existing : ScheduledTask) (hk : k ≠ key) :
    Same q (q.overwriteTask key task existing).2 k := by
  unfold overwriteTask
  dsimp only
  split
  · exact same_discard hk
  · exact (same_discard hk).trans (same_storeTask _ _ _ hk)

/-! ## Careful calls are isolated -/

theorem oneOwned_refl (q : TaskSchedulerQueue) (taskId sessionId : String) :
    OneOwned q q taskId sessionId :=
  ⟨"", fun k _ => Same.refl q k, .inl (Same.refl q "")⟩

section Named

variable {c : QueueCall} {taskId : String} {scope : KeyScope}

/-- An operation that works on the task its id resolves to. -/
theorem oneOwned_withTask (h : Careful q c) (hnamed : named c = some (taskId, scope))
    (hsession : scope.cleanSession ≠ "") {body : String → ScheduledTask → QueueM Bool}
    (hframe : ∀ key t k, k ≠ key → Same q (body key t).2 k)
    (hidle : ∀ key t, ¬Touches q key t c → Same q (body key t).2 key) :
    OneOwned q (q.withTask taskId scope body).2 (Text.strip taskId) scope.cleanSession := by
  unfold withTask
  split
  · exact oneOwned_refl q _ _
  · exact oneOwned_refl q _ _
  · rename_i key t hresolved
    obtain ⟨hkey, ht⟩ := resolved_eq_some hresolved
    refine ⟨key, hframe key t, ?_⟩
    by_cases htouches : Touches q key t c
    · exact .inr ⟨t, ht, h.owned hnamed hsession hkey ht htouches⟩
    · exact .inl (hidle key t htouches)

theorem oneOwned_remove (h : Careful q (.remove taskId scope))
    (hsession : scope.cleanSession ≠ "") :
    OneOwned q (q.remove taskId scope).2 (Text.strip taskId) scope.cleanSession := by
  unfold remove
  split
  · exact oneOwned_refl q _ _
  · exact oneOwned_refl q _ _
  · rename_i key hkey
    obtain ⟨t, ht, -⟩ := resolveKey_cases hsession hkey
    refine ⟨key, fun k hk => ⟨by simp [hk], by simp [discard, hk]⟩, .inr ⟨t, ht, ?_⟩⟩
    exact h.owned rfl hsession hkey ht trivial

theorem oneOwned_call (h : Careful q c) (hnamed : named c = some (taskId, scope))
    (hsession : scope.cleanSession ≠ "") :
    OneOwned q (call digest q c).2 (Text.strip taskId) scope.cleanSession := by
  cases c with
  | enqueue task overwrite => cases hnamed
  | popNext now => cases hnamed
  | peekNext => cases hnamed
  | requeue id priority error scope' =>
    cases hnamed
    simp only [call, Prod.map_snd, id_eq]
    refine oneOwned_withTask h rfl hsession (fun key t k hk => ?_) (fun key t hidle => ?_)
    · dsimp only
      split
      · exact Same.refl q k
      · exact (same_setTask _ hk).trans (same_pushEntry _ hk)
    · rw [if_pos (not_not.mp hidle)]
      exact Same.refl q key
  | cancel id scope' now =>
    cases hnamed
    simp only [call, Prod.map_snd, id_eq]
    unfold TaskSchedulerQueue.cancel
    exact oneOwned_withTask h rfl hsession (fun key t k hk => same_endTask _ hk)
      (fun key t hidle => absurd trivial hidle)
  | markFinished id result authority scope' now =>
    cases hnamed
    simp only [call, Prod.map_snd, id_eq]
    refine oneOwned_withTask h rfl hsession (fun key t k hk => ?_) (fun key t hidle => ?_)
    · split
      · exact Same.refl q k
      · exact Same.refl q k
      · exact same_endTask _ hk
    · split
      · exact Same.refl q key
      · exact Same.refl q key
      · rename_i haccepts
        exact absurd haccepts hidle
  | markFailed id error scope' now =>
    cases hnamed
    simp only [call, Prod.map_snd, id_eq]
    unfold TaskSchedulerQueue.markFailed
    exact oneOwned_withTask h rfl hsession (fun key t k hk => same_endTask _ hk)
      (fun key t hidle => absurd trivial hidle)
  | incrementRetry id scope' =>
    cases hnamed
    simp only [call, Prod.map_snd, id_eq]
    unfold TaskSchedulerQueue.incrementRetry
    exact oneOwned_withTask h rfl hsession (fun key t k hk => same_setTask _ hk)
      (fun key t hidle => absurd trivial hidle)
  | updatePriority id priority scope' =>
    cases hnamed
    simp only [call, Prod.map_snd, id_eq]
    unfold TaskSchedulerQueue.updatePriority
    refine oneOwned_withTask h rfl hsession (fun key t k hk => ?_)
      (fun key t hidle => absurd trivial hidle)
    dsimp only
    split
    · exact (same_setTask _ hk).trans (same_pushEntry _ hk)
    · exact same_setTask _ hk
  | remove id scope' =>
    cases hnamed
    simp only [call, Prod.map_snd, id_eq]
    exact oneOwned_remove h hsession

end Named

theorem keepsOthers_of_careful {task : ScheduledTask} {overwrite : Bool}
    (h : Careful q (.enqueue task overwrite)) : KeepsOthers digest q task overwrite := by
  intro hadmitted k t ht hother
  have hkept : Same q (q.enqueue digest task overwrite).2 k ∨
      (q.enqueue digest task overwrite).1 ≠ .ok true := by
    unfold enqueue
    cases hkey : storageKey task with
    | error e => exact .inl (Same.refl q k)
    | ok key =>
      dsimp only
      split
      · exact .inl (Same.refl q k)
      · exact .inr (by intro hfalse; cases hfalse)
      · split
        · rename_i hnew
          have hk : k ≠ key := fun heq => by
            rw [heq, hnew] at ht
            cases ht
          exact .inl (same_storeTask _ _ _ hk)
        · rename_i existing hexisting
          cases overwrite with
          | false =>
            refine .inr ?_
            rw [if_neg Bool.false_ne_true]
            unfold answerDuplicate
            split
            · intro hfalse
              cases hfalse
            · intro hfalse
              cases hfalse
          | true =>
            have hk : k ≠ key := fun heq => by
              rw [heq] at ht
              exact hother (h.overwritten task key rfl hkey t ht)
            rw [if_pos rfl]
            exact .inl (same_overwriteTask _ _ hk)
  have hsame := hkept.resolve_right (not_not_intro hadmitted)
  exact ⟨hsame.1.trans ht, hsame.2.mpr⟩

theorem isolated_of_careful_call {c : QueueCall} (h : Careful q c) : Isolated digest q c where
  one _ _ hnamed hsession := oneOwned_call h hnamed hsession
  others task overwrite hc := by
    cases hc
    exact keepsOthers_of_careful h

/-- In a run of careful calls every call is isolated. -/
theorem isolated_of_careful (digest : Val → String) (calls : List QueueCall)
    (h : (machine digest).Guarded Careful init calls) :
    (machine digest).Guarded (Isolated digest) init calls := by
  have hstep : ∀ q c, True → Careful q c →
      Isolated digest q c ∧ True := fun q c _ hc => ⟨isolated_of_careful_call hc, trivial⟩
  exact h.of_invariant hstep trivial

/-- Nothing is overwritten, and nothing named. -/
theorem careful_new (q : TaskSchedulerQueue) (task : ScheduledTask) :
    Careful q (.enqueue task false) where
  joined _ _ hnamed := by cases hnamed
  bare _ _ hnamed := by cases hnamed
  overwritten _ _ hc := by cases hc

/-- A task `t` of a session, with a session in its payload. -/
def taskOf (session : String) : ScheduledTask :=
  { taskId := "t", createdAt := 1, payload := [("session_id", .str session)] }

theorem isolated_of_careful_two_sessions :
    (machine fun _ => "0").Guarded (Isolated fun _ => "0") init
      [.enqueue (taskOf "a") false, .enqueue (taskOf "b") false,
        .cancel "t" { sessionId := some "b" } 2] := by
  refine isolated_of_careful _ _ ⟨careful_new _ _, careful_new _ _, ?_, trivial⟩
  have hstored : ∀ q : TaskSchedulerQueue, q.tasks.get? "b::t" = some (taskOf "b") →
      Careful q (.cancel "t" { sessionId := some "b" } 2) := by
    intro q hq
    refine ⟨fun taskId scope hnamed _ _ t ht _ => ?_, fun taskId scope hnamed _ hnone => ?_,
      fun _ _ hc => by cases hc⟩
    · cases hnamed
      obtain rfl := Option.some.inj (ht.symm.trans hq)
      exact ⟨rfl, rfl⟩
    · cases hnamed
      have hkey := hnone ⟨rfl, rfl⟩
      have hsame : sessionKey "t" { sessionId := some "b" } = "b::t" := by decide
      rw [hsame, hq] at hkey
      cases hkey
  exact hstored _ rfl

/-- A call for session `s` cancels a task that has no session. -/
theorem foreign_task_cancelled :
    ¬(machine fun _ => "0").Guarded (Isolated fun _ => "0") init
      [.enqueue { taskId := "t", createdAt := 1 } false,
        .cancel "t" { sessionId := some "s" } 2] := by
  rintro ⟨-, hcancel, -⟩
  obtain ⟨key, hsame, howned⟩ := hcancel.one "t" { sessionId := some "s" } rfl (by decide)
  let queued := (machine fun _ => "0").run init [.enqueue { taskId := "t", createdAt := 1 } false]
  have hbefore : queued.tasks.get? "t" = some { taskId := "t", createdAt := 1 } := rfl
  have hafter : ((queued.cancel "t" { sessionId := some "s" } 2).2.tasks.get? "t").map
      ScheduledTask.status = some statusCancelled := rfl
  have hchanged : ¬Same queued (queued.cancel "t" { sessionId := some "s" } 2).2 "t" := by
    intro h
    rw [h.1, hbefore] at hafter
    exact absurd (Option.some.inj hafter) (by decide)
  have hkey : key = "t" := by
    by_contra hne
    exact hchanged (hsame "t" fun heq => hne heq.symm)
  subst hkey
  rcases howned with hidle | ⟨t, ht, -, hsession⟩
  · exact hchanged hidle
  · obtain rfl := Option.some.inj (ht.symm.trans hbefore)
    have hnone : ScheduledTask.session { taskId := "t", createdAt := 1 } = .ok "" := rfl
    exact absurd (Except.ok.inj (hnone.symm.trans hsession)) (by decide)

/-- Two tasks whose identifiers join to the same text. -/
def joinedFirst : ScheduledTask :=
  { taskId := "b", createdAt := 1, payload := [("session_id", .str "s::a")] }

def joinedSecond : ScheduledTask :=
  { taskId := "a::b", createdAt := 1, payload := [("session_id", .str "s")] }

theorem joined_differ : identityOf joinedFirst ≠ identityOf joinedSecond := by
  intro h
  have hfirst : (identityOf joinedFirst).toOption.map Identity.taskId = some "b" := by
    decide +kernel
  have hsecond : (identityOf joinedSecond).toOption.map Identity.taskId = some "a::b" := by
    decide +kernel
  rw [h, hsecond] at hfirst
  exact absurd (Option.some.inj hfirst) (by decide)

/-- The queue that holds the first of the two. -/
def joinedQueue : TaskSchedulerQueue :=
  (machine fun _ => "0").run init [.enqueue joinedFirst false]

theorem joinedQueue_get : joinedQueue.tasks.get? "s::a::b" = some joinedFirst := rfl

theorem joined_admitted :
    ((joinedQueue.enqueue (fun _ => "0") joinedSecond true).1.toOption = some true) ∧
      ((joinedQueue.enqueue (fun _ => "0") joinedSecond true).2.tasks.get? "s::a::b").map
        ScheduledTask.taskId = some "a::b" := by
  decide +kernel

theorem joined_identity_replaced :
    ¬(machine fun _ => "0").Guarded (Isolated fun _ => "0") init
      [.enqueue joinedFirst false, .enqueue joinedSecond true] := by
  rintro ⟨-, hreplaced, -⟩
  have hothers : KeepsOthers (fun _ => "0") joinedQueue joinedSecond true :=
    hreplaced.others joinedSecond true rfl
  obtain ⟨hadmitted, hafter⟩ := joined_admitted
  have htrue : (joinedQueue.enqueue (fun _ => "0") joinedSecond true).1 = .ok true := by
    cases hanswer : (joinedQueue.enqueue (fun _ => "0") joinedSecond true).1 with
    | error e =>
      rw [hanswer] at hadmitted
      cases hadmitted
    | ok b =>
      rw [hanswer] at hadmitted
      exact congrArg Except.ok (Option.some.inj hadmitted)
  obtain ⟨hkept, -⟩ := hothers htrue "s::a::b" joinedFirst joinedQueue_get joined_differ
  rw [hkept] at hafter
  exact absurd (Option.some.inj hafter) (by decide)

theorem sessions_not_isolated :
    (¬(machine fun _ => "0").Guarded (Isolated fun _ => "0") init
      [.enqueue { taskId := "t", createdAt := 1 } false,
        .cancel "t" { sessionId := some "s" } 2]) ∧
    ¬(machine fun _ => "0").Guarded (Isolated fun _ => "0") init
      [.enqueue joinedFirst false, .enqueue joinedSecond true] :=
  ⟨foreign_task_cancelled, joined_identity_replaced⟩

end TaskSchedulerQueue
end Queue
end ZeroRuntime
