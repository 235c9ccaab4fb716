import ZeroRuntime.NativeScheduler.Scheduler

/-!
# ZeroRuntime.NativeScheduler.Counted

Every item gets its runs, and none is lost.

* `Counted`: an item none of whose runs completed or was blocked has had at most `max_attempts`
  runs, and has failed exactly if it has had them all. `Offered`: an item that is still open is
  ready at every tick from its own on.
* `Turned` says what one run does, whatever comes of it.
* `Sound` holds in every state: the counter of attempts counts the runs.
* `Fair` is what a run must meet: the process does not die in it, and it does not fail as the last
  but one of the runs of its item.
-/

namespace ZeroRuntime
namespace NativeScheduler

open Lib

/-! ## The law -/

/-- How the runs of an item came to their ends. -/
def runsOf (s : Scheduler) (id : String) : List RunEnd :=
  (s.runs.filter fun r => r.1 = id).map Prod.snd

def closedStatuses : List Status := [.completed, .blocked, .failed]

def Counted (s : Scheduler) (item : Item) : Prop :=
  (∀ e ∈ runsOf s item.scheduleId, e ≠ .completed ∧ e ≠ .blocked) →
    (runsOf s item.scheduleId).length ≤ item.maxAttempts ∧
      (item.status = .failed ↔ (runsOf s item.scheduleId).length = item.maxAttempts)

/-- With a limit that leaves none out. -/
def Offered (s : Scheduler) (item : Item) : Prop :=
  item.status ∉ closedStatuses → ∀ currentTick limit : ℤ, item.readyTick ≤ currentTick →
    (s.items.list.length : ℤ) ≤ limit → item ∈ readyItems s currentTick limit

def Kept (s : Scheduler) : Prop := ∀ item ∈ s.items.list, Counted s item ∧ Offered s item

def endOf (run : Run) : RunEnd :=
  if run.stop = .duringRun then .died else runEnd (payloadStatus (resultPayload run.answer))

/-- The run, if it is made, does not kill the process, and does not fail as the last but one. -/
def Fair (s : Scheduler) (turn : String × Run) : Prop :=
  ∀ item, s.items.get? (Text.strip turn.1) = some item → runnable item.status = true →
    endOf turn.2 ≠ .died ∧ (endOf turn.2 = .failed → item.attempts + 2 ≠ item.maxAttempts)

/-! ## Items that are ready -/

theorem mem_readyItems {s : Scheduler} {currentTick limit : ℤ}
    (hlimit : (s.items.list.length : ℤ) ≤ limit) {x : Item} :
    x ∈ readyItems s currentTick limit ↔
      x ∈ s.items.list ∧ x.status = .queued ∧ x.readyTick ≤ currentTick := by
  unfold readyItems
  rw [List.take_of_length_le, List.mem_insertionSort, List.mem_filter, decide_eq_true_iff]
  rw [List.length_insertionSort]
  have hle := List.length_filter_le
    (fun x : Item => decide (x.status = .queued ∧ x.readyTick ≤ currentTick)) s.items.list
  omega

/-- An open item is ready exactly if it is queued. -/
theorem offered_iff {s : Scheduler} {item : Item} (hitem : item ∈ s.items.list) :
    Offered s item ↔ item.status = .queued ∨ item.status ∈ closedStatuses := by
  constructor
  · intro h
    by_cases hclosed : item.status ∈ closedStatuses
    · exact Or.inr hclosed
    · exact Or.inl ((mem_readyItems le_rfl).mp (h hclosed item.readyTick _ le_rfl le_rfl)).2.1
  · rintro (hqueued | hclosed) hopen currentTick limit htick hlimit
    · exact (mem_readyItems hlimit).mpr ⟨hitem, hqueued, htick⟩
    · exact absurd hclosed hopen

/-! ## One run -/

section Turn

variable {latestTicket : String → Option Entries} {s s' : Scheduler} {item : Item} {run : Run}

/-- What becomes of an item that is run. -/
structure TurnedItem (item : Item) (status : Status) (y : Item) : Prop where
  scheduleId : y.scheduleId = item.scheduleId
  status_eq : y.status = status
  attempts : y.attempts = item.attempts + 1
  maxAttempts : y.maxAttempts = item.maxAttempts

structure Turned (s : Scheduler) (item : Item) (e : RunEnd) (status : Status) (s' : Scheduler) :
    Prop where
  runs : s'.runs = s.runs ++ [(item.scheduleId, e)]
  file : s'.file = s'.items
  items : ∀ y ∈ s'.items.list,
    (y ∈ s.items.list ∧ y.scheduleId ≠ item.scheduleId) ∨ TurnedItem item status y
  turned : ∃ y ∈ s'.items.list, TurnedItem item status y

def statusAfter (run : Run) (item : Item) : Status :=
  if run.stop = .duringRun then .running
  else finalStatus (payloadStatus (resultPayload run.answer)) (startRun item)

variable {id : String}

theorem get?_some {items : Items} {item : Item} (h : items.get? id = some item) :
    item ∈ items.list ∧ item.scheduleId = id :=
  find?_key_some h

section Update

variable {items : Items} {id : String} {f g : Item → Item}
  (hf : ∀ x, (f x).scheduleId = x.scheduleId) (hg : ∀ x, (g x).scheduleId = x.scheduleId)
  {item : Item} (hitem : items.get? id = some item)

include hitem

theorem get?_update : (items.update id f hf).get? id = some (f item) := by
  have hmem : f item ∈ (items.update id f hf).list := mem_modifyFirst_of_find? hitem
  have hid : (f item).scheduleId = id := (hf item).trans (get?_some hitem).2
  have hfind := find?_key (items.update id f hf).nodup hmem
  rw [hid] at hfind
  exact hfind

theorem mem_update {y : Item} (hy : y ∈ (items.update id f hf).list) :
    (y ∈ items.list ∧ y.scheduleId ≠ id) ∨ y = f item := by
  rcases mem_modifyFirst_key items.nodup hy with hother | ⟨x, hx, hid, rfl⟩
  · exact Or.inl hother
  · obtain ⟨hmem, hitem⟩ := get?_some hitem
    exact Or.inr (congrArg f (eq_of_key items.nodup hx hmem (hid.trans hitem.symm)))

theorem mem_update_update {y : Item} (hy : y ∈ ((items.update id f hf).update id g hg).list) :
    (y ∈ items.list ∧ y.scheduleId ≠ id) ∨ y = g (f item) := by
  rcases mem_update hg (get?_update hf hitem) hy with ⟨hmem, hne⟩ | hlast
  · rcases mem_update hf hitem hmem with hother | rfl
    · exact Or.inl hother
    · exact absurd ((hf item).trans (get?_some hitem).2) hne
  · exact Or.inr hlast

end Update

variable {e : RunEnd} {status : Status}

theorem Turned.of_items {final : Item} (hitem : s.items.get? id = some item)
    (hruns : s'.runs = s.runs ++ [(id, e)]) (hfile : s'.file = s'.items)
    (hfinal : TurnedItem item status final) (hget : s'.items.get? id = some final)
    (hmem : ∀ y ∈ s'.items.list, (y ∈ s.items.list ∧ y.scheduleId ≠ id) ∨ y = final) :
    Turned s item e status s' := by
  obtain ⟨-, rfl⟩ := get?_some hitem
  refine ⟨hruns, hfile, fun y hy => ?_, final, (get?_some hget).1, hfinal⟩
  rcases hmem y hy with hother | rfl
  · exact Or.inl hother
  · exact Or.inr hfinal

theorem runItem_turned {id : String} (hitem : s.items.get? (Text.strip id) = some item)
    (hrunnable : runnable item.status = true) :
    Turned s item (endOf run) (statusAfter run item) (runItem latestTicket id run s).2 := by
  unfold runItem endOf statusAfter
  dsimp only
  rw [hitem]
  dsimp only
  rw [if_pos hrunnable]
  have hf : ∀ x, (startRun x).scheduleId = x.scheduleId := fun _ => rfl
  by_cases hdied : run.stop = .duringRun
  · rw [if_pos hdied, if_pos hdied, if_pos hdied]
    refine Turned.of_items hitem rfl rfl ?_ (get?_update hf hitem) fun y => mem_update hf hitem
    exact ⟨rfl, rfl, rfl, rfl⟩
  · rw [if_neg hdied, if_neg hdied, if_neg hdied]
    have hg : ∀ x, (finishRun latestTicket (resultPayload run.answer)
      (finalStatus (payloadStatus (resultPayload run.answer)) (startRun item)) x).scheduleId =
        x.scheduleId := fun _ => rfl
    -- a crash after the last save goes on from what was saved
    split
    all_goals
      refine Turned.of_items hitem rfl rfl ?_ (get?_update hg (get?_update hf hitem))
        fun y => mem_update_update hf hg hitem
      exact ⟨rfl, rfl, rfl, rfl⟩

theorem runItem_refused
    (h : ∀ item, s.items.get? (Text.strip id) = some item → runnable item.status = false) :
    (runItem latestTicket id run s).2 = s := by
  unfold runItem
  dsimp only
  split
  · rfl
  · rename_i found hfound
    rw [h found hfound, if_neg Bool.false_ne_true]

theorem statusAfter_eq : statusAfter run item =
    match endOf run with
    | .died => .running
    | .completed => .completed
    | .blocked => .blocked
    | .failed => if item.attempts + 2 ≥ item.maxAttempts then .failed else .queued := by
  have hlast : (startRun item).attempts + 1 ≥ (startRun item).maxAttempts ↔
      item.attempts + 2 ≥ item.maxAttempts := Iff.rfl
  unfold statusAfter endOf finalStatus runEnd
  simp only [hlast]
  split_ifs <;> rfl

theorem runsOf_turned (h : Turned s item e status s') :
    runsOf s' item.scheduleId = runsOf s item.scheduleId ++ [e] := by
  unfold runsOf
  rw [h.runs, List.filter_append, List.map_append]
  simp

theorem runsOf_other (h : Turned s item e status s') (hne : id ≠ item.scheduleId) :
    runsOf s' id = runsOf s id := by
  unfold runsOf
  rw [h.runs, List.filter_append, List.map_append]
  simp [hne.symm]

end Turn

/-! ## Sound states -/

/-- The counter of an item is the number of its runs, and an item that is ready has only failed. -/
structure SoundItem (s : Scheduler) (item : Item) : Prop where
  attempts : item.attempts = (runsOf s item.scheduleId).length
  queued : runnable item.status = true →
    item.status = .queued ∧ ∀ e ∈ runsOf s item.scheduleId, e = .failed

structure Sound (s : Scheduler) : Prop where
  file : s.file = s.items
  items : ∀ item ∈ s.items.list, SoundItem s item

section Step

variable {latestTicket : String → Option Entries} {s s' : Scheduler} {item : Item} {run : Run}

variable {e : RunEnd} {status : Status} {y : Item}

theorem SoundItem.other (hturn : Turned s item e status s') (hne : y.scheduleId ≠ item.scheduleId)
    (h : SoundItem s y) : SoundItem s' y := by
  refine ⟨?_, ?_⟩
  · rw [runsOf_other hturn hne]
    exact h.attempts
  · rw [runsOf_other hturn hne]
    exact h.queued

theorem SoundItem.turned (hturn : Turned s item (endOf run) (statusAfter run item) s')
    (hy : TurnedItem item (statusAfter run item) y) (hrunnable : runnable item.status = true)
    (h : SoundItem s item) : SoundItem s' y := by
  refine ⟨?_, fun hready => ?_⟩
  · rw [hy.scheduleId, hy.attempts, runsOf_turned hturn, List.length_append, h.attempts]
    rfl
  · rw [hy.status_eq, statusAfter_eq] at hready ⊢
    rw [hy.scheduleId, runsOf_turned hturn]
    cases hend : endOf run with
    | died => rw [hend] at hready; cases hready
    | completed => rw [hend] at hready; cases hready
    | blocked => rw [hend] at hready; cases hready
    | failed =>
      rw [hend] at hready
      dsimp only at hready ⊢
      split_ifs at hready ⊢ with hlast
      · cases hready
      · refine ⟨rfl, fun e he => ?_⟩
        rcases List.mem_append.mp he with hbefore | hnew
        · exact (h.queued hrunnable).2 e hbefore
        · exact List.mem_singleton.mp hnew

theorem sound_step (hs : Sound s) (turn : String × Run) :
    Sound (runItem latestTicket turn.1 turn.2 s).2 := by
  by_cases h : ∃ item, s.items.get? (Text.strip turn.1) = some item ∧ runnable item.status = true
  · obtain ⟨item, hitem, hrunnable⟩ := h
    have hturn := @runItem_turned latestTicket s item turn.2 turn.1 hitem hrunnable
    refine ⟨hturn.file, fun y hy => ?_⟩
    rcases hturn.items y hy with ⟨hmem, hne⟩ | hturned
    · exact (hs.items y hmem).other hturn hne
    · exact (hs.items item (get?_some hitem).1).turned hturn hturned hrunnable
  · rw [runItem_refused]
    · exact hs
    · intro item hitem
      exact Bool.eq_false_iff.mpr fun hrunnable => h ⟨item, hitem, hrunnable⟩

theorem counted_turned (hturn : Turned s item e status s') (hy : TurnedItem item status y)
    (hqueued : ∀ e ∈ runsOf s item.scheduleId, e = .failed)
    (hattempts : item.attempts = (runsOf s item.scheduleId).length) :
    Counted s' y ↔ (e = .completed ∨ e = .blocked ∨
      item.attempts + 1 ≤ item.maxAttempts ∧
        (status = .failed ↔ item.attempts + 1 = item.maxAttempts)) := by
  unfold Counted
  rw [hy.scheduleId, hy.maxAttempts, hy.status_eq, runsOf_turned hturn, List.length_append,
    ← hattempts, List.length_singleton]
  have hopen : (∀ e' ∈ runsOf s item.scheduleId ++ [e], e' ≠ .completed ∧ e' ≠ .blocked) ↔
      e ≠ .completed ∧ e ≠ .blocked := by
    constructor
    · exact fun h => h e (List.mem_append_right _ (List.mem_singleton_self e))
    · intro h e' he'
      rcases List.mem_append.mp he' with hbefore | hnew
      · rw [hqueued e' hbefore]
        exact ⟨nofun, nofun⟩
      · rw [List.mem_singleton.mp hnew]
        exact h
  rw [hopen]
  tauto

theorem counted_other (hturn : Turned s item e status s') (hne : y.scheduleId ≠ item.scheduleId) :
    Counted s' y ↔ Counted s y := by
  unfold Counted
  rw [runsOf_other hturn hne]

/-- A run keeps the law of the item it runs exactly if it is fair. -/
theorem kept_turned_iff (hturn : Turned s item (endOf run) (statusAfter run item) s')
    (hmem : y ∈ s'.items.list) (hy : TurnedItem item (statusAfter run item) y)
    (hrunnable : runnable item.status = true) (hs : SoundItem s item) (hkept : Counted s item) :
    Counted s' y ∧ Offered s' y ↔
      endOf run ≠ .died ∧ (endOf run = .failed → item.attempts + 2 ≠ item.maxAttempts) := by
  obtain ⟨hqueued, hfailed⟩ := hs.queued hrunnable
  have hleft : item.attempts < item.maxAttempts := by
    have hopen : ∀ e ∈ runsOf s item.scheduleId, e ≠ .completed ∧ e ≠ .blocked := by
      intro e he
      rw [hfailed e he]
      exact ⟨nofun, nofun⟩
    obtain ⟨hle, hiff⟩ := hkept hopen
    rw [← hs.attempts] at hle hiff
    refine lt_of_le_of_ne hle fun heq => ?_
    rw [hqueued] at hiff
    exact absurd (hiff.mpr heq) nofun
  rw [counted_turned hturn hy hfailed hs.attempts, offered_iff hmem, hy.status_eq, statusAfter_eq]
  cases hend : endOf run with
  | died => simp [closedStatuses]
  | completed => simp [closedStatuses]
  | blocked => simp [closedStatuses]
  | failed =>
    dsimp only
    split_ifs with hlast
    · simp [closedStatuses]
      omega
    · simp [closedStatuses]
      omega

theorem kept_step_iff (hs : Sound s) (hkept : Kept s) (turn : String × Run) :
    Fair s turn ↔ Kept (runItem latestTicket turn.1 turn.2 s).2 := by
  by_cases h : ∃ item, s.items.get? (Text.strip turn.1) = some item ∧ runnable item.status = true
  · obtain ⟨item, hitem, hrunnable⟩ := h
    obtain ⟨hmem, -⟩ := get?_some hitem
    have hturn := @runItem_turned latestTicket s item turn.2 turn.1 hitem hrunnable
    constructor
    · intro hfair y hy
      rcases hturn.items y hy with ⟨hother, hne⟩ | hturned
      · refine ⟨(counted_other hturn hne).mpr (hkept y hother).1, (offered_iff hy).mpr ?_⟩
        exact (offered_iff hother).mp (hkept y hother).2
      · have hiff := kept_turned_iff hturn hy hturned hrunnable (hs.items item hmem)
          (hkept item hmem).1
        exact hiff.mpr (hfair item hitem hrunnable)
    · intro hnext x hx hready
      obtain rfl : item = x := Option.some.inj (hitem.symm.trans hx)
      obtain ⟨y, hy, hturned⟩ := hturn.turned
      exact (kept_turned_iff hturn hy hturned hrunnable (hs.items item hmem) (hkept item hmem).1).mp
        (hnext y hy)
  · have hrefused : ∀ item, s.items.get? (Text.strip turn.1) = some item →
        runnable item.status = false := by
      intro item hitem
      exact Bool.eq_false_iff.mpr fun hrunnable => h ⟨item, hitem, hrunnable⟩
    rw [runItem_refused hrefused]
    refine ⟨fun _ => hkept, fun _ item hitem hrunnable => ?_⟩
    exact absurd ⟨item, hitem, hrunnable⟩ h

end Step

/-! ## From the goals on -/

section Start

variable {fingerprint : String → ℕ → String}

/-- A state in which nothing has been run. -/
structure Fresh (s : Scheduler) : Prop where
  file : s.file = s.items
  runs : s.runs = []
  items : ∀ item ∈ s.items.list, item.status = .queued ∧ item.attempts = 0

variable {s : Scheduler}

theorem fresh_scheduleGoal {g : Goal} {s' : Scheduler} (h : scheduleGoal fingerprint g s = .ok s')
    (hs : Fresh s) : Fresh s' := by
  unfold scheduleGoal at h
  dsimp only at h
  split_ifs at h
  obtain rfl := Except.ok.inj h
  refine ⟨rfl, hs.runs, fun item hitem => ?_⟩
  rcases List.mem_append.mp hitem with hbefore | hnew
  · exact hs.items item hbefore
  · rw [List.mem_singleton.mp hnew]
    exact ⟨rfl, rfl⟩

theorem fresh_queueUp (goals : List Goal) : Fresh (queueUp fingerprint goals) := by
  have hstart : Fresh emptyScheduler := ⟨rfl, rfl, fun item hitem => by cases hitem⟩
  unfold queueUp
  generalize emptyScheduler = s at hstart ⊢
  induction goals generalizing s with
  | nil => exact hstart
  | cons g goals ih =>
    refine ih _ ?_
    dsimp only
    split
    · rename_i s' h
      exact fresh_scheduleGoal h hstart
    · exact hstart

theorem runsOf_fresh (hs : Fresh s) (id : String) : runsOf s id = [] := by
  unfold runsOf
  rw [hs.runs]
  rfl

theorem sound_fresh (hs : Fresh s) : Sound s := by
  refine ⟨hs.file, fun item hitem => ⟨?_, fun _ => ⟨(hs.items item hitem).1, ?_⟩⟩⟩
  · rw [runsOf_fresh hs]
    exact (hs.items item hitem).2
  · rw [runsOf_fresh hs]
    exact fun e he => by cases he

theorem kept_fresh (hs : Fresh s) : Kept s := by
  intro item hitem
  obtain ⟨hqueued, -⟩ := hs.items item hitem
  refine ⟨fun _ => ?_, (offered_iff hitem).mpr (Or.inl hqueued)⟩
  have hpos := item.maxAttempts_pos
  rw [runsOf_fresh hs, hqueued]
  exact ⟨Nat.zero_le _, ⟨nofun, fun h => absurd h (by rw [List.length_nil]; omega)⟩⟩

end Start

/-! ## Calls of run_ready -/

/-- Whatever items are run, in any order and with any end: the file holds what is in memory, and
the counter of each item is the number of its runs. -/
theorem attempts_count_runs (fingerprint : String → ℕ → String)
    (latestTicket : String → Option Entries) (goals : List Goal) (turns : List (String × Run)) :
    let s := (itemRuns latestTicket).run (queueUp fingerprint goals) turns
    s.file = s.items ∧
      ∀ item ∈ s.items.list, item.attempts = (runsOf s item.scheduleId).length := by
  intro s
  have hstep : ∀ s turn, Sound s → Sound ((itemRuns latestTicket).step s turn).2 :=
    fun s turn hs => sound_step hs turn
  have h : Sound s := Machine.run_invariant hstep turns (sound_fresh (fresh_queueUp goals))
  exact ⟨h.file, fun item hitem => (h.items item hitem).attempts⟩

/-- The law holds of every item after every run exactly if every run is fair. -/
theorem kept_iff_fair (fingerprint : String → ℕ → String) (latestTicket : String → Option Entries)
    (goals : List Goal) (calls : List Call) :
    (itemRuns latestTicket).Guarded Fair (queueUp fingerprint goals)
        (taken latestTicket (queueUp fingerprint goals) calls) ↔
      ∀ before, before <+: taken latestTicket (queueUp fingerprint goals) calls →
        Kept ((itemRuns latestTicket).run (queueUp fingerprint goals) before) := by
  have hfresh : Fresh (queueUp fingerprint goals) := fresh_queueUp goals
  refine Machine.guarded_iff_always (s := queueUp fingerprint goals) ?_ ?_ (sound_fresh hfresh)
    (kept_fresh hfresh)
  · exact fun s turn hs => sound_step hs turn
  · exact fun s turn hs hkept => kept_step_iff hs hkept turn

/-- Two runs are allowed, and the first of them fails. -/
def oneOfTwo : Scheduler :=
  runReady (fun _ => none) (queueUp (fun _ _ => "") [⟨"a", some "a", 0, 0, 2, ""⟩])
    ⟨0, 1, fun _ => ⟨.ok [], .never⟩⟩

theorem failed_after_one_of_two : ¬ Kept oneOfTwo := by
  intro hkept
  have hitem : ∃ x ∈ oneOfTwo.items.list,
      x.scheduleId = "a" ∧ x.status = .failed ∧ x.maxAttempts = 2 := by
    decide +kernel
  have hruns : runsOf oneOfTwo "a" = [.failed] := by
    decide +kernel
  have hopen : ∀ e ∈ runsOf oneOfTwo "a", e ≠ .completed ∧ e ≠ .blocked := by
    rw [hruns]
    decide
  obtain ⟨x, hx, hid, hstatus, hmax⟩ := hitem
  obtain ⟨hcounted, -⟩ := hkept x hx
  unfold Counted at hcounted
  rw [hid] at hcounted
  obtain ⟨-, hiff⟩ := hcounted hopen
  rw [hruns, hmax] at hiff
  exact absurd (hiff.mp hstatus) (by decide)

end NativeScheduler
end ZeroRuntime
