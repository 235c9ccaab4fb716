import ZeroRuntime.TaskFile.TaskStateMachine

/-!
# ZeroRuntime.TaskFile.Lawful

What a task's state file keeps over a run of calls, and when.

* `Lawful` is the law of one call, over what was stored before it and after it.
* `Good` and `Sound` are what every stored state has as long as the law is kept.
* `Careful` is what a call must meet that gets as far as its write. The data of a transition must leave
  the protected keys to the transition, all values must be such that JSON can write them, and no write
  is cut short but that of a task still in `created`.
* `written` is the one lemma about the write; every request is an application of it.
-/

namespace ZeroRuntime
namespace TaskFile

open Lib Machine

/-! ## The law -/

/-- The stored state; only the time in it depends on when it is read. -/
def read (s : Stored) : Entries := readState "" s

def current (s : Stored) : String := currentOf (read s)

def history (s : Stored) : List Val := historyOf (read s)

/-- The protected keys that no request may touch. -/
def unsetKeys : List String := ["state", "status"]

structure Lawful (s : Stored) (a : Answer) (s' : Stored) : Prop where
  follows : current s' = current s ∨ current s' ∈ allowedTransitions (current s)
  ended : current s = "finished" ∨ current s = "failed" → current s' = current s
  agrees : ∀ e, (history s').getLast? = some e →
    ∃ fields, e = .dict fields ∧ Val.find "state" fields = Val.find "current_state" (read s')
  recorded : s' = .cutShort ∨ history s' = history s ∨
    ∃ state now, history s' = history s ++ [historyEntry state now]
  unset : ∀ key ∈ unsetKeys, Val.find key (read s') = Val.find key (read s)
  raised : ∀ e, a = .raised e → s' = s

/-! ## The condition -/

/-- The request is not refused before the write. -/
def Accepted (s : Stored) : Request → Prop
  | .initializeTask _ _ _ extraFields =>
    ∀ key ∈ protectedStateKeys, key ∉ (entriesOf extraFields).map Prod.fst
  | .transition newState _ =>
    cleanText newState ∈ validStates ∧ accepts (current s) (cleanText newState) = true
  | .patchState updates =>
    ∃ kvs, updates = .dict kvs ∧ ∀ key ∈ protectedStateKeys, key ∉ kvs.map Prod.fst

def stateValues : Request → Entries
  | .initializeTask _ _ _ extraFields => entriesOf extraFields
  | .transition _ data => transitionData data
  | .patchState (.dict updates) => (Val.merge [] updates).filter fun e => e.1 ≠ "updated_at"
  | .patchState _ => []

/-- The values of a request that go into the timeline. -/
def eventValues : Request → Entries
  | .initializeTask _ _ _ extraFields => entriesOf extraFields
  | .transition _ data => entriesOf data
  | .patchState (.dict updates) => Val.merge [] updates
  | .patchState _ => []

/-- The data has none of the protected keys, apart from the state that is entered anyway. -/
def LeavesState (clean : String) (data : Option (Dict String Val)) : Prop :=
  ∀ e ∈ entriesOf data, e.1 ∉ unsetKeys ∧ (e.1 = "current_state" → e.2 = .str clean)

structure Careful (s : Stored) (c : Call) : Prop where
  whole : c.fate = .stopsDuring → current s = "created"
  storable : c.fate ≠ .stopsDuring →
    s = .cutShort ∨ Val.writableEntries (stateValues c.request) = true
  reportable : c.fate = .goesOn → Val.writableEntries (stateValues c.request) = true →
    Val.writableEntries (eventValues c.request) = true
  leaves : c.fate ≠ .stopsDuring → Val.writableEntries (stateValues c.request) = true →
    ∀ newState data, c.request = .transition newState data → LeavesState (cleanText newState) data

def Meets (s : Stored) (c : Call) : Prop := Accepted s c.request → Careful s c

/-! ## What is stored -/

structure Good (st : String) (hs : List Val) (state : Entries) : Prop where
  current : Val.find "current_state" state = some (.str st)
  history : Val.find "history" state = some (.list hs)
  valid : st ∈ validStates
  last : (hs = [] ∧ st = "created") ∨ ∃ before now, hs = before ++ [historyEntry st now]
  unset : ∀ key ∈ unsetKeys, Val.find key state = none

structure Sound (s : Stored) : Prop where
  file : s = .cutShort ∨ ∃ state, s = .json (.dict state)
  good : ∃ st hs, Good st hs (read s)
  nodup : ((read s).map Prod.fst).Nodup
  writable : Val.writableEntries (read s) = true

variable {st : String}

theorem cleanText_valid (h : st ∈ validStates) : cleanText (.str st) = st := by
  simp only [validStates, List.mem_cons, List.not_mem_nil, or_false] at h
  rcases h with rfl | rfl | rfl | rfl | rfl | rfl <;> decide

theorem ne_empty_of_valid (h : st ∈ validStates) : st ≠ "" := by
  rintro rfl
  revert h
  decide

variable {hs : List Val} {state : Entries}

theorem Good.currentOf_eq (h : Good st hs state) : currentOf state = st := by
  unfold currentOf Val.getIn
  rw [h.current, Option.getD_some]
  unfold Val.orElse
  rw [if_pos, cleanText_valid h.valid]
  exact decide_eq_true (ne_empty_of_valid h.valid)

theorem Good.historyOf_eq (h : Good st hs state) : historyOf state = hs := by
  unfold historyOf Val.getIn
  rw [h.history]
  rfl

/-- A state that has these fields as another one has them. -/
theorem Good.congr {state' : Entries} (h : Good st hs state)
    (hfields : ∀ key ∈ protectedStateKeys, Val.find key state' = Val.find key state) :
    Good st hs state' := by
  refine ⟨?_, ?_, h.valid, h.last, fun key hkey => ?_⟩
  · rw [hfields "current_state" (by decide), h.current]
  · rw [hfields "history" (by decide), h.history]
  · have hmem : key ∈ protectedStateKeys := by
      simp only [unsetKeys, List.mem_cons, List.not_mem_nil, or_false] at hkey
      rcases hkey with rfl | rfl <;> decide
    rw [hfields key hmem, h.unset key hkey]

theorem good_newState (now : String) : Good "created" [] (newState now) := by
  refine ⟨rfl, rfl, by decide, Or.inl ⟨rfl, rfl⟩, fun key hkey => ?_⟩
  simp only [unsetKeys, List.mem_cons, List.not_mem_nil, or_false] at hkey
  rcases hkey with rfl | rfl <;> rfl

theorem sound_cutShort : Sound .cutShort :=
  ⟨Or.inl rfl, ⟨"created", [], good_newState ""⟩, by decide, rfl⟩

theorem sound_json (h : Good st hs state) (hnodup : (state.map Prod.fst).Nodup)
    (hwritable : Val.writableEntries state = true) : Sound (.json (.dict state)) :=
  ⟨Or.inr ⟨state, rfl⟩, ⟨st, hs, h⟩, hnodup, hwritable⟩

theorem nodup_newState (now : String) : ((newState now).map Prod.fst).Nodup := by
  change ["current_state", "history", "updated_at"].Nodup
  decide

theorem sound_construct (now : String) (fate : Fate) : Sound (construct now fate .absent) := by
  unfold construct
  dsimp only
  split
  · exact sound_cutShort
  · exact sound_json (good_newState now) (nodup_newState now) rfl

variable {s : Stored}

/-- Nothing that matters depends on when the state is read. -/
theorem Sound.readState (h : Sound s) (hgood : Good st hs (read s)) (now : String) :
    Good st hs (readState now s) ∧ ((readState now s).map Prod.fst).Nodup ∧
      Val.writableEntries (readState now s) = true := by
  rcases h.file with rfl | ⟨state, rfl⟩
  · refine ⟨hgood.congr fun key hkey => ?_, nodup_newState now, rfl⟩
    simp only [protectedStateKeys, List.mem_cons, List.not_mem_nil, or_false] at hkey
    rcases hkey with rfl | rfl | rfl | rfl <;> rfl
  · exact ⟨hgood, h.nodup, h.writable⟩

/-! ## The write -/

theorem allowedTransitions_ended (h : st = "finished" ∨ st = "failed") :
    allowedTransitions st = [] := by
  rcases h with rfl | rfl <;> decide

theorem last_ended {st' : String} (h : st' = st ∨ st' ∈ allowedTransitions st)
    (hended : st = "finished" ∨ st = "failed") : st' = st := by
  rcases h with h | h
  · exact h
  · rw [allowedTransitions_ended hended] at h
    cases h

/-- Nothing is stored, and nothing is lost. -/
theorem lawful_same (h : Sound s) {a : Answer} : Lawful s a s := by
  obtain ⟨st, hs, hgood⟩ := h.good
  refine ⟨Or.inl rfl, fun _ => rfl, fun e he => ?_, Or.inr (Or.inl rfl), fun _ _ => rfl,
    fun _ _ => rfl⟩
  rw [history, hgood.historyOf_eq] at he
  rcases hgood.last with ⟨rfl, -⟩ | ⟨before, now, rfl⟩
  · cases he
  · rw [List.getLast?_concat] at he
    cases he
    exact ⟨_, rfl, hgood.current.symm⟩

/-- A write that is cut short makes a new task of one that has gone no further. -/
theorem lawful_cutShort (h : Sound s) (hcurrent : current s = "created") :
    Lawful s .crashed .cutShort := by
  obtain ⟨st, hs, hgood⟩ := h.good
  have hnew : current .cutShort = current s := by
    rw [hcurrent]
    exact (good_newState "").currentOf_eq
  refine ⟨Or.inl hnew, fun _ => hnew, fun e he => (by cases he), Or.inl rfl, fun key hkey => ?_,
    fun e he => by cases he⟩
  rw [hgood.unset key hkey]
  exact (good_newState "").unset key hkey

theorem lawful_json {a : Answer} (h : Sound s) (hgood : Good st hs state)
    (hstep : st = current s ∨ st ∈ allowedTransitions (current s))
    (hhistory : hs = history s ∨ ∃ state now, hs = history s ++ [historyEntry state now])
    (ha : ∀ e, a ≠ .raised e) : Lawful s a (.json (.dict state)) := by
  obtain ⟨st₀, hs₀, hgood₀⟩ := h.good
  have hcurrent : current (.json (.dict state)) = st := hgood.currentOf_eq
  have hhistory' : history (.json (.dict state)) = hs := hgood.historyOf_eq
  refine
    { follows := ?_
      ended := fun hended => hcurrent.trans (last_ended hstep hended)
      agrees := fun e he => ?_
      recorded := ?_
      unset := fun key hkey => ?_
      raised := fun e he => absurd he (ha e) }
  · rw [hcurrent]
    exact hstep
  · rw [hhistory'] at he
    rcases hgood.last with ⟨rfl, -⟩ | ⟨before, now, rfl⟩
    · cases he
    · rw [List.getLast?_concat] at he
      cases he
      exact ⟨_, rfl, hgood.current.symm⟩
  · rw [hhistory']
    exact Or.inr hhistory
  · rw [hgood₀.unset key hkey]
    exact hgood.unset key hkey

variable {fate : Fate}

theorem written (h : Sound s) {event : Entries} (hnodup : (state.map Prod.fst).Nodup)
    (hwhole : fate = .stopsDuring → current s = "created")
    (hstorable : fate ≠ .stopsDuring → s = .cutShort ∨ Val.writableEntries state = true)
    (hreportable : fate = .goesOn → Val.writableEntries state = true →
      Val.writableEntries event = true)
    (hgood : fate ≠ .stopsDuring → Val.writableEntries state = true → ∃ st hs, Good st hs state ∧
      (st = current s ∨ st ∈ allowedTransitions (current s)) ∧
      (hs = history s ∨ ∃ state now, hs = history s ++ [historyEntry state now])) :
    Lawful s (writeState state event fate).1 (writeState state event fate).2 ∧
      Sound (writeState state event fate).2 := by
  have hjson : fate ≠ .stopsDuring → Val.writableEntries state = true →
      ∀ a, (∀ e, a ≠ .raised e) → Lawful s a (.json (.dict state)) ∧ Sound (.json (.dict state)) := by
    intro hfate hwritable a ha
    obtain ⟨st, hs, hnew, hstep, hhistory⟩ := hgood hfate hwritable
    exact ⟨lawful_json h hnew hstep hhistory ha, sound_json hnew hnodup hwritable⟩
  have hraised : fate ≠ .stopsDuring → Val.writableEntries state = false →
      Lawful s (.raised .typeError) .cutShort ∧ Sound .cutShort := by
    intro hfate hwritable
    rcases hstorable hfate with rfl | hstorable
    · exact ⟨lawful_same h, h⟩
    · rw [hwritable] at hstorable
      cases hstorable
  cases fate with
  | stopsDuring => exact ⟨lawful_cutShort h (hwhole rfl), sound_cutShort⟩
  | stopsAfter =>
    cases hwritable : Val.writableEntries state with
    | true =>
      simp only [writeState, Val.writable, hwritable, if_true]
      exact hjson (by decide) hwritable _ fun e he => by cases he
    | false =>
      simp only [writeState, Val.writable, hwritable]
      exact hraised (by decide) hwritable
  | goesOn =>
    cases hwritable : Val.writableEntries state with
    | true =>
      simp only [writeState, Val.writable, hwritable, hreportable rfl hwritable, if_true]
      exact hjson (by decide) hwritable _ fun e he => by cases he
    | false =>
      simp only [writeState, Val.writable, hwritable]
      exact hraised (by decide) hwritable

/-! ## One call -/

theorem hasKey_eq_false {key : String} {kvs : Entries} :
    Val.hasKey key kvs = false ↔ key ∉ kvs.map Prod.fst := by
  rw [Val.hasKey, Option.isSome_eq_false_iff, Option.isNone_iff_eq_none, Val.find_eq_none_iff]

variable {safe : Entries}

/-- A patch is let through if it has none of the protected keys. -/
theorem validatedPatch_ok {updates : Entries} :
    validatedPatch updates = .ok safe ↔
      (∀ key ∈ protectedStateKeys, key ∉ updates.map Prod.fst) ∧ safe = Val.merge [] updates := by
  unfold validatedPatch
  dsimp only
  split
  · rename_i hprotected
    refine ⟨fun h => (by cases h), fun h => absurd ?_ hprotected⟩
    refine List.filter_eq_nil_iff.mpr fun key hkey => ?_
    rw [hasKey_eq_false.mpr (h.1 key hkey)]
    exact Bool.false_ne_true
  · rename_i hprotected
    have hfree : ∀ key ∈ protectedStateKeys, key ∉ updates.map Prod.fst := by
      intro key hkey
      have hnil := List.filter_eq_nil_iff.mp (not_not.mp hprotected) key hkey
      exact hasKey_eq_false.mp (Bool.not_eq_true _ ▸ hnil)
    have hfilter : updates.filter (fun e => e.1 ∉ protectedStateKeys) = updates := by
      refine List.filter_eq_self.mpr fun e he => decide_eq_true fun hkey => ?_
      exact hfree e.1 hkey (List.mem_map_of_mem he)
    rw [hfilter]
    constructor
    · intro h
      exact ⟨hfree, (Except.ok.inj h).symm⟩
    · rintro ⟨-, rfl⟩
      rfl

/-- Updates without protected keys leave what matters as it is. -/
theorem Good.merge {updates : Entries} (h : Good st hs state)
    (hfree : ∀ key ∈ protectedStateKeys, key ∉ updates.map Prod.fst) :
    Good st hs (Val.merge state updates) :=
  h.congr fun key hkey => Val.find_merge_of_not_mem (hfree key hkey) state

theorem nodup_keys_entriesOf (data : Option (Dict String Val)) :
    ((entriesOf data).map Prod.fst).Nodup := by
  cases data with
  | none => exact List.nodup_nil
  | some d => exact d.nodup

/-- Without a history the task is new, and is made anew. -/
theorem startingState_good (h : Good st hs state) (hnodup : (state.map Prod.fst).Nodup)
    (hwritable : Val.writableEntries state = true) (taskName goal taskType now : String) :
    ∃ hs', Good st hs' (startingState taskName goal taskType now state) ∧
      (hs' = hs ∨ hs' = hs ++ [historyEntry "created" now]) ∧
      ((startingState taskName goal taskType now state).map Prod.fst).Nodup ∧
      Val.writableEntries (startingState taskName goal taskType now state) = true := by
  have hhistory : Val.getIn "history" state = .list hs := by rw [Val.getIn, h.history]; rfl
  unfold startingState
  rw [hhistory]
  split
  · refine ⟨hs, h.merge fun key hkey => ?_, Or.inl rfl, Val.nodup_merge hnodup, ?_⟩
    · change key ∉ ["task_name", "goal", "task_type", "updated_at"]
      revert key
      decide
    · refine (Val.writable_merge ?_ hwritable).mpr rfl
      change ["task_name", "goal", "task_type", "updated_at"].Nodup
      decide
  · rename_i hempty
    have hnil : hs = [] := by
      cases hs with
      | nil => rfl
      | cons e hs => exact absurd rfl hempty
    subst hnil
    have hcreated : st = "created" := by
      rcases h.last with ⟨-, hst⟩ | ⟨before, now, hlast⟩
      · exact hst
      · exact absurd hlast.symm (List.append_ne_nil_of_right_ne_nil _ (List.cons_ne_nil _ _))
    subst hcreated
    refine ⟨[historyEntry "created" now], ⟨rfl, rfl, h.valid, Or.inr ⟨[], now, rfl⟩, ?_⟩,
      Or.inr rfl, ?_, rfl⟩
    swap
    · change ["task_name", "goal", "task_type", "current_state", "history", "updated_at"].Nodup
      decide
    intro key hkey
    simp only [unsetKeys, List.mem_cons, List.not_mem_nil, or_false] at hkey
    rcases hkey with rfl | rfl <;> rfl

theorem Good.current_eq (h : Good st hs (read s)) : TaskFile.current s = st := h.currentOf_eq

theorem Good.history_eq (h : Good st hs (read s)) : TaskFile.history s = hs := h.historyOf_eq

variable {now : String}

theorem lawful_initializeTask (h : Sound s) {taskName goal taskType : String}
    {extraFields : Option (Dict String Val)}
    (hmeets : Meets s ⟨.initializeTask taskName goal taskType extraFields, now, fate⟩) :
    Lawful s (initializeTask taskName goal taskType extraFields now fate s).1
        (initializeTask taskName goal taskType extraFields now fate s).2 ∧
      Sound (initializeTask taskName goal taskType extraFields now fate s).2 := by
  obtain ⟨st, hs, hgood⟩ := h.good
  obtain ⟨hread, hkeys, hwritable⟩ := h.readState hgood now
  unfold initializeTask
  dsimp only
  cases hpatch : validatedPatch (entriesOf extraFields) with
  | error e => exact ⟨lawful_same h, h⟩
  | ok safe =>
    obtain ⟨hfree, rfl⟩ := validatedPatch_ok.mp hpatch
    have hcareful := hmeets hfree
    have hnodup := nodup_keys_entriesOf extraFields
    obtain ⟨hs', hstart, hhistory, hkeys', hwritable'⟩ :=
      startingState_good hread hkeys hwritable taskName goal taskType now
    dsimp only
    rw [Val.merge_nil hnodup]
    have hstate := Val.writable_merge hnodup hwritable'
    refine written h (Val.nodup_merge hkeys') hcareful.whole ?_ ?_ ?_
    · exact fun hfate => (hcareful.storable hfate).imp_right hstate.mpr
    · exact fun _ hw => (Val.writable_merge hnodup rfl).mpr (hstate.mp hw)
    · intro _ _
      refine ⟨st, hs', hstart.merge hfree, Or.inl hgood.current_eq.symm, ?_⟩
      rw [hgood.history_eq]
      exact hhistory.imp_right fun heq => ⟨_, _, heq⟩

def patched (now : String) (safe state : Entries) : Entries :=
  Val.put "updated_at" (.str now) (Val.merge state safe)

theorem find_patched (hsafe : (safe.map Prod.fst).Nodup) (key : String) :
    Val.find key (patched now safe state) =
      if key = "updated_at" then some (.str now)
      else (Val.find key safe).or (Val.find key state) := by
  rw [patched, Val.find_put, Val.find_merge hsafe]

/-- The time is written over whatever the updates say. -/
theorem writable_patched (hsafe : (safe.map Prod.fst).Nodup) (hkeys : (state.map Prod.fst).Nodup)
    (hwritable : Val.writableEntries state = true) :
    Val.writableEntries (patched now safe state) = true ↔
      Val.writableEntries (safe.filter fun e => e.1 ≠ "updated_at") = true := by
  have hnodup : ((patched now safe state).map Prod.fst).Nodup := Val.nodup_put (Val.nodup_merge hkeys)
  rw [Val.writableEntries_iff] at hwritable ⊢
  rw [Val.writableEntries_iff]
  constructor
  · intro h e he
    obtain ⟨hmem, hkey⟩ := List.mem_filter.mp he
    refine h e (Val.mem_of_find ?_)
    rw [find_patched hsafe, if_neg (of_decide_eq_true hkey), Val.find_of_mem hsafe hmem]
    rfl
  · intro h e he
    have hvalue := Val.find_of_mem hnodup he
    rw [find_patched hsafe] at hvalue
    split at hvalue
    · rw [← Option.some.inj hvalue]
      rfl
    · rename_i hkey
      cases hupdate : Val.find e.1 safe with
      | some v =>
        rw [hupdate] at hvalue
        cases hvalue
        exact h e (List.mem_filter.mpr ⟨Val.mem_of_find hupdate, decide_eq_true hkey⟩)
      | none =>
        rw [hupdate] at hvalue
        exact hwritable e (Val.mem_of_find hvalue)

theorem Good.patched (h : Good st hs state)
    (hfree : ∀ key ∈ protectedStateKeys, key ∉ safe.map Prod.fst) (now : String) :
    Good st hs (patched now safe state) := by
  refine (h.merge hfree).congr fun key hkey => ?_
  have hne : key ≠ "updated_at" := by
    rintro rfl
    revert hkey
    decide
  rw [TaskFile.patched, Val.find_put, if_neg hne]

theorem lawful_patchState (h : Sound s) {updates : Val}
    (hmeets : Meets s ⟨.patchState updates, now, fate⟩) :
    Lawful s (patchState updates now fate s).1 (patchState updates now fate s).2 ∧
      Sound (patchState updates now fate s).2 := by
  obtain ⟨st, hs, hgood⟩ := h.good
  obtain ⟨hread, hkeys, hwritable⟩ := h.readState hgood now
  unfold patchState
  split
  · rename_i updates
    cases hpatch : validatedPatch updates with
    | error e => exact ⟨lawful_same h, h⟩
    | ok safe =>
      obtain ⟨hfree, rfl⟩ := validatedPatch_ok.mp hpatch
      have hcareful := hmeets ⟨updates, rfl, hfree⟩
      have hsafe : ((Val.merge [] updates).map Prod.fst).Nodup := Val.nodup_merge List.nodup_nil
      have hfreeSafe : ∀ key ∈ protectedStateKeys, key ∉ (Val.merge [] updates).map Prod.fst := by
        intro key hkey
        rw [← Val.find_eq_none_iff, Val.find_merge_of_not_mem (hfree key hkey)]
        rfl
      have hstate : Val.writableEntries (patched now (Val.merge [] updates) (readState now s)) = true ↔
          Val.writableEntries (stateValues (.patchState (.dict updates))) = true :=
        writable_patched hsafe hkeys hwritable
      refine written h (Val.nodup_put (Val.nodup_merge hkeys)) hcareful.whole ?_ ?_ ?_
      · exact fun hfate => (hcareful.storable hfate).imp_right hstate.mpr
      · exact fun hfate hw => hcareful.reportable hfate (hstate.mp hw)
      · exact fun _ _ => ⟨st, hs, hread.patched hfreeSafe now, Or.inl hgood.current_eq.symm,
          Or.inl hgood.history_eq.symm⟩
  · exact ⟨lawful_same h, h⟩

theorem nodup_keys_transitionData (data : Option (Dict String Val)) :
    ((transitionData data).map Prod.fst).Nodup :=
  (nodup_keys_entriesOf data).sublist (List.filter_sublist.map Prod.fst)

theorem writable_history (h : Good st hs state) (hwritable : Val.writableEntries state = true) :
    Val.writableItems hs = true :=
  Val.writableEntries_iff.mp hwritable _ (Val.mem_of_find h.history)

/-- The state with the new entry, before the data is merged. -/
theorem good_moved (h : Good st hs state) {clean : String} (hclean : clean ∈ validStates)
    (now : String) :
    Good clean (hs ++ [historyEntry clean now])
      (Val.merge state [("current_state", .str clean), ("updated_at", .str now),
        ("history", .list (hs ++ [historyEntry clean now]))]) := by
  have hkeys : (([("current_state", .str clean), ("updated_at", .str now),
      ("history", .list (hs ++ [historyEntry clean now]))] : Entries).map Prod.fst).Nodup := by
    change ["current_state", "updated_at", "history"].Nodup
    decide
  refine ⟨?_, ?_, hclean, Or.inr ⟨hs, now, rfl⟩, fun key hkey => ?_⟩
  · rw [Val.find_merge hkeys]
    rfl
  · rw [Val.find_merge hkeys]
    rfl
  · rw [Val.find_merge_of_not_mem, h.unset key hkey]
    change key ∉ ["current_state", "updated_at", "history"]
    revert key
    decide

variable {data : Option (Dict String Val)}

theorem Good.merge_data {clean : String} (h : Good clean hs state)
    (hleaves : LeavesState clean data) : Good clean hs (Val.merge state (transitionData data)) := by
  have hnodup := nodup_keys_transitionData data
  have hmem : ∀ e ∈ transitionData data, e.1 ≠ "history" ∧ e.1 ∉ unsetKeys ∧
      (e.1 = "current_state" → e.2 = .str clean) := by
    intro e he
    obtain ⟨hdata, hne⟩ := List.mem_filter.mp he
    exact ⟨of_decide_eq_true hne, hleaves e hdata⟩
  refine ⟨?_, ?_, h.valid, h.last, fun key hkey => ?_⟩
  · rw [Val.find_merge hnodup]
    cases hfind : Val.find "current_state" (transitionData data) with
    | none => exact h.current
    | some v => exact congrArg some ((hmem _ (Val.mem_of_find hfind)).2.2 rfl)
  · rw [Val.find_merge_of_not_mem, h.history]
    intro hhistory
    obtain ⟨e, he, hkey⟩ := List.mem_map.mp hhistory
    exact (hmem e he).1 hkey
  · rw [Val.find_merge_of_not_mem, h.unset key hkey]
    intro hset
    obtain ⟨e, he, rfl⟩ := List.mem_map.mp hset
    exact (hmem e he).2.1 hkey

theorem lawful_transition (h : Sound s) {newState : Val}
    (hmeets : Meets s ⟨.transition newState data, now, fate⟩) :
    Lawful s (transition newState data now fate s).1 (transition newState data now fate s).2 ∧
      Sound (transition newState data now fate s).2 := by
  obtain ⟨st, hs, hgood⟩ := h.good
  obtain ⟨hread, hkeys, hwritable⟩ := h.readState hgood now
  unfold transition
  dsimp only
  rw [hread.currentOf_eq, hread.historyOf_eq]
  by_cases hvalid : cleanText newState ∈ validStates
  · rw [if_neg (not_not.mpr hvalid)]
    cases haccepts : accepts st (cleanText newState) with
    | false => exact ⟨lawful_same h, h⟩
    | true =>
      have hcareful := hmeets ⟨hvalid, by rw [hgood.current_eq]; exact haccepts⟩
      have hmoved := good_moved hread hvalid now
      have hnodup := nodup_keys_transitionData data
      have hwritable' : Val.writableEntries (Val.merge (readState now s)
          [("current_state", .str (cleanText newState)), ("updated_at", .str now),
            ("history", .list (hs ++ [historyEntry (cleanText newState) now]))]) = true := by
        refine (Val.writable_merge ?_ hwritable).mpr ?_
        · change ["current_state", "updated_at", "history"].Nodup
          decide
        · change (true && (true && (Val.writableItems _ && true))) = true
          rw [Val.writableItems_eq_all, List.all_append, ← Val.writableItems_eq_all,
            writable_history hread hwritable]
          rfl
      have hstate := Val.writable_merge hnodup hwritable'
      have hallowed : cleanText newState = st ∨ cleanText newState ∈ allowedTransitions st := by
        unfold accepts at haccepts
        rw [Bool.or_eq_true, decide_eq_true_iff, decide_eq_true_iff] at haccepts
        exact haccepts
      rw [if_neg (by simp)]
      refine written h (Val.nodup_merge (Val.nodup_merge hkeys)) hcareful.whole ?_ ?_ ?_
      · exact fun hfate => (hcareful.storable hfate).imp_right hstate.mpr
      · intro hfate hw
        refine (Val.writable_merge (nodup_keys_entriesOf data) rfl).mpr ?_
        exact hcareful.reportable hfate (hstate.mp hw)
      · intro hfate hw
        have hleaves := hcareful.leaves hfate (hstate.mp hw) newState data rfl
        refine ⟨_, _, hmoved.merge_data hleaves, ?_, Or.inr ⟨cleanText newState, now, ?_⟩⟩
        · rw [hgood.current_eq]
          exact hallowed
        · rw [hgood.history_eq]
  · rw [if_pos hvalid]
    exact ⟨lawful_same h, h⟩

theorem lawful_step (h : Sound s) {c : Call} (hmeets : Meets s c) :
    Lawful s (perform s c).1 (perform s c).2 ∧ Sound (perform s c).2 := by
  obtain ⟨request, now, fate⟩ := c
  cases request with
  | initializeTask taskName goal taskType extraFields =>
    unfold perform
    exact lawful_initializeTask h hmeets
  | transition newState data =>
    unfold perform
    exact lawful_transition h hmeets
  | patchState updates =>
    unfold perform
    exact lawful_patchState h hmeets

/-! ## Runs -/

/-- A run of calls that meet the condition keeps the law at every call. -/
theorem lawful_of_meets (now : String) (fate : Fate) (calls : List Call)
    (h : taskStateMachine.Guarded Meets (construct now fate .absent) calls) :
    taskStateMachine.Guarded
      (fun s c => Lawful s (taskStateMachine.step s c).1 (taskStateMachine.step s c).2)
      (construct now fate .absent) calls := by
  have hstep : ∀ (s : Stored) (c : Call), Sound s → Meets s c →
      Lawful s (taskStateMachine.step s c).1 (taskStateMachine.step s c).2 ∧
        Sound (taskStateMachine.step s c).2 := fun _ _ hs hc => lawful_step hs hc
  exact h.of_invariant hstep (sound_construct now fate)

/-- A run that starts over after a write that is cut short, and finishes. -/
def carefulCalls : List Call :=
  [⟨.patchState (.dict []), "t", .stopsDuring⟩, ⟨.transition (.str "Running ") none, "t", .goesOn⟩,
    ⟨.transition (.str "finished")
      (some ⟨[("current_state", .str "finished"), ("n", .int 1)], by decide⟩), "t", .stopsAfter⟩]

theorem meets_carefulCalls :
    taskStateMachine.Guarded Meets (construct "t" .goesOn .absent) carefulCalls := by
  refine ⟨fun _ => ?_, fun _ => ?_, fun _ => ?_, trivial⟩
  · refine ⟨fun _ => (by decide +kernel), fun h => absurd rfl h, fun h => (by cases h), fun h => ?_⟩
    exact absurd rfl h
  · refine ⟨fun h => (by cases h), fun _ => Or.inr rfl, fun _ _ => rfl, ?_⟩
    rintro - - newState data ⟨⟩ e he
    cases he
  · refine ⟨fun h => (by cases h), fun _ => Or.inr rfl, fun h => (by cases h), ?_⟩
    rintro - - newState data ⟨⟩ e he
    rcases List.mem_cons.mp he with rfl | he
    · exact ⟨by decide, fun _ => rfl⟩
    · cases List.mem_singleton.mp he
      exact ⟨by decide, fun hkey => absurd hkey (by decide)⟩

theorem lawful_of_meets_sample :
    taskStateMachine.Guarded Meets (construct "t" .goesOn .absent) carefulCalls ∧
      taskStateMachine.Guarded
        (fun s c => Lawful s (taskStateMachine.step s c).1 (taskStateMachine.step s c).2)
        (construct "t" .goesOn .absent) carefulCalls :=
  ⟨meets_carefulCalls, lawful_of_meets "t" .goesOn carefulCalls meets_carefulCalls⟩

/-- A transition to `running` whose data finishes the task. -/
theorem finished_by_data :
    current (perform (construct "t" .goesOn .absent)
        ⟨.transition (.str "running") (some ⟨[("current_state", .str "finished")], by decide⟩), "t",
          .goesOn⟩).2 = "finished" ∧
      ¬taskStateMachine.Guarded
        (fun s c => Lawful s (taskStateMachine.step s c).1 (taskStateMachine.step s c).2)
        (construct "t" .goesOn .absent)
        [⟨.transition (.str "running") (some ⟨[("current_state", .str "finished")], by decide⟩), "t",
          .goesOn⟩] := by
  have hcurrent : current (perform (construct "t" .goesOn .absent)
      ⟨.transition (.str "running") (some ⟨[("current_state", .str "finished")], by decide⟩), "t",
        .goesOn⟩).2 = "finished" := by
    decide +kernel
  refine ⟨hcurrent, fun h => ?_⟩
  have hfollows := h.1.follows
  change current (perform _ _).2 = _ ∨ current (perform _ _).2 ∈ _ at hfollows
  rw [hcurrent] at hfollows
  revert hfollows
  decide +kernel

end TaskFile
end ZeroRuntime
