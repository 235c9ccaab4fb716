import ZeroRuntime.Tasks.Dag

/-!
# ZeroRuntime.Tasks.Damaged

The task store on a file of any content.

* `Content` is the file as `json.load` sees it; `loadContent` falls back to no tasks where it cannot
  be read, and leaves the file alone.
* `saves` is what a call hands to `save`, which writes the file anew. Of the tasks it agrees with
  `call` (`tasks_perform`).
* `SameRecord` is what refreshing keeps of a task. A call keeps every record it does not name
  (`carried_call`), whatever the file holds besides.
* A file that cannot be read is lost with the first call that saves: `WritesAnew` says which do so
  on a store without tasks.
-/

namespace ZeroRuntime
namespace Tasks

open Lib DepthFirst

/-! ## The file -/

inductive Content where
  | absent
  | json (v : Val)
  | unreadable (text : String)

/-- The `raw_tasks` of `load`. -/
def rawTasks : Val → List Val
  | .dict data =>
    match Val.find "tasks" data with
    | some (.list items) => items
    | _ => []
  | .list items => items
  | _ => []

def loadItems (items : List Val) : List Task :=
  items.filterMap fun item => (normalizeTask item).toOption

/-- What `save` writes. -/
def written (tasks : List Task) : Val :=
  .dict [("tasks", .list (tasks.map fun t => .dict t.entries))]

/-- `load`: the tasks, and the file after it. -/
def loadContent : Content → List Task × Content
  | .absent => ([], .json (written []))
  | .json v => (loadItems (rawTasks v), .json v)
  | .unreadable text => ([], .unreadable text)

/-- The task records that can be read in the file. -/
def Content.tasks (content : Content) : List Task := (loadContent content).1

/-! ## Calls -/

def changedTasks (tasks refreshed : List Task) : Option (List Task) :=
  if refreshed.map Task.status ≠ tasks.map Task.status then some refreshed else none

/-- The tasks a call hands to `save`, if it comes to that. -/
def saves (tasks : List Task) : Call → Option (List Task)
  | .addTask task authority =>
    match normalizeTask task with
    | .ok normalized =>
      let grown := tasks ++ [normalized]
      if missesAuthority authority normalized || decide (normalized.taskId ∈ tasks.map Task.taskId)
          || !checkDependenciesExist tasks normalized.dependsOn
          || detectCycle (buildGraph grown) then none
      else some (tasks ++ [refreshBlockedStatus grown normalized])
    | .error _ => none
  | .upsertTask task authority =>
    match normalizeTask task with
    | .ok normalized =>
      let changed := placed tasks normalized
      if missesAuthority authority normalized
          || (!checkDependenciesExist tasks normalized.dependsOn &&
            !checkDependenciesExist tasks (normalized.dependsOn.filter (· ≠ normalized.taskId)))
          || detectCycle (buildGraph changed) then none
      else some (placed tasks (refreshBlockedStatus changed normalized))
    | .error _ => none
  | .deleteTask taskId => some (tasks.filter fun t => !names taskId t)
  | .listTasks => changedTasks tasks (tasks.map (refreshBlockedStatus tasks))
  | .getTask taskId =>
    match tasks.find? (names taskId) with
    | some task => changedTasks tasks (placed tasks (refreshBlockedStatus tasks task))
    | none => none
  | .getReadyTasks => changedTasks tasks (refreshEach [] tasks)

section Runs

variable (writable : Entries → Bool)

/-- `save`, which leaves the file as it is when a value cannot be written down. -/
def saveContent (content : Content) : Option (List Task) → Content
  | some tasks =>
    match save writable tasks with
    | .ok _ => .json (written tasks)
    | .error _ => content
  | none => content

def perform (content : Content) (c : Call) : Answer × Content :=
  let loaded := loadContent content
  ((call writable (loaded.1.map Task.entries) c).1,
    saveContent writable loaded.2 (saves loaded.1 c))

/-- `TaskRepository(db_path)` reads the file. -/
def construct (content : Content) : Content := (loadContent content).2

def taskStore : Machine Content Call Answer := ⟨perform writable⟩

end Runs

variable {writable : Entries → Bool}

/-! ## What is saved and what is read -/

@[simp] theorem loadItems_entries (tasks : List Task) :
    loadItems (tasks.map fun t => .dict t.entries) = tasks := by
  induction tasks with
  | nil => rfl
  | cons t ts ih =>
    unfold loadItems at ih ⊢
    rw [List.map_cons, List.filterMap_cons, normalizeTask_entries, ih]
    rfl

@[simp] theorem tasks_written (tasks : List Task) : (Content.json (written tasks)).tasks = tasks :=
  loadItems_entries tasks

@[simp] theorem tasks_construct (content : Content) : (construct content).tasks = content.tasks := by
  cases content with
  | absent => rfl
  | json v => rfl
  | unreadable text => rfl

/-- What a call leaves in a file that holds these tasks. -/
theorem call_file (tasks : List Task) (c : Call) :
    (call writable (tasks.map Task.entries) c).2 =
      match saves tasks c with
      | some tasks' =>
        match save writable tasks' with
        | .ok file => file
        | .error _ => tasks.map Task.entries
      | none => tasks.map Task.entries := by
  have hchanged : ∀ {ο : Type} (wrap : ο → Answer) (o : ο) (tasks' : List Task),
      (answer wrap (tasks.map Task.entries)
          ((saveChanged writable tasks tasks' (tasks.map Task.entries)).map (o, ·))).2 =
        match changedTasks tasks tasks' with
        | some tasks' =>
          match save writable tasks' with
          | .ok file => file
          | .error _ => tasks.map Task.entries
        | none => tasks.map Task.entries := by
    intro ο wrap o tasks'
    unfold saveChanged changedTasks
    split_ifs
    · dsimp only
      cases save writable tasks' <;> rfl
    · rfl
  cases c with
  | addTask task authority =>
    simp only [call, addTask, saves, load_saved]
    cases normalizeTask task with
    | error e => rfl
    | ok normalized =>
      simp only [Except.bind]
      cases hauthority : missesAuthority authority normalized with
      | true => simp only [if_pos, Bool.true_or, answer]
      | false =>
        by_cases hfound : normalized.taskId ∈ tasks.map Task.taskId
        · simp [hfound, answer]
        · cases hdeps : checkDependenciesExist tasks normalized.dependsOn with
          | false => simp [hfound, answer]
          | true =>
            cases hcycle : detectCycle (buildGraph (tasks ++ [normalized])) with
            | true => simp [hfound, answer]
            | false =>
              simp only [hfound, decide_false, Bool.not_true, Bool.or_self, Bool.false_eq_true,
                if_false]
              cases save writable (tasks ++ [refreshBlockedStatus (tasks ++ [normalized]) normalized])
                <;> rfl
  | upsertTask task authority =>
    simp only [call, upsertTask, saves, load_saved]
    cases normalizeTask task with
    | error e => rfl
    | ok normalized =>
      simp only [Except.bind]
      cases missesAuthority authority normalized with
      | true => simp only [if_pos, Bool.true_or, answer]
      | false =>
        cases (!checkDependenciesExist tasks normalized.dependsOn &&
            !checkDependenciesExist tasks (normalized.dependsOn.filter (· ≠ normalized.taskId))) with
        | true => simp [answer]
        | false =>
          cases detectCycle (buildGraph (placed tasks normalized)) with
          | true => simp [answer]
          | false =>
            simp only [Bool.or_self, Bool.false_eq_true, if_false]
            cases save writable (placed tasks (refreshBlockedStatus (placed tasks normalized)
              normalized)) <;> rfl
  | deleteTask taskId =>
    simp only [call, deleteTask, saves, load_saved]
    cases save writable (tasks.filter fun t => !names taskId t) <;> rfl
  | listTasks =>
    simp only [call, listTasks, saves, load_saved]
    exact hchanged _ _ _
  | getTask taskId =>
    simp only [call, getTask, saves, load_saved]
    cases tasks.find? (names taskId) with
    | none => rfl
    | some task => exact hchanged _ _ _
  | getReadyTasks =>
    simp only [call, getReadyTasks, saves, load_saved]
    exact hchanged _ _ _

/-- Of the tasks, a call on the file does what it does on a file of these tasks alone. -/
theorem tasks_perform (content : Content) (c : Call) :
    (perform writable content c).2.tasks =
      load (call writable (content.tasks.map Task.entries) c).2 := by
  have hfile : (loadContent content).2.tasks = content.tasks := tasks_construct content
  rw [call_file]
  change (saveContent writable (loadContent content).2 (saves content.tasks c)).tasks = _
  cases saves content.tasks c with
  | none => exact hfile.trans (load_saved _).symm
  | some tasks' =>
    dsimp only [saveContent]
    cases hsave : save writable tasks' with
    | error e => exact hfile.trans (load_saved _).symm
    | ok file =>
      obtain ⟨-, rfl⟩ := save_eq_ok.mp hsave
      exact (tasks_written tasks').trans (load_saved tasks').symm

/-! ## What a call keeps -/

def openStatuses : List String := ["queued", "blocked"]

/-- What refreshing keeps of a task. -/
structure SameRecord (t u : Task) : Prop where
  core : u.core = t.core
  status : u.status = t.status ∨ t.status ∈ openStatuses ∧ u.status ∈ openStatuses

theorem SameRecord.refl (t : Task) : SameRecord t t := ⟨rfl, Or.inl rfl⟩

variable {t : Task}

theorem SameRecord.trans {u v : Task} (h : SameRecord t u) (h' : SameRecord u v) :
    SameRecord t v := by
  refine ⟨h'.core.trans h.core, ?_⟩
  rcases h'.status with heq | ⟨hu, hv⟩
  · rw [heq]
    exact h.status
  · rcases h.status with heq | ⟨ht, -⟩
    · exact Or.inr ⟨heq ▸ hu, hv⟩
    · exact Or.inr ⟨ht, hv⟩

theorem SameRecord.taskId {u : Task} (h : SameRecord t u) : u.taskId = t.taskId :=
  congrArg Prod.fst h.core

theorem sameRecord_refresh (tasks : List Task) (t : Task) :
    SameRecord t (refreshBlockedStatus tasks t) := by
  refine ⟨core_refresh tasks t, ?_⟩
  unfold refreshBlockedStatus
  split
  · exact Or.inl rfl
  · rename_i hopen
    refine Or.inr ⟨not_not.mp hopen, ?_⟩
    split_ifs
    · exact List.mem_cons_self
    · exact List.mem_cons_self
    · exact List.mem_cons_of_mem _ List.mem_cons_self

/-- The record is among the tasks. -/
def Carried (t : Task) (tasks : List Task) : Prop := ∃ u ∈ tasks, SameRecord t u

variable {tasks : List Task}

theorem carried_of_mem (h : t ∈ tasks) : Carried t tasks :=
  ⟨t, h, SameRecord.refl t⟩

/-- A task is still there after another has been placed, unless it was the first of that id. -/
theorem mem_placed {x : Task} (ht : t ∈ tasks) (hfirst : tasks.find? (·.taskId = x.taskId) ≠ some t)
    : t ∈ placed tasks x := by
  unfold placed
  split
  · rename_i i hi
    obtain ⟨hlt, hid, hbefore⟩ := List.findIdx?_eq_some_iff_getElem.mp hi
    obtain ⟨j, hj, rfl⟩ := List.getElem_of_mem ht
    have hne : i ≠ j := by
      rintro rfl
      refine hfirst (List.find?_eq_some_iff_getElem.mpr ⟨hid, i, hlt, rfl, fun k hk => ?_⟩)
      rw [Bool.eq_false_iff.mpr (hbefore k hk)]
      rfl
    have hset : (tasks.set i x)[j]? = some tasks[j] := by
      rw [List.getElem?_set_ne hne, List.getElem?_eq_getElem hj]
    exact List.mem_of_getElem? hset
  · exact List.mem_append_left _ ht

theorem mem_placed_self (tasks : List Task) (x : Task) : x ∈ placed tasks x := by
  unfold placed
  split
  · rename_i i hi
    obtain ⟨hlt, -, -⟩ := List.findIdx?_eq_some_iff_getElem.mp hi
    exact List.mem_set hlt x
  · exact List.mem_append_right _ List.mem_cons_self

theorem mem_refreshEach_before (rest : List Task) :
    ∀ before, t ∈ before → t ∈ refreshEach before rest := by
  induction rest with
  | nil => exact fun _ h => h
  | cons task rest ih => exact fun before h => ih _ (List.mem_append_left _ h)

theorem carried_refreshEach (rest : List Task) :
    ∀ before, t ∈ rest → Carried t (refreshEach before rest) := by
  induction rest with
  | nil =>
    intro before h
    cases h
  | cons task rest ih =>
    intro before h
    rcases List.mem_cons.mp h with rfl | h
    · refine ⟨_, mem_refreshEach_before rest _ (List.mem_append_right _ List.mem_cons_self), ?_⟩
      exact sameRecord_refresh _ t
    · exact ih _ h

def Targets (taskId : String) : Call → Prop
  | .upsertTask task _ => ∃ u, normalizeTask task = .ok u ∧ u.taskId = taskId
  | .deleteTask given => given = .str taskId
  | _ => False

variable {tasks' : List Task}

theorem carried_changedTasks {refreshed : List Task} (h : Carried t refreshed)
    (hsaves : changedTasks tasks refreshed = some tasks') : Carried t tasks' := by
  unfold changedTasks at hsaves
  split_ifs at hsaves
  cases hsaves
  exact h

variable {c : Call}

/-- What a call saves has every record that it does not name. -/
theorem carried_saves (ht : t ∈ tasks) (hother : ¬Targets t.taskId c)
    (hsaves : saves tasks c = some tasks') : Carried t tasks' := by
  cases c with
  | addTask task authority =>
    simp only [saves] at hsaves
    split at hsaves
    · split_ifs at hsaves
      cases hsaves
      exact carried_of_mem (List.mem_append_left _ ht)
    · cases hsaves
  | upsertTask task authority =>
    simp only [saves] at hsaves
    split at hsaves
    · rename_i normalized hnormalized
      split_ifs at hsaves
      cases hsaves
      refine carried_of_mem (mem_placed ht fun hfirst => hother ⟨normalized, hnormalized, ?_⟩)
      rw [taskId_refresh] at hfirst
      have hid := List.find?_some hfirst
      exact (of_decide_eq_true hid).symm
    · cases hsaves
  | deleteTask taskId =>
    cases hsaves
    refine carried_of_mem (List.mem_filter.mpr ⟨ht, ?_⟩)
    cases taskId with
    | str id =>
      have hne : t.taskId ≠ id := fun heq => hother (congrArg Val.str heq.symm)
      simp [names, hne]
    | _ => rfl
  | listTasks =>
    exact carried_changedTasks ⟨_, List.mem_map_of_mem ht, sameRecord_refresh tasks t⟩ hsaves
  | getTask taskId =>
    simp only [saves] at hsaves
    split at hsaves
    · rename_i task hfind
      refine carried_changedTasks ?_ hsaves
      by_cases hfirst : tasks.find? (·.taskId = (refreshBlockedStatus tasks task).taskId) = some t
      · refine ⟨_, mem_placed_self tasks _, ?_⟩
        have hsame : task = t := by
          cases taskId with
          | str id =>
            have hid := List.find?_some hfind
            have hid : task.taskId = id := of_decide_eq_true hid
            rw [taskId_refresh, hid] at hfirst
            exact Option.some.inj (hfind.symm.trans hfirst)
          | _ => cases List.find?_some hfind
        rw [hsame]
        exact sameRecord_refresh tasks t
      · exact carried_of_mem (mem_placed ht hfirst)
    · cases hsaves
  | getReadyTasks =>
    exact carried_changedTasks (carried_refreshEach tasks [] ht) hsaves

theorem carried_perform {content : Content} (h : Carried t content.tasks)
    (hother : ¬Targets t.taskId c) : Carried t (perform writable content c).2.tasks := by
  obtain ⟨u, hu, hsame⟩ := h
  have hsaved : Carried u (perform writable content c).2.tasks := by
    change Carried u (saveContent writable (loadContent content).2 (saves content.tasks c)).tasks
    have hunchanged : Carried u (loadContent content).2.tasks := by
      have hfile : (loadContent content).2.tasks = content.tasks := tasks_construct content
      rw [hfile]
      exact carried_of_mem hu
    cases hsaves : saves content.tasks c with
    | none => exact hunchanged
    | some tasks' =>
      dsimp only [saveContent]
      cases save writable tasks' with
      | error e => exact hunchanged
      | ok file =>
        dsimp only
        rw [tasks_written]
        exact carried_saves hu (hsame.taskId ▸ hother) hsaves
  obtain ⟨v, hv, hsame'⟩ := hsaved
  exact ⟨v, hv, hsame.trans hsame'⟩

/-- A record that no call of a run names is there after it. -/
theorem carried_run {content : Content} (calls : List Call) (h : Carried t content.tasks)
    (hother : ∀ c ∈ calls, ¬Targets t.taskId c) :
    Carried t ((taskStore writable).run content calls).tasks := by
  induction calls generalizing content with
  | nil => exact h
  | cons c calls ih =>
    refine ih (carried_perform h (hother c List.mem_cons_self)) fun c' hc' => ?_
    exact hother c' (List.mem_cons_of_mem c hc')

/-! ## A file that cannot be read -/

/-- The task may be stored where there are no others. -/
structure FirstTask (task : Val) (authority : String → Bool) (t : Task) : Prop where
  normalized : normalizeTask task = .ok t
  authorized : missesAuthority authority t = false
  alone : t.dependsOn = []

/-- The call saves a store without tasks. -/
def WritesAnew (writable : Entries → Bool) : Call → Prop
  | .addTask task authority | .upsertTask task authority =>
    ∃ t, FirstTask task authority t ∧ writable t.rest = true
  | .deleteTask _ => True
  | _ => False

theorem dag_singleton : Dag [t] ↔ t.taskId ∉ t.dependsOn := by
  have hedge : ∀ {a b}, DependsOn [t] a b → a = t.taskId ∧ b = t.taskId ∧ b ∈ t.dependsOn := by
    rintro a b ⟨u, hu, hid, hb, hmem⟩
    cases List.mem_singleton.mp hu
    exact ⟨hid.symm, List.mem_singleton.mp hmem, hb⟩
  constructor
  · intro h hself
    exact h t.taskId (.single ⟨t, List.mem_cons_self, rfl, hself, List.mem_cons_self⟩)
  · intro h a hcycle
    obtain ⟨b, hlast, -⟩ := Relation.TransGen.head'_iff.mp hcycle
    obtain ⟨-, rfl, hmem⟩ := hedge hlast
    exact h hmem

theorem detectCycle_singleton (t : Task) :
    detectCycle (buildGraph [t]) = false ↔ t.taskId ∉ t.dependsOn := by
  have hnodup : ([t].map Task.taskId).Nodup := List.nodup_singleton t.taskId
  rw [detectCycle_buildGraph hnodup, dag_singleton]

theorem checkDependenciesExist_nil (deps : List String) :
    checkDependenciesExist [] deps = true ↔ deps = [] := by
  cases deps with
  | nil => exact ⟨fun _ => rfl, fun _ => rfl⟩
  | cons dep deps => simp [checkDependenciesExist]

theorem rest_refresh (tasks : List Task) (t : Task) :
    (refreshBlockedStatus tasks t).rest = t.rest :=
  congrArg (fun core => core.2.2) (core_refresh tasks t)

theorem saved_singleton :
    (∃ file, save writable [refreshBlockedStatus tasks t] = .ok file) ↔ writable t.rest = true := by
  constructor
  · rintro ⟨file, hsave⟩
    obtain ⟨hall, -⟩ := save_eq_ok.mp hsave
    rw [← rest_refresh tasks t]
    exact hall _ List.mem_cons_self
  · intro h
    refine ⟨_, save_eq_ok.mpr ⟨fun u hu => ?_, rfl⟩⟩
    rw [List.mem_singleton.mp hu, rest_refresh]
    exact h

variable {authority : String → Bool}

theorem saves_addTask_nil {task : Val} :
    saves [] (.addTask task authority) = some tasks' ↔
      ∃ t, FirstTask task authority t ∧ tasks' = [refreshBlockedStatus [t] t] := by
  simp only [saves]
  cases htask : normalizeTask task with
  | error e =>
    refine ⟨fun h => (by cases h), ?_⟩
    rintro ⟨t, hfirst, -⟩
    cases htask.symm.trans hfirst.normalized
  | ok t =>
    dsimp only
    constructor
    · intro h
      split_ifs at h with hcond
      simp only [List.map_nil, List.not_mem_nil, decide_false, Bool.or_false, Bool.or_eq_true,
        not_or, Bool.not_eq_true, Bool.not_eq_false'] at hcond
      obtain ⟨⟨hauthority, hdeps⟩, -⟩ := hcond
      exact ⟨t, ⟨htask, hauthority, (checkDependenciesExist_nil _).mp hdeps⟩, (Option.some.inj h).symm⟩
    · rintro ⟨u, hfirst, rfl⟩
      cases htask.symm.trans hfirst.normalized
      have hcycle : detectCycle (buildGraph [t]) = false :=
        (detectCycle_singleton t).mpr (by rw [hfirst.alone]; exact List.not_mem_nil)
      have hdeps := (checkDependenciesExist_nil t.dependsOn).mpr hfirst.alone
      rw [List.nil_append, hcycle, hdeps, hfirst.authorized]
      rfl

theorem saves_upsertTask_nil {task : Val} :
    saves [] (.upsertTask task authority) = some tasks' ↔
      ∃ t, FirstTask task authority t ∧ tasks' = [refreshBlockedStatus [t] t] := by
  simp only [saves]
  cases htask : normalizeTask task with
  | error e =>
    refine ⟨fun h => (by cases h), ?_⟩
    rintro ⟨t, hfirst, -⟩
    cases htask.symm.trans hfirst.normalized
  | ok t =>
    dsimp only
    have hplaced : ∀ x, placed [] x = [x] := fun _ => rfl
    rw [hplaced, hplaced]
    constructor
    · intro h
      split_ifs at h with hcond
      simp only [Bool.or_eq_true, Bool.and_eq_true, not_or, not_and, Bool.not_eq_true,
        Bool.not_eq_true', detectCycle_singleton] at hcond
      obtain ⟨⟨hauthority, hdeps⟩, hself⟩ := hcond
      refine ⟨t, ⟨htask, hauthority, ?_⟩, (Option.some.inj h).symm⟩
      -- a task that depends only on itself is let through up to the search for cycles
      cases hexist : checkDependenciesExist [] t.dependsOn with
      | true => exact (checkDependenciesExist_nil _).mp hexist
      | false =>
        have hown := (checkDependenciesExist_nil _).mp (Bool.not_eq_false _ ▸ hdeps hexist)
        rw [← hown]
        refine (List.filter_eq_self.mpr fun dep hdep => ?_).symm
        have hne : dep ≠ t.taskId := fun heq => hself (heq ▸ hdep)
        exact decide_eq_true hne
    · rintro ⟨u, hfirst, rfl⟩
      cases htask.symm.trans hfirst.normalized
      have hcycle : detectCycle (buildGraph [t]) = false :=
        (detectCycle_singleton t).mpr (by rw [hfirst.alone]; exact List.not_mem_nil)
      have hdeps := (checkDependenciesExist_nil t.dependsOn).mpr hfirst.alone
      rw [hcycle, hdeps, hfirst.authorized]
      rfl

theorem writesAnew_iff :
    WritesAnew writable c ↔
      ∃ tasks' file, saves [] c = some tasks' ∧ save writable tasks' = .ok file := by
  have hfirst : ∀ {task authority}, (∀ {tasks'}, saves [] c = some tasks' ↔
      ∃ t, FirstTask task authority t ∧ tasks' = [refreshBlockedStatus [t] t]) →
      ((∃ t, FirstTask task authority t ∧ writable t.rest = true) ↔
        ∃ tasks' file, saves [] c = some tasks' ∧ save writable tasks' = .ok file) := by
    intro task authority hsaves
    constructor
    · rintro ⟨t, ht, hwritable⟩
      obtain ⟨file, hsave⟩ : ∃ file, save writable [refreshBlockedStatus [t] t] = .ok file :=
        saved_singleton.mpr hwritable
      exact ⟨_, file, hsaves.mpr ⟨t, ht, rfl⟩, hsave⟩
    · rintro ⟨tasks', file, hsome, hsave⟩
      obtain ⟨t, ht, rfl⟩ := hsaves.mp hsome
      exact ⟨t, ht, saved_singleton.mp ⟨file, hsave⟩⟩
  cases c with
  | addTask task authority => exact hfirst saves_addTask_nil
  | upsertTask task authority => exact hfirst saves_upsertTask_nil
  | deleteTask taskId => exact ⟨fun _ => ⟨[], [], rfl, rfl⟩, fun _ => trivial⟩
  | listTasks | getTask _ | getReadyTasks =>
    refine ⟨fun h => h.elim, ?_⟩
    rintro ⟨tasks', file, hsaves, -⟩
    cases hsaves

theorem perform_unreadable (text : String) (c : Call) :
    (perform writable (.unreadable text) c).2 = saveContent writable (.unreadable text) (saves [] c) :=
  rfl

theorem perform_unreadable_of_not {text : String} (h : ¬WritesAnew writable c) :
    (perform writable (.unreadable text) c).2 = .unreadable text := by
  rw [perform_unreadable]
  cases hsaves : saves [] c with
  | none => rfl
  | some tasks' =>
    dsimp only [saveContent]
    cases hsave : save writable tasks' with
    | error e => rfl
    | ok file => exact absurd (writesAnew_iff.mpr ⟨tasks', file, hsaves, hsave⟩) h

theorem perform_json (v : Val) (c : Call) : ∃ v', (perform writable (.json v) c).2 = .json v' := by
  change ∃ v', saveContent writable (.json v) (saves (loadItems (rawTasks v)) c) = .json v'
  cases saves (loadItems (rawTasks v)) c with
  | none => exact ⟨v, rfl⟩
  | some tasks' =>
    dsimp only [saveContent]
    cases save writable tasks' with
    | error e => exact ⟨v, rfl⟩
    | ok file => exact ⟨written tasks', rfl⟩

theorem run_json (calls : List Call) :
    ∀ v, ∃ v', (taskStore writable).run (.json v) calls = .json v' := by
  induction calls with
  | nil => exact fun v => ⟨v, rfl⟩
  | cons c calls ih =>
    intro v
    obtain ⟨v', hstep⟩ := @perform_json writable v c
    obtain ⟨v'', hrun⟩ := ih v'
    refine ⟨v'', ?_⟩
    rw [← hrun, ← hstep]
    rfl

/-- What cannot be read stays exactly as long as no call writes the store anew. -/
theorem run_unreadable (text : String) (calls : List Call) :
    (taskStore writable).run (.unreadable text) calls = .unreadable text ↔
      ∀ c ∈ calls, ¬WritesAnew writable c := by
  induction calls with
  | nil => exact ⟨fun _ c hc => (by cases hc), fun _ => rfl⟩
  | cons c calls ih =>
    rw [List.forall_mem_cons, ← ih]
    by_cases hwrites : WritesAnew writable c
    · obtain ⟨tasks', file, hsaves, hsave⟩ := writesAnew_iff.mp hwrites
      have hstep : (perform writable (.unreadable text) c).2 = .json (written tasks') := by
        rw [perform_unreadable, hsaves, saveContent, hsave]
      obtain ⟨v', hrun⟩ := @run_json writable calls (written tasks')
      have hlost : (taskStore writable).run (.unreadable text) (c :: calls) = .json v' := by
        rw [← hrun, ← hstep]
        rfl
      rw [hlost]
      exact ⟨fun h => (by cases h), fun h => absurd hwrites h.1⟩
    · have hstep : (taskStore writable).run (.unreadable text) (c :: calls) =
          (taskStore writable).run (.unreadable text) calls :=
        congrArg (fun content => (taskStore writable).run content calls)
          (perform_unreadable_of_not hwrites)
      rw [hstep]
      exact ⟨fun h => ⟨hwrites, h⟩, fun h => h.2⟩

/-- No readable record is lost, save those a call names, and what cannot be read stays. -/
structure Undamaged (writable : Entries → Bool) (content : Content) (calls : List Call) : Prop where
  kept : ∀ t ∈ content.tasks, (∀ c ∈ calls, ¬Targets t.taskId c) →
    Carried t ((taskStore writable).run (construct content) calls).tasks
  unread : ∀ text, content = .unreadable text →
    (taskStore writable).run (construct content) calls = .unreadable text

theorem undamaged_iff_readable (writable : Entries → Bool) (content : Content)
    (calls : List Call) :
    Undamaged writable content calls ↔
      (∀ text, content ≠ .unreadable text) ∨ ∀ c ∈ calls, ¬WritesAnew writable c := by
  have hkept : ∀ t ∈ content.tasks, (∀ c ∈ calls, ¬Targets t.taskId c) →
      Carried t ((taskStore writable).run (construct content) calls).tasks := by
    intro t ht hother
    refine carried_run calls ?_ hother
    rw [tasks_construct]
    exact carried_of_mem ht
  constructor
  · intro h
    by_cases hreadable : ∀ text, content ≠ .unreadable text
    · exact Or.inl hreadable
    · obtain ⟨text, htext⟩ := not_forall.mp hreadable
      have hcontent := not_not.mp htext
      have hrun := h.unread text hcontent
      rw [hcontent] at hrun
      exact Or.inr ((run_unreadable text calls).mp hrun)
  · rintro (hreadable | hwrites)
    · exact ⟨hkept, fun text htext => absurd htext (hreadable text)⟩
    · refine ⟨hkept, fun text htext => ?_⟩
      rw [htext]
      exact (run_unreadable text calls).mpr hwrites

/-- The file of a store, cut short, is gone with the next deletion of any task. -/
theorem cut_store_overwritten :
    (taskStore fun _ => true).run (construct (.unreadable "[")) [.deleteTask (.str "b")] =
        .json (written []) ∧
      ¬Undamaged (fun _ => true) (.unreadable "[") [.deleteTask (.str "b")] := by
  refine ⟨rfl, fun h => ?_⟩
  cases h.unread "[" rfl

end Tasks
end ZeroRuntime
