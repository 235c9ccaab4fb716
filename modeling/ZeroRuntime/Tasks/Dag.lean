import ZeroRuntime.Tasks.TaskRepository

/-!
# ZeroRuntime.Tasks.Dag

What holds of the task store over a run.

* `DependsOn` is the relation of the stored tasks; the search for cycles decides whether it has one
  (`detectCycle_buildGraph`).
* `Sound`: ids occur once, dependencies have no cycle, everything can be written down. Deleting and
  refreshing keep it, and so does a task that the search has let through.
* `Ready` is what `get_ready_tasks` should return; its loop returns exactly that.
-/

namespace ZeroRuntime
namespace Tasks

open Lib DepthFirst

/-! ## Reading back -/

theorem eraseDups_of_nodup {xs : List String} (h : xs.Nodup) : xs.eraseDups = xs := by
  induction xs with
  | nil => rfl
  | cons x xs ih =>
    obtain ⟨hx, hxs⟩ := List.nodup_cons.mp h
    have hfilter : xs.filter (fun y => !y == x) = xs := by
      refine List.filter_eq_self.mpr fun y hy => ?_
      have hne : y ≠ x := fun heq => hx (heq ▸ hy)
      simp [hne]
    rw [List.eraseDups_cons, hfilter, ih hxs]

theorem normalizeDependsOn_str {deps : List String} (htext : ∀ dep ∈ deps, IdText dep)
    (hnodup : deps.Nodup) : normalizeDependsOn (.list (deps.map .str)) = deps := by
  have hmap : (deps.map Val.str).map (fun dep => Text.strip dep.toText) = deps := by
    rw [List.map_map]
    exact (List.map_congr_left fun dep hdep => (htext dep hdep).strip).trans (List.map_id deps)
  have hfilter : deps.filter (· ≠ "") = deps :=
    List.filter_eq_self.mpr fun dep hdep => decide_eq_true (htext dep hdep).nonempty
  rw [normalizeDependsOn, hmap, hfilter, eraseDups_of_nodup hnodup]

theorem resolveDefaultStatus_str {status : String} (h : StatusText status) (deps : List String) :
    resolveDefaultStatus (.str status) deps = status := by
  unfold resolveDefaultStatus
  dsimp only
  rw [Val.text_str, h.strip, h.lower, if_pos h.nonempty]

theorem filter_coreKeys {rest : Entries} (h : ∀ e ∈ rest, e.1 ∉ coreKeys) :
    rest.filter (fun e => e.1 ∉ coreKeys) = rest :=
  List.filter_eq_self.mpr fun e he => decide_eq_true (h e he)

variable {t : Task}

theorem Task.ext_data {t' : Task} (hid : t.taskId = t'.taskId) (hstatus : t.status = t'.status)
    (hdeps : t.dependsOn = t'.dependsOn) (hrest : t.rest = t'.rest) : t = t' := by
  cases t
  cases t'
  cases hid
  cases hstatus
  cases hdeps
  cases hrest
  rfl

/-- A task reads back as it is. -/
theorem normalizeTask_entries (t : Task) : normalizeTask (.dict t.entries) = .ok t := by
  have hid : (Val.getIn "task_id" t.entries).text = t.taskId :=
    (Val.text_str t.taskId).trans t.taskId_text.strip
  have hdeps : normalizeDependsOn (Val.getIn "depends_on" t.entries) = t.dependsOn :=
    normalizeDependsOn_str t.dependsOn_text t.dependsOn_nodup
  have hstatus : resolveDefaultStatus (Val.getIn "status" t.entries)
      (normalizeDependsOn (Val.getIn "depends_on" t.entries)) = t.status :=
    resolveDefaultStatus_str t.status_text _
  have hrest : t.entries.filter (fun e => e.1 ∉ coreKeys) = t.rest := filter_coreKeys t.rest_keys
  have hne : ¬(Val.getIn "task_id" t.entries).text = "" := by
    rw [hid]
    exact t.taskId_text.nonempty
  unfold normalizeTask
  dsimp only
  rw [dif_neg hne]
  exact congrArg Except.ok (Task.ext_data hid hstatus hdeps hrest)

@[simp] theorem load_saved (tasks : List Task) : load (tasks.map Task.entries) = tasks := by
  induction tasks with
  | nil => rfl
  | cons t ts ih =>
    unfold load at ih ⊢
    rw [List.map_cons, List.filterMap_cons, normalizeTask_entries, ih]
    rfl

/-! ## The graph -/

/-- The dependencies of the stored tasks on stored tasks. -/
def DependsOn (tasks : List Task) (a b : String) : Prop :=
  ∃ t ∈ tasks, t.taskId = a ∧ b ∈ t.dependsOn ∧ b ∈ tasks.map Task.taskId

variable {tasks : List Task}

theorem foldl_buildGraph {graph : Graph String} (hnodup : (tasks.map Task.taskId).Nodup)
    (hfresh : ∀ t ∈ tasks, t.taskId ∉ nodes graph) :
    tasks.foldl (fun graph t => Dict.setEntries t.taskId t.dependsOn graph) graph =
      graph ++ tasks.map fun t => (t.taskId, t.dependsOn) := by
  induction tasks generalizing graph with
  | nil => simp
  | cons t ts ih =>
    obtain ⟨ht, hts⟩ := List.nodup_cons.mp hnodup
    have happend : Dict.setEntries t.taskId t.dependsOn graph =
        graph ++ [(t.taskId, t.dependsOn)] :=
      Dict.setEntries_of_find_none (Dict.find_eq_none.mpr (hfresh t List.mem_cons_self))
    rw [List.foldl_cons, happend, ih hts, List.append_assoc, List.map_cons]
    · rfl
    · intro u hu hmem
      rw [nodes, List.map_append, List.mem_append] at hmem
      rcases hmem with hmem | hmem
      · exact hfresh u (List.mem_cons_of_mem _ hu) hmem
      · have hid : u.taskId = t.taskId := List.mem_singleton.mp hmem
        exact ht (hid ▸ List.mem_map_of_mem hu)

theorem buildGraph_eq (hnodup : (tasks.map Task.taskId).Nodup) :
    buildGraph tasks = tasks.map fun t => (t.taskId, t.dependsOn) :=
  foldl_buildGraph hnodup fun _ _ hmem => absurd hmem List.not_mem_nil

theorem find_map_task (hnodup : (tasks.map Task.taskId).Nodup) {a : String} {deps : List String} :
    Dict.find a (tasks.map fun t => (t.taskId, t.dependsOn)) = some deps ↔
      ∃ t ∈ tasks, t.taskId = a ∧ t.dependsOn = deps := by
  induction tasks with
  | nil => simp [Dict.find]
  | cons t ts ih =>
    obtain ⟨ht, hts⟩ := List.nodup_cons.mp hnodup
    rw [List.map_cons, Dict.find]
    by_cases heq : a = t.taskId
    · rw [if_pos heq]
      constructor
      · intro h
        exact ⟨t, List.mem_cons_self, heq.symm, Option.some.inj h⟩
      · rintro ⟨u, hu, huid, rfl⟩
        rcases List.mem_cons.mp hu with rfl | hu
        · rfl
        · exact absurd (List.mem_map.mpr ⟨u, hu, huid.trans heq⟩) ht
    · rw [if_neg heq, ih hts]
      constructor
      · rintro ⟨u, hu, h⟩
        exact ⟨u, List.mem_cons_of_mem _ hu, h⟩
      · rintro ⟨u, hu, huid, h⟩
        rcases List.mem_cons.mp hu with rfl | hu
        · exact absurd huid.symm heq
        · exact ⟨u, hu, huid, h⟩

theorem edge_iff (hnodup : (tasks.map Task.taskId).Nodup) {a b : String} :
    Edge (buildGraph tasks) a b ↔ DependsOn tasks a b := by
  have hnodes : nodes (buildGraph tasks) = tasks.map Task.taskId := by
    rw [buildGraph_eq hnodup, nodes, List.map_map]
    rfl
  unfold Edge next
  rw [hnodes, buildGraph_eq hnodup, List.mem_filter, decide_eq_true_iff]
  constructor
  · rintro ⟨hb, hmem⟩
    cases hfind : Dict.find a (tasks.map fun t => (t.taskId, t.dependsOn)) with
    | none =>
      rw [hfind] at hb
      cases hb
    | some deps =>
      rw [hfind, Option.getD_some] at hb
      obtain ⟨t, ht, hid, hdeps⟩ := (find_map_task hnodup).mp hfind
      exact ⟨t, ht, hid, hdeps ▸ hb, hmem⟩
  · rintro ⟨t, ht, hid, hb, hmem⟩
    have hfind := (find_map_task hnodup).mpr ⟨t, ht, hid, rfl⟩
    refine ⟨?_, hmem⟩
    rw [hfind, Option.getD_some]
    exact hb

/-- No task depends on itself, directly or through others. -/
def Dag (tasks : List Task) : Prop := ∀ a, ¬Relation.TransGen (DependsOn tasks) a a

theorem detectCycle_buildGraph (hnodup : (tasks.map Task.taskId).Nodup) :
    detectCycle (buildGraph tasks) = false ↔ Dag tasks := by
  have hrel : Edge (buildGraph tasks) = DependsOn tasks := by
    funext a b
    exact propext (edge_iff hnodup)
  rw [detectCycle_eq_false_iff, Acyclic, hrel]
  rfl

/-! ## What the store keeps -/

/-- What refreshing leaves as it is. -/
def Task.core (t : Task) : String × List String × Entries := (t.taskId, t.dependsOn, t.rest)

structure Sound (writable : Entries → Bool) (tasks : List Task) : Prop where
  nodup : (tasks.map Task.taskId).Nodup
  dag : Dag tasks
  written : ∀ t ∈ tasks, writable t.rest = true

variable {writable : Entries → Bool}

variable {tasks' : List Task}

theorem Dag.mono (h : Dag tasks) (hsub : ∀ a b, DependsOn tasks' a b → DependsOn tasks a b) :
    Dag tasks' :=
  fun a hcycle => h a (Relation.TransGen.mono hsub a a hcycle)

theorem dependsOn_sublist (h : tasks'.Sublist tasks) {a b : String} (hdep : DependsOn tasks' a b) :
    DependsOn tasks a b := by
  obtain ⟨t, ht, hid, hb, hmem⟩ := hdep
  exact ⟨t, h.subset ht, hid, hb, (h.map Task.taskId).subset hmem⟩

theorem Sound.sublist (h : Sound writable tasks) (hsub : tasks'.Sublist tasks) :
    Sound writable tasks' :=
  ⟨h.nodup.sublist (hsub.map Task.taskId), h.dag.mono fun _ _ => dependsOn_sublist hsub,
    fun t ht => h.written t (hsub.subset ht)⟩

theorem taskId_of_core (h : tasks'.map Task.core = tasks.map Task.core) :
    tasks'.map Task.taskId = tasks.map Task.taskId := by
  have hmap := congrArg (List.map Prod.fst) h
  rw [List.map_map, List.map_map] at hmap
  exact hmap

theorem mem_of_core (h : tasks'.map Task.core = tasks.map Task.core) (ht : t ∈ tasks') :
    ∃ u ∈ tasks, u.core = t.core :=
  List.mem_map.mp (h ▸ List.mem_map_of_mem ht)

theorem Dag.of_core (h : Dag tasks) (hcore : tasks'.map Task.core = tasks.map Task.core) :
    Dag tasks' := by
  refine h.mono ?_
  rintro b c ⟨t, ht, hid, hc, hmem⟩
  obtain ⟨u, hu, heq⟩ := mem_of_core hcore ht
  have huid : u.taskId = t.taskId := congrArg Prod.fst heq
  have hdeps : u.dependsOn = t.dependsOn := congrArg (fun core => core.2.1) heq
  exact ⟨u, hu, huid.trans hid, hdeps ▸ hc, taskId_of_core hcore ▸ hmem⟩

theorem Sound.of_core (h : Sound writable tasks)
    (hcore : tasks'.map Task.core = tasks.map Task.core) : Sound writable tasks' := by
  refine ⟨taskId_of_core hcore ▸ h.nodup, h.dag.of_core hcore, fun t ht => ?_⟩
  obtain ⟨u, hu, heq⟩ := mem_of_core hcore ht
  have hrest : u.rest = t.rest := congrArg (fun core => core.2.2) heq
  exact hrest ▸ h.written u hu

@[simp] theorem core_project (t : Task) (status : String) (h : StatusText status) :
    (t.project status h).core = t.core := rfl

@[simp] theorem core_refresh (tasks : List Task) (t : Task) :
    (refreshBlockedStatus tasks t).core = t.core := by
  unfold refreshBlockedStatus
  split_ifs <;> rfl

@[simp] theorem taskId_refresh (tasks : List Task) (t : Task) :
    (refreshBlockedStatus tasks t).taskId = t.taskId :=
  congrArg Prod.fst (core_refresh tasks t)

/-! ## One operation -/

variable {file : List Entries}

theorem save_eq_ok :
    save writable tasks = .ok file ↔
      (∀ t ∈ tasks, writable t.rest = true) ∧ file = tasks.map Task.entries := by
  unfold save
  split
  · rename_i hall
    rw [List.all_eq_true] at hall
    exact ⟨fun h => ⟨hall, (Except.ok.inj h).symm⟩, fun h => congrArg Except.ok h.2.symm⟩
  · rename_i hall
    rw [List.all_eq_true] at hall
    exact ⟨fun h => (by cases h), fun h => absurd h.1 hall⟩

/-- The file of a sound store. -/
def Kept (writable : Entries → Bool) (file : List Entries) : Prop :=
  ∃ tasks, file = tasks.map Task.entries ∧ Sound writable tasks

/-- A store that the search has let through may be saved, with statuses refreshed. -/
theorem kept_of_searched (hnodup : (tasks.map Task.taskId).Nodup)
    (hsearch : ¬detectCycle (buildGraph tasks) = true)
    (hcore : tasks'.map Task.core = tasks.map Task.core) (hsave : save writable tasks' = .ok file) :
    Kept writable file := by
  obtain ⟨hwritten, rfl⟩ := save_eq_ok.mp hsave
  have hdag : Dag tasks :=
    (detectCycle_buildGraph hnodup).mp (Bool.not_eq_true _ ▸ hsearch)
  exact ⟨tasks', rfl, taskId_of_core hcore ▸ hnodup, hdag.of_core hcore, hwritten⟩

theorem kept_of_core (h : Sound writable tasks) (hcore : tasks'.map Task.core = tasks.map Task.core)
    (hsave : saveChanged writable tasks tasks' (tasks.map Task.entries) = .ok file) :
    Kept writable file := by
  unfold saveChanged at hsave
  split at hsave
  · obtain ⟨-, rfl⟩ := save_eq_ok.mp hsave
    exact ⟨tasks', rfl, h.of_core hcore⟩
  · cases hsave
    exact ⟨tasks, rfl, h⟩

variable {authority : String → Bool}

theorem kept_addTask (h : Sound writable tasks) {task : Val} {b : Bool}
    (hok : addTask writable task authority (tasks.map Task.entries) = .ok (b, file)) :
    Kept writable file := by
  unfold addTask at hok
  rw [load_saved] at hok
  obtain ⟨normalized, -, hok⟩ := bind_eq_ok.mp hok
  dsimp only at hok
  split_ifs at hok with hauthority hfound hdeps hcycle
  · cases hok
    exact ⟨tasks, rfl, h⟩
  · obtain ⟨file', hsave, hfile⟩ := map_eq_ok.mp hok
    cases hfile
    refine kept_of_searched ?_ hcycle ?_ hsave
    · rw [List.map_append]
      refine List.nodup_append.mpr ⟨h.nodup, List.nodup_singleton _, ?_⟩
      rintro a ha b hb rfl
      exact hfound (List.mem_singleton.mp hb ▸ ha)
    · rw [List.map_append, List.map_append, List.map_singleton, List.map_singleton, core_refresh]

theorem placed_core {t' : Task} (h : t'.core = t.core) :
    (placed tasks t').map Task.core = (placed tasks t).map Task.core := by
  have hid : t'.taskId = t.taskId := congrArg Prod.fst h
  unfold placed
  rw [hid]
  split
  · rw [List.map_set, List.map_set, h]
  · rw [List.map_append, List.map_append, List.map_singleton, List.map_singleton, h]

theorem nodup_placed (h : (tasks.map Task.taskId).Nodup) (t : Task) :
    ((placed tasks t).map Task.taskId).Nodup := by
  unfold placed
  split
  · rename_i i hi
    obtain ⟨hlt, hid, -⟩ := List.findIdx?_eq_some_iff_getElem.mp hi
    have hsame : (tasks.set i t).map Task.taskId = tasks.map Task.taskId := by
      rw [List.map_set]
      refine (congrArg _ ?_).trans (List.set_getElem_self (by simpa using hlt))
      rw [List.getElem_map]
      exact (of_decide_eq_true hid).symm
    exact hsame ▸ h
  · rename_i hnone
    rw [List.map_append]
    refine List.nodup_append.mpr ⟨h, List.nodup_singleton _, ?_⟩
    rintro a ha b hb rfl
    obtain ⟨u, hu, huid⟩ := List.mem_map.mp ha
    have hfresh := List.findIdx?_eq_none_iff.mp hnone u hu
    exact of_decide_eq_false hfresh (huid.trans (List.mem_singleton.mp hb))

theorem kept_upsertTask (h : Sound writable tasks) {task : Val} {b : Bool}
    (hok : upsertTask writable task authority (tasks.map Task.entries) = .ok (b, file)) :
    Kept writable file := by
  unfold upsertTask at hok
  rw [load_saved] at hok
  obtain ⟨normalized, -, hok⟩ := bind_eq_ok.mp hok
  dsimp only at hok
  split_ifs at hok with hauthority hdeps hcycle
  obtain ⟨file', hsave, hfile⟩ := map_eq_ok.mp hok
  cases hfile
  exact kept_of_searched (nodup_placed h.nodup normalized) hcycle
    (placed_core (core_refresh _ normalized)) hsave

theorem kept_deleteTask (h : Sound writable tasks) {taskId : Val} {b : Bool}
    (hok : deleteTask writable taskId (tasks.map Task.entries) = .ok (b, file)) :
    Kept writable file := by
  unfold deleteTask at hok
  rw [load_saved] at hok
  obtain ⟨file', hsave, hfile⟩ := map_eq_ok.mp hok
  cases hfile
  obtain ⟨-, rfl⟩ := save_eq_ok.mp hsave
  exact ⟨_, rfl, h.sublist List.filter_sublist⟩

theorem core_map_refresh (tasks tasks' : List Task) :
    (tasks.map (refreshBlockedStatus tasks')).map Task.core = tasks.map Task.core := by
  rw [List.map_map]
  exact List.map_congr_left fun t _ => core_refresh tasks' t

theorem kept_listTasks {ts : List Task} (h : Sound writable tasks)
    (hok : listTasks writable (tasks.map Task.entries) = .ok (ts, file)) : Kept writable file := by
  unfold listTasks at hok
  rw [load_saved] at hok
  obtain ⟨file', hsave, hfile⟩ := map_eq_ok.mp hok
  cases hfile
  exact kept_of_core h (core_map_refresh tasks tasks) hsave

theorem eq_of_taskId (h : (tasks.map Task.taskId).Nodup) {u : Task} (ht : t ∈ tasks)
    (hu : u ∈ tasks) (hid : t.taskId = u.taskId) : t = u :=
  List.inj_on_of_nodup_map h ht hu hid

/-- Putting a stored task in its place changes nothing. -/
theorem placed_mem (h : (tasks.map Task.taskId).Nodup) (ht : t ∈ tasks) :
    placed tasks t = tasks := by
  unfold placed
  split
  · rename_i i hi
    obtain ⟨hlt, hid, -⟩ := List.findIdx?_eq_some_iff_getElem.mp hi
    have hsame : tasks[i] = t :=
      eq_of_taskId h (List.getElem_mem hlt) ht (of_decide_eq_true hid)
    exact hsame ▸ List.set_getElem_self hlt
  · rename_i hnone
    have hnot := List.findIdx?_eq_none_iff.mp hnone t ht
    exact absurd rfl (of_decide_eq_false hnot)

theorem kept_getTask (h : Sound writable tasks) {taskId : Val} {o : Option Task}
    (hok : getTask writable taskId (tasks.map Task.entries) = .ok (o, file)) :
    Kept writable file := by
  unfold getTask at hok
  rw [load_saved] at hok
  dsimp only at hok
  split at hok
  · rename_i task hfind
    obtain ⟨file', hsave, hfile⟩ := map_eq_ok.mp hok
    cases hfile
    refine kept_of_core h ?_ hsave
    rw [placed_core (core_refresh tasks task),
      placed_mem h.nodup (List.mem_of_find?_eq_some hfind)]
  · cases hok
    exact ⟨tasks, rfl, h⟩

/-! ## Readiness -/

/-- What readiness reads of a task that others depend on. -/
def Task.mark (t : Task) : String × Bool := (t.taskId, isDependencyCompleted t.status)

theorem mark_refresh (tasks : List Task) (t : Task) :
    (refreshBlockedStatus tasks t).mark = t.mark := by
  unfold refreshBlockedStatus
  split
  · rfl
  · rename_i hopen
    have hmark : isDependencyCompleted t.status = false := by
      rw [not_not, List.mem_cons, List.mem_singleton] at hopen
      rcases hopen with hopen | hopen <;> rw [hopen] <;> decide
    rw [Task.mark, Task.mark, hmark]
    split_ifs <;> rfl

theorem completedIn_eq (tasks : List Task) (dep : String) :
    completedIn tasks dep =
      ((tasks.map Task.mark).reverse.find? fun mark => mark.1 = dep).any Prod.snd := by
  rw [← List.map_reverse, List.find?_map, Option.any_map]
  rfl

theorem refresh_congr (h : tasks'.map Task.mark = tasks.map Task.mark) :
    refreshBlockedStatus tasks' = refreshBlockedStatus tasks := by
  have hcompleted : completedIn tasks' = completedIn tasks := by
    funext dep
    rw [completedIn_eq, completedIn_eq, h]
  funext t
  unfold refreshBlockedStatus
  rw [hcompleted]

/-- That the tasks before were refreshed already makes no difference to the next. -/
theorem refreshEach_eq {before original rest : List Task}
    (h : before.map Task.mark = original.map Task.mark) :
    refreshEach before rest = before ++ rest.map (refreshBlockedStatus (original ++ rest)) := by
  induction rest generalizing before original with
  | nil => simp [refreshEach]
  | cons t rest ih =>
    have hall : (before ++ t :: rest).map Task.mark = (original ++ t :: rest).map Task.mark := by
      rw [List.map_append, List.map_append, h]
    have hnext : (before ++ [refreshBlockedStatus (before ++ t :: rest) t]).map Task.mark =
        (original ++ [t]).map Task.mark := by
      rw [List.map_append, List.map_append, h, List.map_singleton, List.map_singleton,
        mark_refresh]
    rw [refreshEach, ih hnext, refresh_congr hall, List.append_assoc, List.append_assoc]
    rfl

/-- Queued or blocked, and every dependency is stored and completed. -/
def Ready (tasks : List Task) (t : Task) : Prop :=
  t.status ∈ ["queued", "blocked"] ∧
    ∀ dep ∈ t.dependsOn, ∃ u ∈ tasks, u.taskId = dep ∧ u.status ∈ completedStatuses

instance (tasks : List Task) : DecidablePred (Ready tasks) := fun t => by
  unfold Ready
  infer_instance

theorem completedIn_iff (h : (tasks.map Task.taskId).Nodup) {dep : String} :
    completedIn tasks dep = true ↔
      ∃ u ∈ tasks, u.taskId = dep ∧ u.status ∈ completedStatuses := by
  unfold completedIn
  constructor
  · intro hany
    obtain ⟨u, hfind, hcompleted⟩ := (Option.any_eq_true _ _).mp hany
    have hid : u.taskId = dep := by simpa using List.find?_some hfind
    exact ⟨u, List.mem_reverse.mp (List.mem_of_find?_eq_some hfind), hid,
      of_decide_eq_true hcompleted⟩
  · rintro ⟨u, hu, hid, hcompleted⟩
    have hsome : (tasks.reverse.find? fun t => t.taskId = dep).isSome :=
      List.find?_isSome.mpr ⟨u, List.mem_reverse.mpr hu, decide_eq_true hid⟩
    obtain ⟨u', hfind⟩ := Option.isSome_iff_exists.mp hsome
    have hid' : u'.taskId = dep := by simpa using List.find?_some hfind
    have hsame : u' = u :=
      eq_of_taskId h (List.mem_reverse.mp (List.mem_of_find?_eq_some hfind)) hu
        (hid'.trans hid.symm)
    rw [hfind, hsame]
    exact decide_eq_true hcompleted

theorem refresh_ready (h : (tasks.map Task.taskId).Nodup) (ht : Ready tasks t) :
    refreshBlockedStatus tasks t = t.project "queued" statusText_queued := by
  obtain ⟨hopen, hdeps⟩ := ht
  have hall : t.dependsOn.all (completedIn tasks) = true :=
    List.all_eq_true.mpr fun dep hdep => (completedIn_iff h).mpr (hdeps dep hdep)
  unfold refreshBlockedStatus
  rw [if_neg (not_not_intro hopen), if_pos hall, ite_self]

theorem status_refresh (h : (tasks.map Task.taskId).Nodup) (t : Task) :
    (refreshBlockedStatus tasks t).status = "queued" ↔ Ready tasks t := by
  constructor
  · intro hstatus
    unfold refreshBlockedStatus at hstatus
    split_ifs at hstatus with hopen hnone hall
    · refine ⟨hopen, fun dep hdep => ?_⟩
      rw [hnone] at hdep
      cases hdep
    · exact ⟨hopen, fun dep hdep =>
        (completedIn_iff h).mp (List.all_eq_true.mp hall dep hdep)⟩
    · exact absurd hstatus (show ¬"blocked" = "queued" by decide)
    · exact absurd (hstatus ▸ List.mem_cons_self) hopen
  · intro hready
    rw [refresh_ready h hready]
    rfl

/-- The tasks that `get_ready_tasks` should return. -/
def readyTasks (tasks : List Task) : List Task :=
  (tasks.filter (Ready tasks ·)).map (·.project "queued" statusText_queued)

theorem filter_refreshed (h : (tasks.map Task.taskId).Nodup) :
    (tasks.map (refreshBlockedStatus tasks)).filter (·.status = "queued") = readyTasks tasks := by
  rw [List.filter_map, readyTasks]
  have hsame : tasks.filter ((fun t : Task => decide (t.status = "queued")) ∘
      refreshBlockedStatus tasks) = tasks.filter (Ready tasks ·) :=
    List.filter_congr fun t _ => decide_eq_decide.mpr (status_refresh h t)
  rw [hsame]
  refine List.map_congr_left fun t ht => ?_
  exact refresh_ready h (of_decide_eq_true (List.mem_filter.mp ht).2)

theorem getReadyTasks_eq (h : Sound writable tasks) :
    ∃ file, getReadyTasks writable (tasks.map Task.entries) = .ok (readyTasks tasks, file) ∧
      Kept writable file := by
  have hrefreshed : refreshEach [] tasks = tasks.map (refreshBlockedStatus tasks) := by
    rw [@refreshEach_eq [] [] tasks rfl]
    rfl
  have hcore := core_map_refresh tasks tasks
  have hsaved : ∃ file, saveChanged writable tasks (tasks.map (refreshBlockedStatus tasks))
      (tasks.map Task.entries) = .ok file := by
    unfold saveChanged
    split
    · exact ⟨_, save_eq_ok.mpr ⟨(h.of_core hcore).written, rfl⟩⟩
    · exact ⟨_, rfl⟩
  obtain ⟨file, hsave⟩ := hsaved
  refine ⟨file, ?_, kept_of_core h hcore hsave⟩
  unfold getReadyTasks
  rw [load_saved]
  dsimp only
  rw [hrefreshed, hsave, filter_refreshed h.nodup]
  rfl

/-! ## Runs -/

theorem kept_answer {ο : Type} {wrap : ο → Answer} {result : Except Err (ο × List Entries)}
    (h : Kept writable file) (hok : ∀ o file', result = .ok (o, file') → Kept writable file') :
    Kept writable (answer wrap file result).2 := by
  cases hresult : result with
  | error e => exact h
  | ok p => exact hok p.1 p.2 hresult

theorem kept_call (h : Kept writable file) (c : Call) : Kept writable (call writable file c).2 := by
  obtain ⟨tasks, rfl, hsound⟩ := h
  have hkept : Kept writable (tasks.map Task.entries) := ⟨tasks, rfl, hsound⟩
  cases c with
  | addTask task authority => exact kept_answer hkept fun _ _ => kept_addTask hsound
  | upsertTask task authority => exact kept_answer hkept fun _ _ => kept_upsertTask hsound
  | deleteTask taskId => exact kept_answer hkept fun _ _ => kept_deleteTask hsound
  | listTasks => exact kept_answer hkept fun _ _ => kept_listTasks hsound
  | getTask taskId => exact kept_answer hkept fun _ _ => kept_getTask hsound
  | getReadyTasks =>
    obtain ⟨file, hready, hfile⟩ := getReadyTasks_eq hsound
    exact kept_answer hkept fun _ _ hok => by
      rw [hready] at hok
      cases hok
      exact hfile

theorem sound_nil : Sound writable [] := by
  refine ⟨List.nodup_nil, fun a hcycle => ?_, fun t ht => absurd ht List.not_mem_nil⟩
  obtain ⟨b, ⟨t, ht, -⟩, -⟩ := Relation.TransGen.head'_iff.mp hcycle
  cases ht

theorem kept_run (writable : Entries → Bool) (calls : List Call) :
    Kept writable ((taskRepository writable).run [] calls) := by
  have hstart : Kept writable [] := ⟨[], rfl, sound_nil⟩
  have hstep : ∀ file c, Kept writable file →
      Kept writable ((taskRepository writable).step file c).2 := fun _ c h => kept_call h c
  exact Machine.run_invariant hstep calls hstart

theorem answer_raised {ο : Type} {wrap : ο → Answer} (hwrap : ∀ o e, wrap o ≠ .raised e)
    {result : Except Err (ο × List Entries)} {e : Err} (h : (answer wrap file result).1 = .raised e)
    : (answer wrap file result).2 = file := by
  cases result with
  | error e' => rfl
  | ok p => exact absurd h (hwrap p.1 e)

/-- After any calls from the empty store the dependencies have no cycle, a call that raises leaves
the file as it is, and `get_ready_tasks` returns exactly the tasks that are ready. -/
theorem dag_and_ready (writable : Entries → Bool) (calls : List Call) :
    let file := (taskRepository writable).run [] calls
    Dag (load file) ∧
      (∀ c e, ((taskRepository writable).step file c).1 = .raised e →
        ((taskRepository writable).step file c).2 = file) ∧
      ((taskRepository writable).step file .getReadyTasks).1 =
        .tasks (readyTasks (load file)) := by
  intro file
  obtain ⟨tasks, hfile, hsound⟩ := kept_run writable calls
  have hload : load file = tasks := by
    rw [← load_saved tasks, ← hfile]
  refine ⟨hload ▸ hsound.dag, fun c e hraised => ?_, ?_⟩
  · cases c with
    | addTask => exact answer_raised (fun _ _ h => by cases h) hraised
    | upsertTask => exact answer_raised (fun _ _ h => by cases h) hraised
    | deleteTask => exact answer_raised (fun _ _ h => by cases h) hraised
    | listTasks => exact answer_raised (fun _ _ h => by cases h) hraised
    | getTask => exact answer_raised (fun _ _ h => by cases h) hraised
    | getReadyTasks => exact answer_raised (fun _ _ h => by cases h) hraised
  · obtain ⟨file', hready, -⟩ := getReadyTasks_eq hsound
    rw [hload]
    have hanswer : (taskRepository writable).step file .getReadyTasks =
        answer .tasks file (getReadyTasks writable file) := rfl
    have hsame : file = tasks.map Task.entries := hfile
    rw [hanswer, hsame, hready]
    rfl

end Tasks
end ZeroRuntime
