import ZeroRuntime.Packages.ResumeContract

/-!
# ZeroRuntime.Packages.Replans

Replanning only appends, once for each request.

* `Chained`: the task graph of a record is the chain of its steps, each depending on the one before.
* `AppendsSteps` is everything that a call which appends steps does; every other call leaves the
  plan of the record as it is (`replanning_step`).
* The ids of appended steps start with the number of their replan, and a number is used once.
* `replansOnce`: over every run of calls.
-/

namespace ZeroRuntime
namespace Packages

open Lib Goals Queue

variable {host : Host} {r r' : Entries}

/-! ## Chains -/

def nodeIds : ℕ → List Entries → List String
  | _, [] => []
  | index, step :: steps => nodeId index step :: nodeIds (index + 1) steps

/-- Every node depends on the one before it. -/
def chainDepends (ids : List String) : List Val :=
  (.list [] :: ids.map fun id => .list [.str id]).dropLast

def chainEdges (ids : List String) : List Val :=
  List.zipWith (fun previous id => .dict [("from", .str previous), ("to", .str id)]) ids ids.tail

def fieldOf (key : String) : Val → Val
  | .dict kvs => Val.getIn key kvs
  | _ => .none

/-- The task graph is the chain of the steps. -/
structure Chained (record : Entries) (steps : List Entries) (nodes edges : List Val) : Prop where
  items : stepItems record = .ok (steps.map Val.dict)
  graph : Val.getIn "task_graph" record = .dict [("nodes", .list nodes), ("edges", .list edges)]
  ids : nodes.map (fieldOf "node_id") = (nodeIds 0 steps).map Val.str
  depends : nodes.map (fieldOf "depends_on") = chainDepends (nodeIds 0 steps)
  chain : edges = chainEdges (nodeIds 0 steps)
  nodeCount : nodes.length = steps.length
  edgeCount : edges.length = steps.length - 1

theorem length_nodeIds (index : ℕ) (steps : List Entries) :
    (nodeIds index steps).length = steps.length := by
  induction steps generalizing index with
  | nil => rfl
  | cons step steps ih => exact congrArg (· + 1) (ih (index + 1))

theorem length_chainEdges (ids : List String) : (chainEdges ids).length = ids.length - 1 := by
  unfold chainEdges
  rw [List.length_zipWith, List.length_tail]
  omega

theorem length_graphNodes (taskId : Val) (index : ℕ) (previous : String) (steps : List Entries) :
    (graphNodes taskId index previous steps).length = steps.length := by
  induction steps generalizing index previous with
  | nil => rfl
  | cons step steps ih => exact congrArg (· + 1) (ih (index + 1) (nodeId index step))

theorem ids_graphNodes (taskId : Val) (index : ℕ) (previous : String) (steps : List Entries) :
    (graphNodes taskId index previous steps).map (fieldOf "node_id") =
      (nodeIds index steps).map Val.str := by
  induction steps generalizing index previous with
  | nil => rfl
  | cons step steps ih => exact congrArg (_ :: ·) (ih (index + 1) (nodeId index step))

/-- A step has a name of its own, whatever its index. -/
def HasName (step : Entries) : Prop := ∀ index, nodeId index step ≠ ""

theorem depends_graphNodes (taskId : Val) (index : ℕ) (previous : String) (steps : List Entries)
    (hnames : ∀ step ∈ steps, HasName step) :
    (graphNodes taskId index previous steps).map (fieldOf "depends_on") =
      (.list (if previous = "" then [] else [.str previous]) ::
        (nodeIds index steps).map fun id => .list [.str id]).dropLast := by
  induction steps generalizing index previous with
  | nil => rfl
  | cons step steps ih =>
    obtain ⟨hstep, hsteps⟩ := List.forall_mem_cons.mp hnames
    have hrest := ih (index + 1) (nodeId index step) hsteps
    rw [if_neg (hstep index)] at hrest
    rw [nodeIds, List.map_cons, List.dropLast_cons_cons, ← hrest]
    rfl

variable {steps : List Entries}

theorem graphEdges_of_previous {index : ℕ} {previous : String} (hprevious : previous ≠ "")
    (hnames : ∀ step ∈ steps, HasName step) :
    graphEdges index previous steps = chainEdges (previous :: nodeIds index steps) := by
  induction steps generalizing index previous with
  | nil => rfl
  | cons step steps ih =>
    obtain ⟨hstep, hsteps⟩ := List.forall_mem_cons.mp hnames
    rw [graphEdges, if_neg hprevious, ih (hstep index) hsteps]
    rfl

theorem graphEdges_chain (hnames : ∀ step ∈ steps, HasName step) :
    graphEdges 0 "" steps = chainEdges (nodeIds 0 steps) := by
  cases steps with
  | nil => rfl
  | cons step steps =>
    obtain ⟨hstep, hsteps⟩ := List.forall_mem_cons.mp hnames
    rw [graphEdges, if_pos rfl, graphEdges_of_previous (hstep 0) hsteps]
    rfl

theorem mapM_asMapping {items : List Val} (h : items.mapM asMapping = .ok steps) :
    items = steps.map Val.dict := by
  induction items generalizing steps with
  | nil =>
    cases h
    rfl
  | cons item items ih =>
    rw [List.mapM_cons] at h
    obtain ⟨step, hstep, h⟩ := bind_eq_ok.mp h
    obtain ⟨rest, hrest, h⟩ := bind_eq_ok.mp h
    cases h
    cases item with
    | dict kvs =>
      cases hstep
      rw [List.map_cons, ih hrest]
    | _ => cases hstep

theorem stepItems_congr
    (h : Val.getIn "runtime_queue_item" r' = Val.getIn "runtime_queue_item" r) :
    stepItems r' = stepItems r := by
  unfold stepItems
  rw [mappingAt_congr h]

theorem Chained.congr {nodes edges : List Val} (h : Chained r steps nodes edges)
    (hitem : Val.getIn "runtime_queue_item" r' = Val.getIn "runtime_queue_item" r)
    (hgraph : Val.getIn "task_graph" r' = Val.getIn "task_graph" r) :
    Chained r' steps nodes edges :=
  { h with items := (stepItems_congr hitem).trans h.items, graph := hgraph.trans h.graph }

/-- A graph that is drawn anew is the chain of the steps. -/
theorem chained_graphedRecord (h : graphedRecord r = .ok r') :
    ∃ steps, stepItems r = .ok (steps.map Val.dict) ∧ ((∀ step ∈ steps, HasName step) →
      ∃ nodes edges, Chained r' steps nodes edges) := by
  have htouched := touched_graphedRecord h
  unfold graphedRecord at h
  obtain ⟨items, hitems, h⟩ := bind_eq_ok.mp h
  obtain ⟨steps, hsteps, h⟩ := bind_eq_ok.mp h
  obtain ⟨summary, -, h⟩ := bind_eq_ok.mp h
  have hmapped := mapM_asMapping hsteps
  rw [hmapped] at hitems
  refine ⟨steps, hitems, fun hnames => ⟨graphNodes (Val.getIn "task_id" r) 0 "" steps,
    graphEdges 0 "" steps, ?_⟩⟩
  exact {
    items := (stepItems_congr (htouched _ (by decide))).trans hitems
    graph := by
      cases h
      rw [Val.getIn_put, if_pos rfl]
      rfl
    ids := ids_graphNodes _ 0 "" steps
    depends := depends_graphNodes _ 0 "" steps hnames
    chain := graphEdges_chain hnames
    nodeCount := length_graphNodes _ 0 "" steps
    edgeCount := by rw [graphEdges_chain hnames, length_chainEdges, length_nodeIds] }

/-! ## Ids -/

theorem toList_toString (n : ℕ) : (toString n).toList = Nat.toDigits 10 n := by
  rw [Nat.toString_eq_repr, Nat.toList_repr]

/-- The id that a replan gives to a step. -/
def replanId (number : ℕ) (originalId : String) : String :=
  "replan-" ++ toString number ++ ":" ++ originalId

theorem takeWhile_digits (n : ℕ) (cs : List Char) :
    ((toString n).toList ++ ':' :: cs).takeWhile (· ≠ ':') = (toString n).toList := by
  rw [List.takeWhile_append_of_pos]
  · simp
  · intro c hc
    rw [toList_toString] at hc
    have hdigit := Nat.isDigit_of_mem_toDigits (by decide) (by decide) hc
    refine decide_eq_true ?_
    rintro rfl
    exact absurd hdigit (by decide)

theorem replanId_number {m n : ℕ} {a b : String} (h : replanId m a = replanId n b) : m = n := by
  have hlist : (toString m).toList ++ ':' :: a.toList = (toString n).toList ++ ':' :: b.toList := by
    have hlists := congrArg String.toList h
    unfold replanId at hlists
    simp only [String.toList_append, List.append_assoc] at hlists
    exact List.append_cancel_left hlists
  have hdigits := congrArg (List.takeWhile (· ≠ ':')) hlist
  rw [takeWhile_digits, takeWhile_digits, toList_toString, toList_toString] at hdigits
  rw [← @Nat.ofDigitChars_ten_toDigits m, hdigits, Nat.ofDigitChars_ten_toDigits]

theorem replanId_ne (number : ℕ) (originalId : String) : replanId number originalId ≠ "" := by
  intro h
  have hlist := congrArg String.toList h
  simp [replanId] at hlist

theorem ids_replannedSteps {number : ℕ} {requestId : Val} {offset : ℕ} {steps : List Val} :
    ∀ step ∈ replannedSteps number requestId offset steps,
      ∃ originalId, Val.getIn "id" step = .str (replanId number originalId) := by
  induction steps generalizing offset with
  | nil => nofun
  | cons v steps ih =>
    cases v with
    | dict step =>
      refine List.forall_mem_cons.mpr ⟨?_, ih⟩
      exact ⟨_, by simp [putAll, replanId]; rfl⟩
    | _ => exact ih

theorem hasName_of_replanId {step : Entries} {number : ℕ} {originalId : String}
    (h : Val.getIn "id" step = .str (replanId number originalId)) : HasName step := by
  intro index
  have htrue : (Val.str (replanId number originalId)).truthy = true :=
    decide_eq_true (replanId_ne number originalId)
  unfold nodeId Val.orElse
  rw [h, if_pos htrue]
  exact replanId_ne number originalId

/-! ## One append -/

/-- `record.get("replan_history")`, when it is a list. -/
def historyOf (record : Entries) : List Val := listItems (Val.getIn "replan_history" record)

def replanKeys : List String :=
  ["runtime_queue_item", "replan_history", "progress", "runtime_state", "task_graph",
    "task_graph_summary", "session_resume_contract"]

/-- Steps are appended to the record, and the graph is drawn anew. -/
structure AppendsSteps (record request : Entries) (original : List Val) (added : List Entries)
    (result : Entries) : Prop where
  admits : AdmitsReplan record request
  before : stepItems record = .ok original
  after : stepItems result = .ok (original ++ added.map Val.dict)
  numbered : ∀ step ∈ added, ∃ originalId,
    Val.getIn "id" step = .str (replanId ((historyOf record).length + 1) originalId)
  history : ∃ event, historyOf result = historyOf record ++ [event] ∧
    namesRequest (Val.getIn "request_id" request).text event = true
  touched : Touched replanKeys record result
  counts : ∀ ok, Val.getIn (countKey ok) (mappingAt "progress" result) =
    Val.getIn (countKey ok) (mappingAt "progress" record)
  graph : ∃ steps, stepItems result = .ok (steps.map Val.dict) ∧
    ((∀ step ∈ steps, HasName step) → ∃ nodes edges, Chained result steps nodes edges)

theorem itemsOf_list (xs : List Val) : itemsOf (.list xs) = .ok xs := by
  cases xs <;> rfl

theorem lengthOf_history {key : String} {item : Val} {n : ℤ} (h : appendTo key item r = .ok r')
    (hlength : lengthOf (Val.getIn key r) = .ok n) :
    n.toNat = (listItems (Val.getIn key r)).length := by
  unfold appendTo at h
  split at h
  · rename_i hnone
    rw [hnone] at hlength ⊢
    cases hlength
    rfl
  · rename_i xs hlist
    rw [hlist] at hlength ⊢
    cases xs <;> cases hlength <;> rfl
  · cases h

variable {request : Entries}

/-- What a replan does to a record, apart from the graph. -/
theorem replannedRecord_parts {steps : List Val} (h : replannedRecord host r request steps = .ok r')
    :
    ∃ (original : List Val) (added : List Entries), stepItems r = .ok original ∧
      stepItems r' = .ok (original ++ added.map Val.dict) ∧
      (∀ step ∈ added, ∃ originalId,
        Val.getIn "id" step = .str (replanId ((historyOf r).length + 1) originalId)) ∧
      (∃ event, historyOf r' = historyOf r ++ [event] ∧
        namesRequest (Val.getIn "request_id" request).text event = true) ∧
      Touched replanKeys r r' := by
  unfold replannedRecord at h
  obtain ⟨item, hitem, h⟩ := bind_eq_ok.mp h
  obtain ⟨original, horiginal, h⟩ := bind_eq_ok.mp h
  obtain ⟨history, hhistory, h⟩ := bind_eq_ok.mp h
  dsimp only at h
  generalize hadded : replannedSteps (history.toNat + 1) (Val.getIn "request_id" request) 1 steps =
    added at h
  split at h
  · cases h
  obtain ⟨r₁, h₁, h⟩ := bind_eq_ok.mp h
  obtain ⟨progress, -, h⟩ := bind_eq_ok.mp h
  obtain ⟨completed, -, h⟩ := bind_eq_ok.mp h
  obtain ⟨failed, -, h⟩ := bind_eq_ok.mp h
  obtain ⟨state, -, h⟩ := bind_eq_ok.mp h
  obtain ⟨task, -, h⟩ := bind_eq_ok.mp h
  have hr' := Except.ok.inj h
  have hput : ∀ v : Val, Val.getIn "replan_history" (Val.put "runtime_queue_item" v r) =
      Val.getIn "replan_history" r := by
    intro v
    rw [Val.getIn_put, if_neg (by decide)]
  have hitems := listItems_appendTo h₁
  have hlength := lengthOf_history h₁ ((congrArg lengthOf (hput _)).trans hhistory)
  rw [hput] at hitems hlength
  refine ⟨original, added, ?_, ?_, ?_, ⟨_, Eq.trans ?_ hitems, decide_eq_true rfl⟩, ?_⟩
  · unfold stepItems
    rw [mappingAt, ← spread_eq hitem]
    exact horiginal
  · rw [← hr', stepItems, mappingAt, Val.getIn_put, if_neg (by decide), Val.getIn_put,
      if_neg (by decide), touched_appendTo h₁ _ (by decide), Val.getIn_put, if_pos rfl,
      Val.entries, Val.getIn_put, if_pos rfl, itemsOf_list]
  · rw [← hadded, hlength]
    exact ids_replannedSteps
  · rw [← hr', historyOf, Val.getIn_put, if_neg (by decide), Val.getIn_put, if_neg (by decide)]
  · rw [← hr']
    exact (((((Touched.refl replanKeys r).put (by decide) _).trans
      (touched_mono (touched_appendTo h₁) (by decide))).put (by decide) _).put (by decide) _)

theorem appendsSteps_of_appends {steps : List Val} (h : Appends host r request steps r') :
    ∃ original added, AppendsSteps r request original added r' := by
  obtain ⟨r₁, hreplanned, hgraphed⟩ := h.drawn
  obtain ⟨original, added, hbefore, hafter, hnumbered, ⟨event, hhistory, hnames⟩, htouched⟩ :=
    replannedRecord_parts hreplanned
  obtain ⟨drawn, hdrawn, hgraph⟩ := chained_graphedRecord hgraphed
  have hframe := touched_graphedRecord hgraphed
  have hitems : stepItems r' = stepItems r₁ := stepItems_congr (hframe _ (by decide))
  refine ⟨original, added, ?_⟩
  exact {
    admits := h.admits
    before := hbefore
    after := hitems.trans hafter
    numbered := hnumbered
    history := by
      refine ⟨event, ?_, hnames⟩
      rw [← hhistory, historyOf, hframe _ (by decide)]
      rfl
    touched := htouched.trans (touched_mono hframe (by decide))
    counts := by
      intro ok
      rw [mappingAt_congr (hframe "progress" (by decide))]
      exact (replannedRecord_counts hreplanned).2 ok
    graph := ⟨drawn, hitems.trans hdrawn, hgraph⟩ }

variable {added : List Entries}

/-- A checkpoint is no part of a replan. -/
theorem AppendsSteps.checkpointed {r'' : Entries} {original : List Val}
    (h : AppendsSteps r request original added r')
    (hframe : Touched ["session_resume_contract"] r' r'') :
    AppendsSteps r request original added r'' := by
  have hitems : stepItems r'' = stepItems r' := stepItems_congr (hframe _ (by decide))
  obtain ⟨event, hhistory, hnames⟩ := h.history
  obtain ⟨steps, hsteps, hgraph⟩ := h.graph
  exact {
    admits := h.admits
    before := h.before
    after := hitems.trans h.after
    numbered := h.numbered
    history := by
      refine ⟨event, ?_, hnames⟩
      rw [← hhistory, historyOf, hframe _ (by decide)]
      rfl
    touched := h.touched.trans (touched_mono hframe (by decide))
    counts := by
      intro ok
      rw [mappingAt_congr (hframe "progress" (by decide))]
      exact h.counts ok
    graph := by
      refine ⟨steps, hitems.trans hsteps, fun hnamed => ?_⟩
      obtain ⟨nodes, edges, hchained⟩ := hgraph hnamed
      exact ⟨nodes, edges, hchained.congr (hframe _ (by decide)) (hframe _ (by decide))⟩ }

/-! ## Calls, one after the other -/

def Timed.onSession (c : Timed ReplanCall) : Timed SessionCall where
  call := .replan c.call
  now := c.now
  trouble := c.trouble

/-- A session in which requests for replans are recorded and their steps appended. -/
def replanning (host : Host) : Machine Entries (Timed ReplanCall) (Except Err Entries) where
  step record c := (session host).step record c.onSession

/-- The steps of the queue item; none where they cannot be read. -/
def stepsOf (record : Entries) : List Val := (stepItems record).toOption.getD []

def ReplanCall.requestId : ReplanCall → String
  | .recordReplanRequest request => (Val.getIn "request_id" request).text
  | .appendReplanSteps request _ => (Val.getIn "request_id" request).text

/-- The keys of what a call leaves that appends no steps. -/
def replanNoteKeys : List String := "session_resume_contract" :: requestKeys

/-- A call leaves notes, or appends the steps of an admitted request. -/
theorem replanning_step (c : Timed ReplanCall) :
    Touched replanNoteKeys r ((replanning host).step r c).2 ∨
      ∃ request original added, c.call.requestId = (Val.getIn "request_id" request).text ∧
        AppendsSteps r request original added ((replanning host).step r c).2 := by
  change Touched replanNoteKeys r ((session host).step r c.onSession).2 ∨
    ∃ request original added, c.call.requestId = (Val.getIn "request_id" request).text ∧
      AppendsSteps r request original added ((session host).step r c.onSession).2
  rcases @session_step host r c.onSession with hsame | ⟨hwritten, -⟩
  · rw [hsame]
    exact .inl (Touched.refl _ r)
  · generalize ((session host).step r c.onSession).2 = r' at hwritten ⊢
    obtain ⟨r₁, hr₁, hcheck⟩ := checkpointed_written hwritten
    have hframe := touched_checkpointed hcheck
    rcases replan_written hr₁ with htouched | ⟨request, steps, hcall, happends⟩
    · exact .inl ((touched_mono htouched (List.subset_cons_self _ _)).trans
        (touched_mono hframe (by decide)))
    · obtain ⟨original, added, hadded⟩ := appendsSteps_of_appends happends
      refine .inr ⟨request, original, added, ?_, hadded.checkpointed hframe⟩
      rw [hcall]
      rfl

theorem stepsOf_of_items {items : List Val} (h : stepItems r = .ok items) : stepsOf r = items := by
  unfold stepsOf
  rw [h]
  rfl

theorem stepsOf_congr
    (h : Val.getIn "runtime_queue_item" r' = Val.getIn "runtime_queue_item" r) :
    stepsOf r' = stepsOf r := by
  unfold stepsOf
  rw [stepItems_congr h]

theorem AppendsSteps.stepsOf_eq {original : List Val} (h : AppendsSteps r request original added r')
    : stepsOf r' = stepsOf r ++ added.map Val.dict := by
  rw [stepsOf_of_items h.before, stepsOf_of_items h.after]

def addedBy (host : Host) (record : Entries) (c : Timed ReplanCall) : List Val :=
  (stepsOf ((replanning host).step record c).2).drop (stepsOf record).length

/-- A request was appended before. -/
def Noted (record : Entries) (requestId : String) : Prop :=
  (historyOf record).any (namesRequest requestId) = true

def planKeys : List String :=
  ["runtime_queue_item", "runtime_state", "task_graph", "task_graph_summary", "progress"]

def SamePlan (record result : Entries) : Prop :=
  ∀ key ∈ planKeys, Val.getIn key result = Val.getIn key record

/-- The steps after a call are those before it and those that it adds. -/
theorem steps_step (c : Timed ReplanCall) :
    stepsOf ((replanning host).step r c).2 = stepsOf r ++ addedBy host r c := by
  unfold addedBy
  rcases @replanning_step host r c with htouched | ⟨request, original, added, -, happends⟩
  · rw [stepsOf_congr (htouched _ (by decide)), List.drop_length, List.append_nil]
  · rw [happends.stepsOf_eq, List.drop_left]

theorem history_of_touched {keys : List String} (h : Touched keys r r')
    (hkeys : "replan_history" ∉ keys) : historyOf r' = historyOf r := by
  unfold historyOf
  rw [h _ hkeys]

/-- What was appended before stays noted. -/
theorem noted_step (c : Timed ReplanCall) {requestId : String} (h : Noted r requestId) :
    Noted ((replanning host).step r c).2 requestId := by
  unfold Noted at h ⊢
  rcases @replanning_step host r c with htouched | ⟨request, original, added, -, happends⟩
  · rw [history_of_touched htouched (by decide)]
    exact h
  · obtain ⟨event, hhistory, -⟩ := happends.history
    rw [hhistory, List.any_append, h, Bool.true_or]

variable {c : Timed ReplanCall}

theorem noted_of_added (h : addedBy host r c ≠ []) :
    Noted ((replanning host).step r c).2 c.call.requestId ∧
      ∃ requests, itemsOf (Val.getIn "replan_requests" r) = .ok requests ∧
        requests.any (namesRequest c.call.requestId) = true := by
  rcases @replanning_step host r c with htouched | ⟨request, original, added, hid, happends⟩
  · refine absurd ?_ h
    unfold addedBy
    rw [stepsOf_congr (htouched _ (by decide)), List.drop_length]
  · obtain ⟨event, hhistory, hnames⟩ := happends.history
    rw [hid]
    refine ⟨?_, happends.admits.admitted⟩
    unfold Noted
    rw [hhistory, List.any_append, List.any_cons, hnames, Bool.true_or, Bool.or_true]

theorem noted_items {requestId : String} {history : List Val} (h : Noted r requestId)
    (hitems : itemsOf (Val.getIn "replan_history" r) = .ok history) :
    history.any (namesRequest requestId) = true := by
  unfold Noted historyOf at h
  cases hlist : Val.getIn "replan_history" r with
  | list xs =>
    rw [hlist, itemsOf_list] at hitems
    cases hitems
    rw [hlist] at h
    exact h
  | _ =>
    rw [hlist] at h
    cases h

/-- A call on a request that was appended before leaves the plan. -/
theorem samePlan_of_noted (h : Noted r c.call.requestId) :
    SamePlan r ((replanning host).step r c).2 := by
  rcases @replanning_step host r c with htouched | ⟨request, original, added, hid, happends⟩
  · intro key hkey
    exact htouched key (by revert hkey key; decide)
  · obtain ⟨history, hitems, hnew⟩ := happends.admits.new
    rw [hid] at h
    exact absurd (noted_items h hitems) (by rw [hnew]; exact Bool.false_ne_true)

/-! ## Fresh ids -/

/-- The id of a step is that of a replan with one of these numbers. -/
def NumberedUpTo (number : ℕ) (v : Val) : Prop :=
  ∃ k originalId, k ≤ number ∧ fieldOf "id" v = .str (replanId k originalId)

theorem NumberedUpTo.mono {m n : ℕ} {v : Val} (h : NumberedUpTo m v) (hle : m ≤ n) :
    NumberedUpTo n v := by
  obtain ⟨k, originalId, hk, hid⟩ := h
  exact ⟨k, originalId, hk.trans hle, hid⟩

theorem numbered_step (c : Timed ReplanCall) :
    (historyOf r).length ≤ (historyOf ((replanning host).step r c).2).length ∧
      ∀ v ∈ addedBy host r c,
        (historyOf ((replanning host).step r c).2).length = (historyOf r).length + 1 ∧
          ∃ originalId, fieldOf "id" v =
            .str (replanId ((historyOf r).length + 1) originalId) := by
  unfold addedBy
  rcases @replanning_step host r c with htouched | ⟨request, original, added, -, happends⟩
  · rw [stepsOf_congr (htouched _ (by decide)), List.drop_length,
      history_of_touched htouched (by decide)]
    exact ⟨le_refl _, nofun⟩
  · obtain ⟨event, hhistory, -⟩ := happends.history
    rw [happends.stepsOf_eq, List.drop_left, hhistory, List.length_append, List.length_singleton]
    refine ⟨Nat.le_succ _, fun v hv => ⟨rfl, ?_⟩⟩
    obtain ⟨step, hstep, rfl⟩ := List.mem_map.mp hv
    exact happends.numbered step hstep

/-- The ids of the steps that were added so far differ, and so do those to come. -/
structure FreshSince (record r : Entries) : Prop where
  grown : stepsOf record <+: stepsOf r
  numbered : ∀ v ∈ (stepsOf r).drop (stepsOf record).length,
    NumberedUpTo (historyOf r).length v
  distinct : (((stepsOf r).drop (stepsOf record).length).map (fieldOf "id")).Nodup

variable {record : Entries}

theorem freshSince_step (h : FreshSince record r)
    (hnodup : ((addedBy host r c).map (fieldOf "id")).Nodup) :
    FreshSince record ((replanning host).step r c).2 := by
  obtain ⟨hgrows, hadded⟩ := @numbered_step host r c
  have hdrop : (stepsOf ((replanning host).step r c).2).drop (stepsOf record).length =
      (stepsOf r).drop (stepsOf record).length ++ addedBy host r c := by
    rw [steps_step, List.drop_append_of_le_length h.grown.length_le]
  refine ⟨?_, ?_, ?_⟩
  · rw [steps_step]
    exact h.grown.trans (List.prefix_append _ _)
  · intro v hv
    rw [hdrop, List.mem_append] at hv
    rcases hv with hv | hv
    · exact (h.numbered v hv).mono hgrows
    · obtain ⟨hlength, originalId, hid⟩ := hadded v hv
      exact ⟨_, originalId, hlength.ge, hid⟩
  · rw [hdrop, List.map_append]
    refine h.distinct.append hnodup ?_
    intro id hold hnew
    obtain ⟨v, hv, rfl⟩ := List.mem_map.mp hold
    obtain ⟨w, hw, hsame⟩ := List.mem_map.mp hnew
    obtain ⟨k, originalId, hk, hid⟩ := h.numbered v hv
    obtain ⟨-, originalId', hid'⟩ := hadded w hw
    rw [hid, hid'] at hsame
    have hnumber := replanId_number (Val.str.inj hsame)
    omega

/-! ## The graph -/

/-- The text of a true value is not empty: a number that is no integer has digits. -/
def Legible (v : Val) : Prop := v.truthy = true → v.toText ≠ ""

theorem hasName_of_legible {step : Entries} (hid : Legible (Val.getIn "id" step))
    (hstepId : Legible (Val.getIn "step_id" step)) : HasName step := by
  intro index
  unfold nodeId Val.orElse
  split
  · rename_i htrue
    exact hid htrue
  · split
    · rename_i htrue
      exact hstepId htrue
    · intro h
      have hlist := congrArg String.toList h
      simp [Val.toText] at hlist

/-- The steps have names, and their graph is the one the record had or their chain. -/
structure Drawn (record r : Entries) : Prop where
  named : ∀ step, Val.dict step ∈ stepsOf r → HasName step
  graph : stepsOf r = stepsOf record ∧
      Val.getIn "task_graph" r = Val.getIn "task_graph" record ∨
    ∃ steps nodes edges, Chained r steps nodes edges

theorem drawn_step (h : Drawn record r) : Drawn record ((replanning host).step r c).2 := by
  rcases @replanning_step host r c with htouched | ⟨request, original, added, -, happends⟩
  · have hsteps := stepsOf_congr (htouched _ (by decide))
    refine ⟨fun step hstep => h.named step (hsteps ▸ hstep), ?_⟩
    rcases h.graph with ⟨hsame, hgraph⟩ | ⟨steps, nodes, edges, hchained⟩
    · exact .inl ⟨hsteps.trans hsame, (htouched _ (by decide)).trans hgraph⟩
    · exact .inr ⟨steps, nodes, edges,
        hchained.congr (htouched _ (by decide)) (htouched _ (by decide))⟩
  · have hnamed : ∀ step, Val.dict step ∈ stepsOf ((replanning host).step r c).2 →
        HasName step := by
      intro step hstep
      rw [happends.stepsOf_eq, List.mem_append] at hstep
      rcases hstep with hold | hnew
      · exact h.named step hold
      · obtain ⟨step', hstep', heq⟩ := List.mem_map.mp hnew
        obtain ⟨originalId, hid⟩ := happends.numbered step' hstep'
        exact Val.dict.inj heq ▸ hasName_of_replanId hid
    obtain ⟨steps, hsteps, hgraph⟩ := happends.graph
    obtain ⟨nodes, edges, hchained⟩ := hgraph fun step hstep => hnamed step (by
      rw [stepsOf_of_items hsteps]
      exact List.mem_map_of_mem hstep)
    exact ⟨hnamed, .inr ⟨steps, nodes, edges, hchained⟩⟩

/-! ## Runs -/

/-- What was done so far is kept: feedback, evidence and the counts of the progress. -/
structure SameEvidence (record r : Entries) : Prop where
  feedback : Val.getIn "step_feedback" r = Val.getIn "step_feedback" record
  evidence : Val.getIn "execution_evidence" r = Val.getIn "execution_evidence" record
  counts : ∀ ok, Val.getIn (countKey ok) (mappingAt "progress" r) =
    Val.getIn (countKey ok) (mappingAt "progress" record)

theorem sameEvidence_step (h : SameEvidence record r) :
    SameEvidence record ((replanning host).step r c).2 := by
  rcases @replanning_step host r c with htouched | ⟨request, original, added, -, happends⟩
  · refine ⟨(htouched _ (by decide)).trans h.feedback, (htouched _ (by decide)).trans h.evidence,
      fun ok => ?_⟩
    rw [mappingAt_congr (htouched "progress" (by decide))]
    exact h.counts ok
  · exact ⟨(happends.touched _ (by decide)).trans h.feedback,
      (happends.touched _ (by decide)).trans h.evidence,
      fun ok => (happends.counts ok).trans (h.counts ok)⟩

/-- Over the calls, replanning only appends, and once for each request. -/
structure ReplansOnce (host : Host) (record : Entries) (calls : List (Timed ReplanCall)) :
    Prop where
  grows : ∀ before c, before ++ [c] <+: calls →
    stepsOf ((replanning host).run record before) <+:
      stepsOf ((replanning host).run record (before ++ [c]))
  admitted : ∀ before c, before ++ [c] <+: calls →
    addedBy host ((replanning host).run record before) c ≠ [] →
      ∃ requests, itemsOf (Val.getIn "replan_requests" ((replanning host).run record before)) =
        .ok requests ∧ requests.any (namesRequest c.call.requestId) = true
  once : ∀ before c later c', before ++ [c] ++ later ++ [c'] <+: calls →
    addedBy host ((replanning host).run record before) c ≠ [] →
      c'.call.requestId = c.call.requestId →
        SamePlan ((replanning host).run record (before ++ [c] ++ later))
          ((replanning host).run record (before ++ [c] ++ later ++ [c']))
  fresh : (replanning host).Guarded
      (fun r c => ((addedBy host r c).map (fieldOf "id")).Nodup) record calls →
    (((stepsOf ((replanning host).run record calls)).drop (stepsOf record).length).map
      (fieldOf "id")).Nodup
  graph : stepsOf ((replanning host).run record calls) = stepsOf record ∧
      Val.getIn "task_graph" ((replanning host).run record calls) =
        Val.getIn "task_graph" record ∨
    ∃ steps nodes edges, Chained ((replanning host).run record calls) steps nodes edges
  evidence : SameEvidence record ((replanning host).run record calls)

theorem replansOnce (host : Host) (record : Entries) (calls : List (Timed ReplanCall))
    (hlegible : ∀ step, Val.dict step ∈ stepsOf record →
      Legible (Val.getIn "id" step) ∧ Legible (Val.getIn "step_id" step)) :
    ReplansOnce host record calls where
  grows := by
    intro before c _
    rw [Machine.run_snoc, steps_step]
    exact List.prefix_append _ _
  admitted := fun before c _ hadded => (noted_of_added hadded).2
  once := by
    intro before c later c' _ hadded hsame
    have hnoted : Noted ((replanning host).run record (before ++ [c] ++ later))
        c.call.requestId := by
      have hkeep : ∀ r i, Noted r c.call.requestId →
          Noted ((replanning host).step r i).2 c.call.requestId := fun _ i => noted_step i
      rw [Machine.run_append, Machine.run_snoc]
      exact Machine.run_invariant hkeep later (noted_of_added hadded).1
    rw [Machine.run_snoc]
    exact samePlan_of_noted (hsame ▸ hnoted)
  fresh := by
    intro hguarded
    have hstart : FreshSince record record := by
      refine ⟨List.prefix_refl _, ?_, ?_⟩
      · rw [List.drop_length]
        exact nofun
      · rw [List.drop_length]
        exact List.nodup_nil
    exact (hguarded.invariant (fun _ _ hfresh hnodup => freshSince_step hfresh hnodup)
      hstart).distinct
  graph := by
    have hstart : Drawn record record := by
      refine ⟨fun step hstep => ?_, .inl ⟨rfl, rfl⟩⟩
      obtain ⟨hid, hstepId⟩ := hlegible step hstep
      exact hasName_of_legible hid hstepId
    exact (Machine.run_invariant (fun _ _ hdrawn => drawn_step hdrawn) calls hstart).graph
  evidence := Machine.run_invariant (fun _ _ hsame => sameEvidence_step hsame) calls
    ⟨rfl, rfl, fun _ => rfl⟩

def executingPackage : Entries :=
  [("package_id", .str "p"), ("status", .str "running"),
    ("runtime_lifecycle_state", .str "executing"),
    ("runtime_queue_item", .dict [("steps", .list [.dict [("id", .str "replan-1:a")]])])]

def replanRequest : Entries := [("request_id", .str "q"), ("root_cause", .str "recoverable")]

def replanCalls : List (Timed ReplanCall) :=
  [{ call := .recordReplanRequest replanRequest, now := "t" },
    { call := .appendReplanSteps replanRequest [.dict [("id", .str "a")]], now := "t" },
    { call := .appendReplanSteps replanRequest [.dict [("id", .str "a")]], now := "t" }]

theorem replansOnce_replanCalls : ReplansOnce plainHost executingPackage replanCalls ∧
    (stepsOf ((replanning plainHost).run executingPackage replanCalls)).length = 2 := by
  refine ⟨replansOnce plainHost executingPackage replanCalls fun step hstep => ?_, ?_⟩
  · have hstep' := Val.dict.inj (List.mem_singleton.mp hstep)
    rw [hstep']
    exact ⟨fun _ => by decide, fun htrue => by cases htrue⟩
  · decide +kernel

end Packages
end ZeroRuntime
