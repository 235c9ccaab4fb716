import ZeroRuntime.Goals.Lineage

/-!
# ZeroRuntime.Queue.Contract

Lineage and idempotency at queue boundaries (`core/runtime/persistent_queue_contract.py`):
`extractQueueLineage` reads the lineage fields of a record, `mergeQueueLineage` fills what a stored
record lacks and reports what it keeps, `duplicateIdentity` finds a stored record of the same work.

Reading raises on an evidence list with items that cannot be hashed, and on conflicting session
fields.
-/

namespace ZeroRuntime
namespace Queue

open Lib Goals

def queueLineageFields : List String :=
  ["root_goal_id", "goal_lineage_id", "branch_type", "branch_id", "session_id",
   "runtime_session_id", "goal_id", "source_goal_id", "cycle_index", "task_id",
   "continuation_goal_id", "continuation_task_id", "replan_request_id", "evidence_ref",
   "evidence_refs", "decision_evidence_id", "authority_state"]

def queueIdentityFields : List String :=
  ["task_id", "continuation_task_id", "continuation_goal_id", "replan_request_id"]

def nestedLineageKeys : List String :=
  ["metadata", "lineage", "runtime_queue_item", "task", "continuation_work_item",
   "replan_record", "replan_request", "next_runtime_request"]

def present (v : Val) : Bool :=
  match v with
  | .none => false
  | .str s => s ≠ ""
  | .list xs => !xs.isEmpty
  | .dict kvs => !kvs.isEmpty
  | _ => true

/-- The first present value of `field`, `none` if there is none. -/
def firstPresent (srcs : List Entries) (field : String) : Val :=
  ((srcs.map (Val.getIn field)).find? present).getD .none

def putPresent (field : String) (v : Val) (lineage : Entries) : Entries :=
  if present v then Val.put field v lineage else lineage

/-- The ids a continuation item names. -/
def continuationLineage (payload : Entries) : Entries :=
  match Val.getIn "continuation_work_item" payload with
  | .dict c =>
    putPresent "continuation_task_id"
      ((Val.getIn "continuation_task_id" c).orElse (Val.getIn "task_id" c))
      (putPresent "continuation_goal_id"
        ((Val.getIn "continuation_goal_id" c).orElse (Val.getIn "goal_id" c)) [])
  | _ => []

def replanRequestId (record : Entries) : Val :=
  let direct := (Val.getIn "replan_request_id" record).orElse (Val.getIn "request_id" record)
  if present direct then direct
  else match Val.getIn "replan_request" record with
    | .dict request => Val.getIn "request_id" request
    | _ => direct

def replanLineage (payload : Entries) (lineage : Entries) : Entries :=
  match Val.getIn "replan_record" payload with
  | .dict record => putPresent "replan_request_id" (replanRequestId record) lineage
  | _ => lineage

/-- The items of a list; anything else has none. -/
def listItems : Val → List Val
  | .list xs => xs
  | _ => []

/-- Every evidence reference of the sources: the lists, then the two scalar fields. -/
def evidenceRefs (srcs : List Entries) : List Val :=
  (srcs.flatMap fun s => listItems (Val.getIn "evidence_refs" s)) ++
  (["evidence_ref", "decision_evidence_id"].map (firstPresent srcs)).filter present

def lineageField (srcs : List Entries) (lineage : Entries) (field : String) :
    Except Err Entries :=
  if Val.hasKey field lineage then .ok lineage
  else if field = "evidence_refs" then
    let refs := evidenceRefs srcs
    if refs.isEmpty then .ok lineage
    else if refs.all Val.hashable then .ok (Val.put field (.list (Val.dedup refs)) lineage)
    else .error .typeError
  else .ok (putPresent field (firstPresent srcs field) lineage)

def extractQueueLineage : Val → Except Err Entries
  | .dict payload =>
    queueLineageFields.foldlM (lineageField (sources nestedLineageKeys (.dict payload)))
      (replanLineage payload (continuationLineage payload))
  | _ => .ok []

structure LineageConflict where
  field : String
  kept : Val
  rejected : Val

def mergeField (preserveExistingEvidence : Bool) (acc : Entries × List LineageConflict)
    (field : String) (value : Val) : Except Err (Entries × List LineageConflict) :=
  let (merged, conflicts) := acc
  let existing := Val.getIn field merged
  if field = "evidence_refs" then
    let incoming := listItems value
    let existingRefs := listItems existing
    if preserveExistingEvidence && !existingRefs.isEmpty then
      let rejected := incoming.filter (fun x => !x.elem existingRefs)
      .ok (Val.put field (.list existingRefs) merged,
        if rejected.isEmpty then conflicts
        else conflicts ++ [⟨field, .list existingRefs, .list rejected⟩])
    else
      let refs := existingRefs ++ incoming
      if refs.all Val.hashable then .ok (Val.put field (.list (Val.dedup refs)) merged, conflicts)
      else .error .typeError
  else if !present existing then .ok (Val.put field value merged, conflicts)
  else if existing.eq value then .ok (merged, conflicts)
  else .ok (merged, conflicts ++ [⟨field, existing, value⟩])

/-- `merge_queue_lineage` with one source. -/
def mergeQueueLineage (target : Entries) (source : Val) (preserveExistingEvidence : Bool) :
    Except Err (Entries × List LineageConflict) := do
  let incoming ← extractQueueLineage source
  incoming.foldlM (fun acc e => mergeField preserveExistingEvidence acc e.1 e.2) (target, [])

/-! ## A lineage that was read can be merged -/

section Merge

variable {α β : Type} {f : β → α → Except Err β}

theorem foldlM_invariant {P : β → Prop} (hf : ∀ b a b', P b → f b a = .ok b' → P b')
    {as : List α} {b b' : β} (hb : P b) (h : as.foldlM f b = .ok b') : P b' := by
  induction as generalizing b with
  | nil => cases h; exact hb
  | cons a as ih =>
    rw [List.foldlM_cons] at h
    cases hfa : f b a with
    | error e => rw [hfa] at h; cases h
    | ok c => rw [hfa] at h; exact ih (hf b a c hb hfa) h

theorem foldlM_ok {as : List α} (hf : ∀ b, ∀ a ∈ as, ∃ b', f b a = .ok b') (b : β) :
    ∃ b', as.foldlM f b = .ok b' := by
  induction as generalizing b with
  | nil => exact ⟨b, rfl⟩
  | cons a as ih =>
    obtain ⟨c, hc⟩ := hf b a List.mem_cons_self
    obtain ⟨b', hb'⟩ := ih (fun b x hx => hf b x (List.mem_cons_of_mem a hx)) c
    exact ⟨b', by rw [List.foldlM_cons, hc]; exact hb'⟩

/-- Every evidence list of the lineage can be made free of duplicates. -/
def HashableRefs (lineage : Entries) : Prop :=
  ∀ e ∈ lineage, e.1 = "evidence_refs" → (listItems e.2).all Val.hashable = true

variable {lineage : Entries}

theorem HashableRefs.put (h : HashableRefs lineage) {k : String} {v : Val}
    (hv : k = "evidence_refs" → (listItems v).all Val.hashable = true) :
    HashableRefs (Val.put k v lineage) := by
  intro e he hk
  rcases Val.mem_put he with rfl | he
  · exact hv hk
  · exact h e he hk

theorem HashableRefs.putPresent (h : HashableRefs lineage) {k : String} {v : Val}
    (hk : k ≠ "evidence_refs") : HashableRefs (putPresent k v lineage) := by
  unfold Queue.putPresent
  split
  · exact h.put fun he => absurd he hk
  · exact h

theorem hashableRefs_continuation (payload : Entries) :
    HashableRefs (continuationLineage payload) := by
  unfold continuationLineage
  split
  · refine HashableRefs.putPresent (HashableRefs.putPresent ?_ (by decide)) (by decide)
    intro e he
    cases he
  · intro e he
    cases he

theorem hashableRefs_replan {payload : Entries} (h : HashableRefs lineage) :
    HashableRefs (replanLineage payload lineage) := by
  unfold replanLineage
  split
  · exact h.putPresent (by decide)
  · exact h

theorem hashableRefs_lineageField {srcs : List Entries} {lineage' : Entries} {field : String}
    (h : HashableRefs lineage) (hl : lineageField srcs lineage field = .ok lineage') :
    HashableRefs lineage' := by
  unfold lineageField at hl
  split at hl
  · cases hl; exact h
  · split at hl
    · simp only at hl
      split at hl
      · cases hl; exact h
      · split at hl
        · rename_i hall
          cases hl
          refine h.put fun _ => List.all_eq_true.mpr fun x hx => ?_
          exact List.all_eq_true.mp hall x (Val.mem_dedup hx)
        · cases hl
    · rename_i hne
      cases hl
      exact h.putPresent hne

theorem hashableRefs_extract {payload : Val} (h : extractQueueLineage payload = .ok lineage) :
    HashableRefs lineage := by
  unfold extractQueueLineage at h
  split at h
  · exact foldlM_invariant (fun _ _ _ hb hf => hashableRefs_lineageField hb hf)
      (hashableRefs_replan (hashableRefs_continuation _)) h
  · cases h
    intro e he
    cases he

theorem mergeField_ok {acc : Entries × List LineageConflict} {field : String} {value : Val}
    (h : field = "evidence_refs" → (listItems value).all Val.hashable = true) :
    ∃ acc', mergeField true acc field value = .ok acc' := by
  obtain ⟨merged, conflicts⟩ := acc
  simp only [mergeField, Bool.true_and]
  split
  · rename_i hf
    split
    · exact ⟨_, rfl⟩
    · rename_i hnone
      -- nothing is kept, so the merged list is the incoming one
      have hnil : listItems (Val.getIn field merged) = [] := by simpa using hnone
      rw [hnil, List.nil_append, h hf, if_pos rfl]
      exact ⟨_, rfl⟩
  · split
    · exact ⟨_, rfl⟩
    · split <;> exact ⟨_, rfl⟩

/-- Merging keeps what evidence there is, so it raises only if the source cannot be read. -/
theorem mergeQueueLineage_ok (target : Entries) {source : Val} {incoming : Entries}
    (h : extractQueueLineage source = .ok incoming) :
    ∃ r, mergeQueueLineage target source true = .ok r := by
  unfold mergeQueueLineage
  rw [h]
  exact foldlM_ok (fun acc e he => mergeField_ok (hashableRefs_extract h e he)) (target, [])

end Merge

def queueSessionId (payload : Val) : Except Err String := do
  let identity ← extractRuntimeIdentity true payload
  pure identity.sessionId

def queueIdentity (payload : Val) : Except Err (List (String × String)) := do
  let lineage ← extractQueueLineage payload
  let identity := (queueIdentityFields.map fun f => (f, (Val.getIn f lineage).text)).filter
    (fun e => e.2 ≠ "")
  let sessionId ← queueSessionId payload
  pure (if sessionId ≠ "" then ("session_id", sessionId) :: identity else identity)

section Digest

variable (digest : Val → String)

def matchedIdentity (candidate existing : Val) : Except Err (List (String × String)) := do
  let candidateIdentity ← queueIdentity candidate
  let existingIdentity ← queueIdentity existing
  let shared := candidateIdentity.filter fun e => existingIdentity.contains e
  let explicit ← extractQueueLineage candidate
  if (Val.getIn "goal_lineage_id" explicit).truthy || (Val.getIn "root_goal_id" explicit).truthy
  then do
    let lineage ← extractGoalLineage digest false candidate
    pure (shared ++ [("goal_lineage_id", lineage.goalLineageId),
      ("branch_type", lineage.branchType), ("branch_id", lineage.branchId)])
  else pure shared

def duplicateIdentity (candidate : Val) (existingItems : List Val) :
    Except Err (Option (Val × List (String × String))) :=
  match canonicalWorkIdentity digest candidate with
  | none => .ok none
  | some key =>
    match existingItems.find? fun e => canonicalWorkIdentity digest e = some key with
    | none => .ok none
    | some existing => do
      let matched ← matchedIdentity digest candidate existing
      pure (some (existing, matched))

end Digest

end Queue
end ZeroRuntime
