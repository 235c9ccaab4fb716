import ZeroRuntime.Packages.Filed

/-!
# ZeroRuntime.Packages.Claims

How the queue hands out packages.

* A claim asks for the lifecycle of the package, and `claim_next` for the first package whose status
  is `queued`. A package that is claimed already is handed out again as it is.
* `FreshClaim`: a hand-out that claims the package. It leaves it running.
* `claims_disciplined`: this over whole runs, and that a package is claimed afresh once, until it is
  paused or resumed.
-/

namespace ZeroRuntime
namespace Packages

open Lib Goals Queue

/-- The lifecycle states that a claim starts from. -/
def claimableStates : List String := ["queued", "planned", "paused"]

def claimed (record : Entries) : Bool :=
  isText "claimed" (Val.getIn "runtime_lifecycle_state" record)

def Call.claims : Call → Bool
  | .claimNext _ => true
  | .onRecord _ .claim _ => true
  | _ => false

def planned (record : Entries) : Bool :=
  isText "planned" (Val.getIn "planning_status" record) &&
    (Val.getIn "runtime_queue_item" record).isDict

/-- The record `r` of a file, and the record `r'` that a claim hands out, in the queue `q'`. -/
inductive HandsOut (q : RuntimePackageQueue) (name : String) (r : Entries) :
    Entries → RuntimePackageQueue → Prop
  | again : claimed r = true → HandsOut q name r r q
  | fresh {r' : Entries} : claim r = .ok (.written r') → claimed r = false → ¬ Ended r →
      lifecycle r ∈ claimableStates → status r' = "running" → lifecycle r' = "claimed" →
      HandsOut q name r r' (q.put name r')

/-- The call hands out the package in the file, and claims it. -/
def FreshClaim (host : Host) (q : RuntimePackageQueue) (call : Call) (name : String) : Prop :=
  call.claims = true ∧ ∃ r r', q.files.get? name = some r ∧ claim r = .ok (.written r') ∧
    (runtimePackageQueue host).step q call = (.ok (some r'), q.put name r')

/-- The package in the file is paused or resumed. -/
def Release (host : Host) (q : RuntimePackageQueue) (call : Call) (name : String) : Prop :=
  ∃ packageId c r r', call = .onRecord packageId c none ∧ c.releases = true ∧
    readRecord host q packageId = .ok (name, r) ∧ c.change host packageId r = .ok (.written r')

/-- The law of claims, for the calls of a run. -/
structure Disciplined (host : Host) (calls : List Call) : Prop where
  handsOut : ∀ done call, done ++ [call] <+: calls → call.claims = true →
    ∀ r', ((runtimePackageQueue host).step ((runtimePackageQueue host).run {} done) call).1 =
        .ok (some r') →
      ∃ name r, ((runtimePackageQueue host).run {} done).files.get? name = some r ∧
        planned r = true ∧
        (∀ trouble, call = .claimNext trouble →
          nextPlanned ((runtimePackageQueue host).run {} done) = some r ∧
            isText "queued" (Val.getIn "status" r) = true) ∧
        HandsOut ((runtimePackageQueue host).run {} done) name r r'
          ((runtimePackageQueue host).step ((runtimePackageQueue host).run {} done) call).2
  once : ∀ name before first between second, before ++ first :: between ++ [second] <+: calls →
    FreshClaim host ((runtimePackageQueue host).run {} before) first name →
    FreshClaim host ((runtimePackageQueue host).run {} (before ++ first :: between)) second name →
    ∃ pre release post, between = pre ++ release :: post ∧
      Release host ((runtimePackageQueue host).run {} (before ++ first :: pre)) release name
  answers : ∀ done, done <+: calls →
    ∀ r, nextPlanned ((runtimePackageQueue host).run {} done) = some r →
      claimed r = true ∨ lifecycle r ∈ claimableStates →
      ∃ r', ((runtimePackageQueue host).step ((runtimePackageQueue host).run {} done)
        (.claimNext none)).1 = .ok (some r')

variable {host : Host} {q : RuntimePackageQueue} {r r' : Entries}

/-! ## One claim -/

/-- The states from which the lifecycle goes to `claimed`. -/
theorem claimable_of_allowed {state : String} (h : "claimed" ∈ schedulerRuntimeTransitions state) :
    state ∈ claimableStates := by
  unfold schedulerRuntimeTransitions at h
  split at h
  all_goals first | decide | exact absurd h (by decide)

theorem claim_kept (h : claim r = .ok (.kept r')) : planned r = true ∧ claimed r = true ∧ r' = r := by
  unfold claim at h
  split at h
  · cases h
  · rename_i hplanned
    rw [Bool.not_eq_true, Bool.not_eq_false'] at hplanned
    split at h
    · rename_i item hitem
      split at h
      · rename_i hclaimed
        cases h
        refine ⟨?_, hclaimed, rfl⟩
        unfold planned
        rw [hplanned, hitem]
        rfl
      · obtain ⟨r₁, -, h⟩ := bind_eq_ok.mp h
        obtain ⟨r₂, -, h⟩ := bind_eq_ok.mp h
        cases h
    · cases h

theorem claim_written (h : claim r = .ok (.written r')) :
    planned r = true ∧ claimed r = false ∧ ¬ Ended r ∧ lifecycle r ∈ claimableStates ∧
      status r' = "running" ∧ lifecycle r' = "claimed" := by
  have hopen := (wrote_claim h).2
  unfold claim at h
  split at h
  · cases h
  · rename_i hplanned
    rw [Bool.not_eq_true, Bool.not_eq_false'] at hplanned
    split at h
    · rename_i item hitem
      split at h
      · cases h
      · rename_i hclaimed
        obtain ⟨r₁, h₁, h⟩ := bind_eq_ok.mp h
        obtain ⟨r₂, h₂, h⟩ := bind_eq_ok.mp h
        cases h
        obtain ⟨hlifecycle, hallowed⟩ := lifecycle_runtimeTransition h₁
        refine ⟨?_, (Bool.not_eq_true _).mp hclaimed, hopen, claimable_of_allowed hallowed,
          status_transition h₂, ?_⟩
        · unfold planned
          rw [hplanned, hitem]
          rfl
        · exact (textAt_congr (own_transition h₂ _ (by decide))).trans hlifecycle
    · cases h

theorem onRecord_claim (hfiled : Filed host q) {packageId : String} {trouble : Option Err}
    (h : (onRecord host q packageId .claim trouble).1 = .ok (some r')) :
    ∃ name r, readRecord host q packageId = .ok (name, r) ∧ planned r = true ∧
      HandsOut q name r r' (onRecord host q packageId .claim trouble).2 := by
  unfold onRecord at h ⊢
  cases hread : readRecord host q packageId with
  | error e =>
    rw [hread] at h
    cases h
  | ok found =>
    obtain ⟨name, r⟩ := found
    rw [hread] at h
    dsimp only at h ⊢
    cases hchange : RecordCall.claim.change host packageId r with
    | error e =>
      rw [hchange] at h
      cases h
    | ok outcome =>
      rw [hchange] at h
      refine ⟨name, r, rfl, ?_⟩
      cases outcome with
      | kept record =>
        obtain ⟨hplanned, hclaimed, rfl⟩ := claim_kept hchange
        cases h
        exact ⟨hplanned, .again hclaimed⟩
      | written record =>
        obtain ⟨hplanned, hclaimed, hopen, hclaimable, hstatus, hlifecycle⟩ := claim_written hchange
        have hname : fileName host (textAt "package_id" record) = .ok name :=
          (fileName_touched (wrote_claim hchange).1.own (by decide)).trans
            (hfiled name r (readRecord_ok hread).2)
        dsimp only at h ⊢
        rcases @writeRecord_cases host q record trouble name hname with
          ⟨e, hwrite⟩ | ⟨-, hwrite⟩
        · rw [hwrite] at h
          cases h
        · rw [hwrite] at h ⊢
          cases h
          exact ⟨hplanned, .fresh hchange hclaimed hopen hclaimable hstatus hlifecycle⟩

theorem fileName_empty (host : Host) : fileName host "" = .error (queueError "package_id_required") :=
  rfl

variable {name : String}

theorem read_own (hfiled : Filed host q) (hget : q.files.get? name = some r) :
    ∃ id, Val.find "package_id" r = some id ∧ readRecord host q id.toText = .ok (name, r) := by
  have hname := hfiled name r hget
  unfold textAt Val.getIn at hname
  cases hfind : Val.find "package_id" r with
  | none =>
    rw [hfind] at hname
    change fileName host "" = .ok name at hname
    rw [fileName_empty] at hname
    cases hname
  | some id =>
    rw [hfind] at hname
    change fileName host (id.orElse (.str "")).toText = .ok name at hname
    unfold Val.orElse at hname
    split at hname
    · exact ⟨id, rfl, readRecord_of_file hname hget⟩
    · change fileName host "" = .ok name at hname
      rw [fileName_empty] at hname
      cases hname

theorem nextPlanned_some (h : nextPlanned q = some r) :
    readyToClaim r = true ∧ ∃ name, q.files.get? name = some r :=
  ⟨List.find?_some h, mem_listPackages.mp (List.mem_of_find?_eq_some h)⟩

/-- `claim_next` claims the package it found. -/
theorem claimNext_eq (hfiled : Filed host q) (trouble : Option Err) (hnext : nextPlanned q = some r)
    (hget : q.files.get? name = some r) :
    ∃ packageId, readRecord host q packageId = .ok (name, r) ∧
      claimNext host q trouble = onRecord host q packageId .claim trouble := by
  obtain ⟨id, hfind, hread⟩ := read_own hfiled hget
  refine ⟨id.toText, hread, ?_⟩
  unfold claimNext
  rw [hnext]
  dsimp only
  rw [hfind]

variable {call : Call}

theorem claim_handsOut (hfiled : Filed host q) (hcall : call.claims = true)
    (h : ((runtimePackageQueue host).step q call).1 = .ok (some r')) :
    ∃ name r, q.files.get? name = some r ∧ planned r = true ∧
      (∀ trouble, call = .claimNext trouble →
        nextPlanned q = some r ∧ isText "queued" (Val.getIn "status" r) = true) ∧
      HandsOut q name r r' ((runtimePackageQueue host).step q call).2 := by
  cases call with
  | enqueue package now trouble => cases hcall
  | claimNext trouble =>
    cases hnext : nextPlanned q with
    | none =>
      change (claimNext host q trouble).1 = _ at h
      unfold claimNext at h
      rw [hnext] at h
      cases h
    | some r =>
      obtain ⟨hready, name, hget⟩ := nextPlanned_some hnext
      obtain ⟨packageId, hread, heq⟩ := claimNext_eq hfiled trouble hnext hget
      change (claimNext host q trouble).1 = _ at h
      rw [heq] at h
      obtain ⟨name', r₀, hread', hplanned, hhands⟩ := onRecord_claim hfiled h
      rw [hread] at hread'
      cases hread'
      refine ⟨name, r, hget, hplanned, fun trouble' _ => ⟨rfl, ?_⟩, ?_⟩
      · exact ((Bool.and_eq_true _ _).mp hready).1
      · change HandsOut q name r r' (claimNext host q trouble).2
        rw [heq]
        exact hhands
  | onRecord packageId c trouble =>
    cases c with
    | claim =>
      obtain ⟨name, r, hread, hplanned, hhands⟩ := onRecord_claim hfiled h
      refine ⟨name, r, (readRecord_ok hread).2, hplanned, fun trouble' heq => ?_, hhands⟩
      cases heq
    | _ => cases hcall

/-- `claim_next` answers, where the lifecycle of the package lets it. -/
theorem claimNext_answers (hfiled : Filed host q) (hnext : nextPlanned q = some r)
    (hstate : claimed r = true ∨ lifecycle r ∈ claimableStates) :
    ∃ r', (claimNext host q none).1 = .ok (some r') := by
  obtain ⟨hready, name, hget⟩ := nextPlanned_some hnext
  obtain ⟨packageId, hread, heq⟩ := claimNext_eq hfiled none hnext hget
  rw [heq]
  obtain ⟨hqueued, hrest⟩ := (Bool.and_eq_true _ _).mp hready
  obtain ⟨hplanned, hitem⟩ := (Bool.and_eq_true _ _).mp hrest
  obtain ⟨item, hitem⟩ : ∃ item, Val.getIn "runtime_queue_item" r = .dict item := by
    cases hvalue : Val.getIn "runtime_queue_item" r with
    | dict item => exact ⟨item, rfl⟩
    | _ =>
      rw [hvalue] at hitem
      cases hitem
  cases hclaimed : claimed r with
  | true =>
    have hchange : RecordCall.claim.change host packageId r = .ok (.kept r) := by
      change claim r = _
      unfold claim
      rw [hplanned, Bool.not_true, if_neg Bool.false_ne_true, hitem]
      exact if_pos hclaimed
    refine ⟨r, ?_⟩
    unfold onRecord
    rw [hread]
    dsimp only
    rw [hchange]
  | false =>
    have hclaimable : lifecycle r ∈ claimableStates := by
      rcases hstate with hagain | hclaimable
      · rw [hclaimed] at hagain
        cases hagain
      · exact hclaimable
    have hallowed : "claimed" ∈ schedulerRuntimeTransitions (lifecycle r) := by
      unfold claimableStates at hclaimable
      rcases List.mem_cons.mp hclaimable with heq | hclaimable
      · rw [heq]
        decide
      · rcases List.mem_cons.mp hclaimable with heq | hclaimable
        · rw [heq]
          decide
        · rw [List.mem_singleton.mp hclaimable]
          decide
    obtain ⟨r₁, h₁⟩ : ∃ r₁, runtimeTransition r "claimed" = .ok r₁ := ⟨_, if_pos hallowed⟩
    have hstatus : status r₁ = "queued" := by
      refine (textAt_congr (own_runtimeTransition h₁ _ (by decide))).trans (textAt_of_str ?_)
      cases hvalue : Val.getIn "status" r with
      | str s =>
        rw [hvalue] at hqueued
        rw [of_decide_eq_true hqueued]
      | _ =>
        rw [hvalue] at hqueued
        cases hqueued
    have hopen : status r₁ ∉ terminalStatuses := by
      rw [hstatus]
      decide
    obtain ⟨r₂, h₂⟩ : ∃ r₂, transition r₁ "running" (some [("status", .str "claimed"),
        ("task", .dict item), ("steps", (Val.getIn "steps" item).orElse (.list [])),
        ("execution_path", workPackageExecutionPath)]) = .ok r₂ := ⟨_, if_neg hopen⟩
    have hchange : RecordCall.claim.change host packageId r = .ok (.written r₂) := by
      change claim r = _
      unfold claim
      rw [hplanned, Bool.not_true, if_neg Bool.false_ne_true, hitem]
      dsimp only
      have hnot : ¬ isText "claimed" (Val.getIn "runtime_lifecycle_state" r) = true :=
        ne_true_of_eq_false hclaimed
      rw [if_neg hnot, h₁]
      change (transition r₁ _ _ >>= _) = _
      rw [h₂]
      rfl
    exact ⟨r₂, by rw [onRecord_written hfiled hread hchange]⟩

/-! ## Between two claims -/

/-- The package in the file was claimed, and neither paused nor resumed. -/
def Held (q : RuntimePackageQueue) (name : String) : Prop :=
  ∃ r, q.files.get? name = some r ∧ lifecycle r ∈ heldStates

theorem held_step (hfiled : Filed host q) (hheld : Held q name) (hcall : ¬ Release host q call name)
    : Held ((runtimePackageQueue host).step q call).2 name := by
  obtain ⟨r, hget, hstate⟩ := hheld
  have hother : ∀ {name' : String} {record : Entries}, name ≠ name' →
      Held (q.put name' record) name :=
    fun hne => ⟨r, by rw [get?_put, if_neg hne, hget], hstate⟩
  generalize hnext : ((runtimePackageQueue host).step q call).2 = q'
  have heffect := step_effect hfiled call
  rw [hnext] at heffect
  cases heffect with
  | same => exact ⟨r, hget, hstate⟩
  | added hfree _ _ =>
    refine hother fun heq => ?_
    rw [← heq, hget] at hfree
    cases hfree
  | @noted name' r₀ r' hget' htouched =>
    by_cases heq : name = name'
    · subst heq
      rw [hget] at hget'
      cases hget'
      refine ⟨r', by rw [get?_put, if_pos rfl], ?_⟩
      unfold lifecycle
      rw [textAt_congr (htouched _ (by decide))]
      exact hstate
    · exact hother heq
  | @operated name' packageId r₀ r' c hoperation hread hchange =>
    by_cases heq : name = name'
    · subst heq
      have hget' := (readRecord_ok hread).2
      rw [hget] at hget'
      cases hget'
      have hkeeps : c.releases = false := by
        rcases hoperation with rfl | ⟨-, rfl⟩
        · exact (Bool.not_eq_true _).mp fun hreleases =>
            hcall ⟨packageId, c, r, r', rfl, hreleases, hread, hchange⟩
        · rfl
      exact ⟨r', by rw [get?_put, if_pos rfl], (wrote_change hkeeps hchange).held hstate⟩
    · exact hother heq

theorem held_run {calls : List Call} (hfiled : Filed host q) (hheld : Held q name)
    (hcalls : ∀ pre release post, calls = pre ++ release :: post →
      ¬ Release host ((runtimePackageQueue host).run q pre) release name) :
    Held ((runtimePackageQueue host).run q calls) name := by
  induction calls generalizing q with
  | nil => exact hheld
  | cons call calls ih =>
    refine ih (filed_step hfiled call) (held_step hfiled hheld (hcalls [] call calls rfl)) ?_
    rintro pre release post rfl
    exact hcalls (call :: pre) release post rfl

theorem freshClaim_held (h : FreshClaim host q call name) :
    Held ((runtimePackageQueue host).step q call).2 name := by
  obtain ⟨-, r, r', -, hclaim, hstep⟩ := h
  rw [hstep]
  refine ⟨r', by rw [get?_put, if_pos rfl], ?_⟩
  rw [(claim_written hclaim).2.2.2.2.2]
  decide

theorem not_freshClaim_of_held (hheld : Held q name) : ¬ FreshClaim host q call name := by
  rintro ⟨-, r, r', hget, hclaim, -⟩
  obtain ⟨r₀, hget₀, hstate⟩ := hheld
  rw [hget] at hget₀
  cases hget₀
  have hclaimable := (claim_written hclaim).2.2.2.1
  unfold claimableStates at hclaimable
  rcases List.mem_cons.mp hclaimable with heq | hclaimable
  · rw [heq] at hstate
    exact absurd hstate (by decide)
  · rcases List.mem_cons.mp hclaimable with heq | hclaimable
    · rw [heq] at hstate
      exact absurd hstate (by decide)
    · rw [List.mem_singleton.mp hclaimable] at hstate
      exact absurd hstate (by decide)

/-! ## Runs -/

/-- The calls of every run keep the discipline of claims. -/
theorem claims_disciplined (host : Host) (calls : List Call) : Disciplined host calls where
  handsOut done call _ hcall r' h := claim_handsOut (filed_run host done) hcall h
  once := by
    intro name before first between second _ hfirst hsecond
    by_contra hnone
    have hrun : (runtimePackageQueue host).run {} (before ++ first :: between) =
        (runtimePackageQueue host).run
          ((runtimePackageQueue host).step ((runtimePackageQueue host).run {} before) first).2
          between := by
      rw [Machine.run_append]
      rfl
    refine not_freshClaim_of_held ?_ hsecond
    rw [hrun]
    refine held_run (filed_step (filed_run host before) first) (freshClaim_held hfirst) ?_
    rintro pre release post rfl hrelease
    refine hnone ⟨pre, release, post, rfl, ?_⟩
    rw [Machine.run_append]
    exact hrelease
  answers done _ r hnext hstate := claimNext_answers (filed_run host done) hnext hstate

def pausedCalls : List Call :=
  [.enqueue [("package_id", .str "p1"), ("session_id", .str "s1")] "2024-05-01T00:00:00Z" none,
    .onRecord "p1" (.recordPlanning [("planning_status", .str "planned"),
      ("runtime_queue_item", .dict [("steps", .list [.dict [("id", .str "a")]])])]) none,
    .onRecord "p1" .pause none]

def handedOut (q : RuntimePackageQueue) (call : Call) : Option String :=
  match ((runtimePackageQueue plainHost).step q call).1 with
  | .ok (some record) => some (status record)
  | _ => none

/-- A paused package is handed out, and once more without a resume. -/
theorem paused_package_claimed :
    (((runtimePackageQueue plainHost).run {} pausedCalls).files.get? "p1.json").map status =
        some "paused" ∧
      handedOut ((runtimePackageQueue plainHost).run {} pausedCalls) (.onRecord "p1" .claim none) =
        some "running" ∧
      handedOut ((runtimePackageQueue plainHost).run {}
          (pausedCalls ++ [.onRecord "p1" .claim none])) (.onRecord "p1" .claim none) =
        some "running" :=
  ⟨rfl, rfl, rfl⟩

end Packages
end ZeroRuntime
